import LinkTrust.Manifest
import LinkTrust.Proofs.Text.Blank

/-! # The domains of a manifest

A domain that is listed as a host stands for itself: it has no blanks around it and no capital
letters. So some domains of each kind that manifests declare can be declared by one manifest, which
declares no others.
-/

namespace LinkTrust

namespace LinkFilter

variable {f : LinkFilter} {d : String}

/-- A host that is a domain in the form in which domains are compared. -/
def IsUsual (d : String) : Prop := d ≠ "" ∧ Text.lower (String.ofList (Text.trim d.toList)) = d

@[simp] theorem autoVerify_web {autoVerify : Bool} {hosts : List String} :
    (web autoVerify hosts).autoVerify = autoVerify := rfl

@[simp] theorem handlesWeb_web {autoVerify : Bool} {hosts : List String} :
    (web autoVerify hosts).handlesWeb = true := by
  have hs : (["http", "https"].all fun s => Text.lower s = "http" || Text.lower s = "https") =
      true := by decide +kernel
  exact hs

theorem isUsual_of_mem_domains (h : d ∈ f.domains) : IsUsual d := by
  simp only [domains, List.mem_filter, List.mem_map, decide_eq_true_eq] at h
  obtain ⟨⟨x, -, rfl⟩, hne⟩ := h
  refine ⟨hne, ?_⟩
  simp only [Text.lower, String.toList_ofList, Text.trim_map_toLower, Text.trim_trim,
    Text.map_toLower_map_toLower]

theorem domains_web {hosts : List String} (h : ∀ d ∈ hosts, IsUsual d) {autoVerify : Bool} :
    (web autoVerify hosts).domains = hosts := by
  have hm : hosts.map (fun d => Text.lower (String.ofList (Text.trim d.toList))) = hosts :=
    (List.map_congr_left fun d hd => (h d hd).2).trans (List.map_id hosts)
  rw [domains, web, hm, List.filter_eq_self]
  simpa using fun d hd => (h d hd).1

end LinkFilter

namespace Manifest

variable {m : Manifest} {ms : List Manifest} {kind : LinkFilter → Bool} {d : String}

theorem isUsual_of_mem_collect (h : d ∈ m.collect kind) : LinkFilter.IsUsual d := by
  obtain ⟨f, -, -, -, hd⟩ := mem_collect.mp h
  exact LinkFilter.isUsual_of_mem_domains hd

theorem mem_webDomains_of_mem_autoVerifyDomains (h : d ∈ m.autoVerifyDomains) :
    d ∈ m.webDomains := by
  obtain ⟨f, hf, hw, -, hd⟩ := mem_collect.mp h
  exact mem_collect.mpr ⟨f, hf, hw, rfl, hd⟩

/-- Any set of domains in their usual form, and any part of it, is what some manifest declares. -/
theorem exists_declares (autoVerify web : Domains) (hs : ∀ d ∈ autoVerify, d ∈ web)
    (hu : ∀ d ∈ web, LinkFilter.IsUsual d) :
    ∃ m : Manifest, m.autoVerifyDomains = autoVerify ∧ m.webDomains = web := by
  have hauto : (LinkFilter.web true autoVerify.toList).domains = autoVerify.toList :=
    LinkFilter.domains_web fun d hd => hu d (hs d (Std.ExtTreeSet.mem_toList.mp hd))
  have hweb : (LinkFilter.web false web.toList).domains = web.toList :=
    LinkFilter.domains_web fun d hd => hu d (Std.ExtTreeSet.mem_toList.mp hd)
  refine ⟨{ package := "", filters := [.web true autoVerify.toList, .web false web.toList] },
    Std.ExtTreeSet.ext_mem fun d => ?_, Std.ExtTreeSet.ext_mem fun d => ?_⟩
  · simp [autoVerifyDomains, mem_collect, hauto, Std.ExtTreeSet.mem_toList]
  · simpa [webDomains, mem_collect, hauto, hweb, Std.ExtTreeSet.mem_toList] using hs d

/-- The manifest declares what all of some manifests declare, and nothing else. -/
structure CommonTo (m : Manifest) (ms : List Manifest) : Prop where
  autoVerify_iff : ∀ d : String, d ∈ m.autoVerifyDomains ↔ ∀ m' ∈ ms, d ∈ m'.autoVerifyDomains
  web_iff : ∀ d : String, d ∈ m.webDomains ↔ ∀ m' ∈ ms, d ∈ m'.webDomains

theorem exists_commonTo (h : ms ≠ []) : ∃ m : Manifest, m.CommonTo ms := by
  obtain ⟨m₀, rest, rfl⟩ := List.exists_cons_of_ne_nil h
  let common (declared : Manifest → Domains) : Domains :=
    (declared m₀).filter fun d => rest.all fun m' => (declared m').contains d
  have hc (declared : Manifest → Domains) (d : String) :
      d ∈ common declared ↔ ∀ m' ∈ m₀ :: rest, d ∈ declared m' := by
    simp [common]
  obtain ⟨m, hauto, hweb⟩ := exists_declares (common autoVerifyDomains) (common webDomains)
    (fun d hd => (hc _ d).mpr fun m' hm =>
      mem_webDomains_of_mem_autoVerifyDomains ((hc _ d).mp hd m' hm))
    fun d hd => isUsual_of_mem_collect ((hc _ d).mp hd m₀ List.mem_cons_self)
  exact ⟨m, fun d => hauto ▸ hc _ d, fun d => hweb ▸ hc _ d⟩

end Manifest
end LinkTrust
