import LinkTrust.Proofs.Manifest
import LinkTrust.Registry.Verification
import Mathlib.Tactic.MkIffOfInductiveProp

/-! # Presentations of a manifest

A manifest may be presented in many ways: its filters and their hosts stand in any order and any
number of times, schemes and hosts are in capital or small letters, and hosts have blanks around
them. What it declares is the same in all of them, and every declared domain is in one form.
-/

namespace LinkTrust

/-- The lists have the same items up to a relation, in any order and any number. -/
@[mk_iff]
structure SameItems {α β : Type} (R : α → β → Prop) (l : List α) (l' : List β) : Prop where
  right : ∀ a ∈ l, ∃ b ∈ l', R a b
  left : ∀ b ∈ l', ∃ a ∈ l, R a b

namespace SameItems

variable {α β γ : Type} {R : α → β → Prop} {l : List α} {l' : List β}

instance [∀ a b, Decidable (R a b)] : Decidable (SameItems R l l') :=
  decidable_of_iff _ (sameItems_iff ..).symm

theorem exists_iff (h : SameItems R l l') {P : α → Prop} {Q : β → Prop}
    (hR : ∀ a b, R a b → (P a ↔ Q b)) : (∃ a ∈ l, P a) ↔ ∃ b ∈ l', Q b := by
  constructor
  · rintro ⟨a, ha, hp⟩
    obtain ⟨b, hb, hr⟩ := h.right a ha
    exact ⟨b, hb, (hR a b hr).mp hp⟩
  · rintro ⟨b, hb, hq⟩
    obtain ⟨a, ha, hr⟩ := h.left b hb
    exact ⟨a, ha, (hR a b hr).mpr hq⟩

theorem forall_iff (h : SameItems R l l') {P : α → Prop} {Q : β → Prop}
    (hR : ∀ a b, R a b → (P a ↔ Q b)) : (∀ a ∈ l, P a) ↔ ∀ b ∈ l', Q b := by
  have hn := h.exists_iff fun a b hr => not_congr (hR a b hr)
  simpa only [not_exists, not_and, not_not] using not_congr hn

theorem eq_nil_iff (h : SameItems R l l') : l = [] ↔ l' = [] := by
  rw [List.eq_nil_iff_forall_not_mem, List.eq_nil_iff_forall_not_mem]
  exact h.forall_iff fun _ _ _ => Iff.rfl

theorem mem_map_iff (h : SameItems R l l') {f : α → γ} {g : β → γ}
    (hR : ∀ a b, R a b → f a = g b) (c : γ) : c ∈ l.map f ↔ c ∈ l'.map g := by
  rw [List.mem_map, List.mem_map]
  exact h.exists_iff fun a b hr => by rw [hR a b hr]

end SameItems

namespace Text

/-- The hosts are the same but for blanks around them and for the case of the letters A to Z. -/
def SameHost (h h' : String) : Prop :=
  ∃ core core' : List Char, Padded core h.toList ∧ Padded core' h'.toList ∧
    core.map Char.toLower = core'.map Char.toLower

/-- The form in which domains are compared: a text with no blanks around it and no capital
letters. -/
structure InForm (d : String) : Prop where
  ne_empty : d ≠ ""
  trimmed : IsTrimmed d.toList
  small : ∀ c ∈ d.toList, c.isUpper = false

end Text

namespace LinkFilter

variable {f f' : LinkFilter} {kind : DomainKind} {x y d : String}

/-- What is collected of a host, if it is not blank. -/
def form (host : String) : String := Text.lower (String.ofList (Text.trim host.toList))

/-- Whether the filter declares domains of a kind, if it is for web links. -/
def asks (f : LinkFilter) : DomainKind → Bool
  | .autoVerify => f.autoVerify
  | .web => true

theorem mem_domains : d ∈ f.domains ↔ d ∈ f.hosts.map form ∧ d ≠ "" := by
  rw [domains, List.mem_filter, decide_eq_true_eq]
  rfl

theorem toList_form (x : String) : (form x).toList = Text.trim (x.toList.map Char.toLower) := by
  rw [form, Text.lower, String.toList_ofList, String.toList_ofList, Text.trim_map_toLower]

/-- Hosts are collected alike if they are the same host, and no others are. -/
theorem form_eq_iff : form x = form y ↔ Text.SameHost x y := by
  rw [← String.toList_inj, toList_form, toList_form, Text.trim_map_toLower, Text.trim_map_toLower]
  constructor
  · exact fun h => ⟨_, _, Text.padded_trim _, Text.padded_trim _, h⟩
  · rintro ⟨core, core', hc, hc', he⟩
    rw [hc.trim_eq, hc'.trim_eq, ← Text.trim_map_toLower, ← Text.trim_map_toLower, he]

instance : DecidableRel Text.SameHost := fun _ _ => decidable_of_iff _ form_eq_iff

theorem form_form (x : String) : form (form x) = form x := by
  rw [← String.toList_inj, toList_form (form x), toList_form x, ← Text.trim_map_toLower,
    Text.trim_trim, Text.map_toLower_map_toLower]

theorem mem_domains_map_form :
    d ∈ { f with hosts := f.hosts.map form }.domains ↔ d ∈ f.domains := by
  have hf : (f.hosts.map form).map form = f.hosts.map form := by
    rw [List.map_map]
    exact List.map_congr_left fun x _ => form_form x
  rw [mem_domains, mem_domains, hf]

theorem mem_domains_domains : d ∈ { f with hosts := f.domains }.domains ↔ d ∈ f.domains := by
  have hf : f.domains.map form = f.domains := by
    have hu : ∀ d ∈ f.domains, form d = id d := fun d hd => (isUsual_of_mem_domains hd).2
    rw [List.map_congr_left hu, List.map_id]
  rw [mem_domains, hf]
  exact and_iff_left_of_imp fun hd => (isUsual_of_mem_domains hd).1

theorem IsUsual.inForm (h : IsUsual d) : Text.InForm d := by
  have hd : d.toList = Text.trim (d.toList.map Char.toLower) := by
    rw [← toList_form, show form d = d from h.2]
  refine ⟨h.1, ?_, fun c hc => ?_⟩
  · rw [hd]
    exact Text.isTrimmed_trim _
  · rw [hd, Text.trim_map_toLower] at hc
    obtain ⟨c, -, rfl⟩ := List.mem_map.mp hc
    exact Text.isUpper_toLower c

/-- The filter presents what another one does. -/
@[mk_iff]
structure Restates (f f' : LinkFilter) : Prop where
  autoVerify_eq : f.autoVerify = f'.autoVerify
  browsable_eq : f.browsable = f'.browsable
  schemes : SameItems (fun s s' => Text.lower s = Text.lower s') f.schemes f'.schemes
  hosts : SameItems Text.SameHost f.hosts f'.hosts

instance : DecidableRel LinkFilter.Restates := fun _ _ => decidable_of_iff _ (restates_iff ..).symm

theorem Restates.handlesWeb_eq (h : f.Restates f') : f.handlesWeb = f'.handlesWeb := by
  have he : f.schemes.isEmpty = f'.schemes.isEmpty := by
    rw [Bool.eq_iff_iff, List.isEmpty_iff, List.isEmpty_iff, h.schemes.eq_nil_iff]
  have ha : (f.schemes.all fun s => Text.lower s = "http" || Text.lower s = "https") =
      f'.schemes.all fun s => Text.lower s = "http" || Text.lower s = "https" := by
    rw [Bool.eq_iff_iff, List.all_eq_true, List.all_eq_true]
    exact h.schemes.forall_iff fun s s' hs => by rw [hs]
  rw [handlesWeb, handlesWeb, h.browsable_eq, he, ha]

theorem Restates.asks_eq (h : f.Restates f') (kind : DomainKind) : f.asks kind = f'.asks kind := by
  cases kind with
  | autoVerify => exact h.autoVerify_eq
  | web => rfl

theorem Restates.mem_domains_iff (h : f.Restates f') : d ∈ f.domains ↔ d ∈ f'.domains := by
  rw [mem_domains, mem_domains, h.hosts.mem_map_iff fun _ _ => form_eq_iff.mpr]

end LinkFilter

namespace Manifest

variable {m m' : Manifest} {kind : DomainKind} {d : String} {hosts : LinkFilter → List String}

/-- The manifest presents what another one does. -/
def Restates (m m' : Manifest) : Prop := SameItems LinkFilter.Restates m.filters m'.filters

instance : DecidableRel Manifest.Restates :=
  fun m m' => inferInstanceAs (Decidable (SameItems LinkFilter.Restates m.filters m'.filters))

/-- The manifest with other hosts in its filters. -/
def withHosts (m : Manifest) (hosts : LinkFilter → List String) : Manifest :=
  { m with filters := m.filters.map fun f => { f with hosts := hosts f } }

theorem mem_declared : d ∈ m.declared kind ↔
    ∃ f ∈ m.filters, f.handlesWeb = true ∧ f.asks kind = true ∧ d ∈ f.domains := by
  cases kind with
  | autoVerify => exact mem_collect
  | web => exact mem_collect

theorem declared_eq_of_restates (h : m.Restates m') (kind : DomainKind) :
    m.declared kind = m'.declared kind := by
  ext d
  rw [mem_declared, mem_declared]
  exact h.exists_iff fun f f' hf => by rw [hf.handlesWeb_eq, hf.asks_eq, hf.mem_domains_iff]

theorem declared_withHosts
    (h : ∀ (f : LinkFilter) (d : String), d ∈ { f with hosts := hosts f }.domains ↔ d ∈ f.domains)
    (m : Manifest) (kind : DomainKind) : (m.withHosts hosts).declared kind = m.declared kind := by
  have hkind (f : LinkFilter) : { f with hosts := hosts f }.asks kind = f.asks kind := by
    cases kind <;> rfl
  ext d
  simp only [mem_declared, withHosts, List.mem_map, exists_exists_and_eq_and, h, hkind,
    LinkFilter.handlesWeb]

theorem isUsual_of_mem_declared (h : d ∈ m.declared kind) : LinkFilter.IsUsual d := by
  cases kind with
  | autoVerify => exact isUsual_of_mem_collect h
  | web => exact isUsual_of_mem_collect h

/-- Every declared domain is in the form in which domains are compared, and the domains to be
verified are web domains. However a manifest is presented, and also with its hosts in the form in
which they are collected, it declares the same domains. They are those that its filters declare
alone, so that more filters take none away. -/
theorem declared_domains_of_presentations (m : Manifest) (kind : DomainKind) :
    (∀ d ∈ m.declared kind, Text.InForm d) ∧
    (∀ d ∈ m.declared .autoVerify, d ∈ m.declared .web) ∧
    (∀ m' : Manifest, m.Restates m' → m.declared kind = m'.declared kind) ∧
    (m.withHosts fun f => f.hosts.map LinkFilter.form).declared kind = m.declared kind ∧
    (m.withHosts LinkFilter.domains).declared kind = m.declared kind ∧
    (∀ d : String, d ∈ m.declared kind ↔
      ∃ f ∈ m.filters, d ∈ { m with filters := [f] }.declared kind) ∧
    ∀ more : List LinkFilter, ∀ d ∈ m.declared kind,
      d ∈ { m with filters := m.filters ++ more }.declared kind := by
  refine ⟨fun d hd => (isUsual_of_mem_declared hd).inForm,
    fun d => mem_webDomains_of_mem_autoVerifyDomains, fun m' h => declared_eq_of_restates h kind,
    declared_withHosts (fun f d => LinkFilter.mem_domains_map_form) m kind,
    declared_withHosts (fun f d => LinkFilter.mem_domains_domains) m kind, fun d => ?_,
    fun more d hd => ?_⟩
  · simp only [mem_declared, List.mem_singleton, exists_eq_left]
  · obtain ⟨f, hf, h⟩ := mem_declared.mp hd
    exact mem_declared.mpr ⟨f, List.mem_append_left more hf, h⟩

/-- A manifest that lists every host once. -/
def plain : Manifest where
  package := "app"
  filters := [.web true ["a.org", "b.org"], .web false ["c.org"]]

/-- The same manifest with its filters in another order, one of them twice, and with its hosts and
schemes in other letters. -/
def ornate : Manifest where
  package := "app"
  filters := [.web false [" C.org"], .web false ["c.org", "C.ORG "],
    { autoVerify := true, browsable := true, schemes := ["HTTPS", "Http", "https"]
      hosts := ["\tB.Org", "A.ORG", "b.org"] }]

theorem declared_domains_of_presentations_ornate : plain.Restates ornate ∧
    plain.declared .autoVerify = ornate.declared .autoVerify ∧
    "b.org" ∈ plain.declared .autoVerify := by
  have h : plain.Restates ornate := by decide +kernel
  exact ⟨h, (declared_domains_of_presentations plain .autoVerify).2.2.1 ornate h,
    by decide +kernel⟩

end Manifest
end LinkTrust
