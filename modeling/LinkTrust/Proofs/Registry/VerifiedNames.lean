import LinkTrust.Proofs.Registry.DeclaredVerdicts
import LinkTrust.Proofs.Registry.Resends
import LinkTrust.Proofs.Table

/-! # The list of packages to verify

Two questions about the same packages. The list trusts the flag that a package was given when it was
attached, and a verification set is taken from the manifest at the host. Their answers agree about
every package whose manifest is the one with which it was attached last, whatever documents have
said about its flag.
-/

namespace LinkTrust

namespace Stores

variable {s : Stores}

theorem Sound.increasing_names (h : s.Sound) :
    (s.attached.values.map (·.name)).Pairwise (· < ·) := by
  rw [h.map_name_values, ← Std.ExtTreeMap.map_fst_toList_eq_keys, List.pairwise_map]
  exact s.attached.increasing_toList

end Stores

namespace Registry

variable {s : Registry} {calls : List Call} {name : String} {r : Record} {m : Manifest}

/-- The names of the flagged packages. -/
def flaggedNames (s : Registry) : List String :=
  (s.stores.attached.values.filter (·.autoVerify)).map (·.name)

theorem result_verifiedNames (h : s.authorize .verifier = .ok ()) :
    (s.perform .verifiedNames).result = .names s.flaggedNames := by
  simp only [perform, verifiedNames, h]
  rfl

theorem increasing_flaggedNames (h : s.stores.Sound) : s.flaggedNames.Pairwise (· < ·) :=
  h.increasing_names.sublist (List.filter_sublist.map _)

theorem mem_flaggedNames_iff (h : s.stores.Sound) : name ∈ s.flaggedNames ↔ s.Flagged name :=
  h.mem_map_name_filter_iff

theorem Flagged.contains (h : s.Flagged name) : s.stores.attached.contains name = true := by
  obtain ⟨token, r, hr, -⟩ := h
  exact Roster.contains_iff.mpr ⟨token, r, hr⟩

/-- A package has a verification set if it asks for the verification of some domain. -/
theorem verificationSet_isSome_iff (ha : s.authorize .querent = .ok ())
    (hr : s.stores.attached.get? name = some r) (hm : s.host.manifest? name = some m) :
    (∃ v, (s.perform (.verificationSet name)).result = .verificationSet (some v)) ↔
      m.autoVerifyDomains ≠ ∅ := by
  rw [result_verificationSet ha hr hm, ne_eq, ← Std.ExtTreeSet.isEmpty_iff]
  split <;> simp [*]

/-- The flag of a package says what its manifest says, as long as this is the one with which the
package was attached last. -/
theorem UpToDate.flagged_iff (h : s.UpToDate calls) (hf : s.FitsLatest Installation.Flags calls)
    (hr : s.stores.attached.get? name = some r) (hm : s.host.manifest? name = some m) :
    s.Flagged name ↔ m.autoVerifyDomains ≠ ∅ := by
  obtain ⟨token, hb⟩ := Roster.get?_eq_some_iff.mp hr
  obtain ⟨i, hi, him⟩ := h.exists_latest (Roster.contains_iff.mpr ⟨token, r, hb⟩) hm
  rw [← hf.of_get? hr hi m him]
  simp [Flagged, hb]

/-- The list of packages to verify has the names of attached packages alone, in increasing order. As
long as the host has the manifests with which its packages were attached last, a package that can be
resolved is listed exactly if whoever may ask for its verification set gets one. -/
theorem verified_names_agree_with_sets (platform : Platform) (policy : Policy)
    (calls : List Call) :
    let s := (create platform policy).after calls
    s.authorize .verifier = .ok () →
    ∃ names : List String, (s.perform .verifiedNames).result = .names names ∧
      names.Pairwise (· < ·) ∧
      (∀ name ∈ names, s.stores.attached.contains name = true) ∧
      (s.UpToDate calls → ∀ (name : String) (m : Manifest) (caller : Caller),
        s.stores.attached.contains name = true → s.host.manifest? name = some m →
        (s.actingFor caller).authorize .querent = .ok () →
          (name ∈ names ↔ ∃ v : VerificationSet,
            ((s.actingFor caller).perform (.verificationSet name)).result =
              .verificationSet (some v))) := by
  intro s ha
  have hs : s.stores.Sound := sound_after (sound_create platform policy) calls
  have hf : s.FitsLatest Installation.Flags calls := fitsLatest_flags_after platform policy calls
  refine ⟨s.flaggedNames, result_verifiedNames ha, increasing_flaggedNames hs, fun name hn => ?_,
    fun hu name m caller hc hm hq => ?_⟩
  · exact ((mem_flaggedNames_iff hs).mp hn).contains
  · obtain ⟨token, r, hb⟩ := Roster.contains_iff.mp hc
    have hr : s.stores.attached.get? name = some r := Roster.get?_eq_some_iff.mpr ⟨token, hb⟩
    rw [mem_flaggedNames_iff hs, hu.flagged_iff hf hr hm,
      verificationSet_isSome_iff (s := s.actingFor caller) hq hr hm]

/-- One package whose entry on disk lacks the flag, and one that is upgraded although it was not
attached, to a version that asks for nothing. -/
theorem verified_names_agree_with_sets_sample :
    let m : Manifest := { package := "notes" }
    let notes : Installation := { name := "notes", token? := some ⟨2⟩, manifest? := some m }
    let calls : List Call := [.readState { bytes := ({ active := [.sample] } : Document).encode },
      .install .sample, .addPackage .sample, .migratePackage notes notes, .install notes]
    let s := (create .default .openToAll).after calls
    s.authorize .verifier = .ok () ∧ s.UpToDate calls ∧
    s.stores.attached.byName.keys = ["app", "notes"] ∧
    ∃ names : List String, (s.perform .verifiedNames).result = .names names ∧
      "app" ∈ names ∧ "notes" ∉ names := by
  intro m notes calls s
  have hs : s = Registry.after { create .default .openToAll with
      stores := ({} : Stores).read { active := [.sample] } } calls.tail := by
    rw [show s = _ from after_cons .., registry_readState_encode (d := { active := [.sample] })
      Entry.canonical_sample]
    rfl
  have ha : s.authorize .verifier = .ok () := authorize_eq_ok_iff.mpr (hs ▸ by decide +kernel)
  have hu : s.UpToDate calls := hs ▸ by decide +kernel
  have hk : s.stores.attached.byName.keys = ["app", "notes"] := hs ▸ by decide +kernel
  have hc {name : String} (hn : name ∈ ["app", "notes"]) :
      s.stores.attached.contains name = true :=
    Std.ExtTreeMap.contains_iff_mem.mpr (Std.ExtTreeMap.mem_keys.mp (hk ▸ hn))
  have hma : s.host.manifest? "app" = Installation.sample.manifest? := hs ▸ by decide +kernel
  have hmn : s.host.manifest? "notes" = some m := hs ▸ by decide +kernel
  have hq : (s.actingFor {}).authorize .querent = .ok () :=
    authorize_eq_ok_iff.mpr (hs ▸ by decide +kernel)
  obtain ⟨names, hl, -, -, hsets⟩ :=
    verified_names_agree_with_sets .default .openToAll calls ha
  have hagree {name : String} {m : Manifest} (hn : name ∈ ["app", "notes"])
      (hm : s.host.manifest? name = some m) : name ∈ names ↔ m.autoVerifyDomains ≠ ∅ := by
    obtain ⟨token, r, hr⟩ := Roster.contains_iff.mp (hc hn)
    rw [hsets hu name m {} (hc hn) hm hq]
    exact verificationSet_isSome_iff (s := s.actingFor {}) hq
      (Roster.get?_eq_some_iff.mpr ⟨token, hr⟩) hm
  refine ⟨ha, hu, hk, names, hl, (hagree (by simp) hma).mpr (by decide +kernel), ?_⟩
  rw [hagree (by simp) hmn]
  decide +kernel

/-- What is passed without a token is ignored. The package stays listed, but the manifest that was
passed last, which is also the one at the host, asks for no verification. -/
theorem ignored_addition_stays_listed :
    let quiet : Installation := { name := "app", manifest? := some { package := "app" } }
    let calls : List Call := [.addPackage .sample, .addPackage quiet, .install quiet]
    let s := (create .default .openToAll).after calls
    (calls.filterMap Call.arrival?).getLast? = some quiet ∧
    s.stores.attached.byName.keys = ["app"] ∧ s.host.manifest? "app" = quiet.manifest? ∧
    (s.perform .verifiedNames).result = .names ["app"] ∧
    (s.perform (.verificationSet "app")).result = .verificationSet none := by
  decide +kernel

end Registry
end LinkTrust
