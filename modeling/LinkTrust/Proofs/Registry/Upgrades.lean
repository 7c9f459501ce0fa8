import LinkTrust.Proofs.Registry.Approval

/-! # Upgrades of packages

An upgrade moves a package to another token and keeps of its record what may be carried. A package
that the registry does not know, or that cannot be resolved before and after, starts over. No other
package notices, unless the two installations have a token of another package.
-/

namespace LinkTrust

namespace Verdict

theorem IsCanonical.survivesUpgrade_iff {v : Verdict} (h : v.IsCanonical) :
    v.survivesUpgrade = true ↔ v = success ∨ v = restored ∨ v = migrated := by
  have hn : v.normalized = v := h
  rw [survivesUpgrade, hn]
  cases v <;> simp

end Verdict

namespace Roster

variable {α : Type} {r : Roster α} {name k : String} {old new t : Token} {value : α}

section Move

variable (hold : ∀ k, r.nameOf[old]? = some k → k = name)
  (hnew : new = old ∨ ∀ k, r.nameOf[new]? = some k → k = name)

include hold hnew

/-- If no other name has one of the tokens, an entry that moves from one to the other displaces no
entry of another name. -/
theorem byName_move : ((r.removeByToken old).2.enter name new value).byName[k]? =
    if k = name then some (new, value) else r.byName[k]? := by
  rw [byName_enter]
  split
  · rfl
  · rename_i hk
    have hn : (r.removeByToken old).2.nameOf[new]? ≠ some k := by
      rw [nameOf_removeByToken]
      split
      · simp
      · rename_i hne
        exact fun he => hk (hnew.resolve_left hne k he)
    rw [if_neg hn, byName_removeByToken, if_neg fun he => hk (hold k he)]

theorem Coherent.nameOf_move_iff (h : r.Coherent) (hk : k ≠ name) :
    ((r.removeByToken old).2.enter name new value).nameOf[t]? = some k ↔
      r.nameOf[t]? = some k := by
  have h' : ((r.removeByToken old).2.enter name new value).Coherent := h.removeByToken.enter
  rw [h' t k, h t k, byName_move hold hnew, if_neg hk]

end Move

/-- A token that an entry leaves behind stands for nothing. -/
theorem Coherent.nameOf_move_old (h : r.Coherent) (hne : old ≠ new) :
    ((r.removeByToken old).2.enter name new value).nameOf[old]? = none := by
  rw [nameOf_enter h.removeByToken, if_neg hne, nameOf_removeByToken, if_pos rfl]
  split <;> rfl

end Roster

namespace Record

variable {r : Record}

/-- What an upgrade to an installation with a manifest makes of a record: final verdicts of the
verifier, of a backup and of an older system are kept on the domains that are still to be verified,
unless the platform vouches for the package, and every user keeps the hosts that are still
declared. -/
structure CarriedOver (r : Record) (new : Installation) (m : Manifest) (linked : Bool)
    (r' : Record) : Prop where
  name_eq : r'.name = new.name
  token_eq : r'.token = new.token
  autoVerify_iff : r'.autoVerify = true ↔ m.autoVerifyDomains ≠ ∅
  verdict_iff_of_unlinked : linked = false → ∀ (d : String) (v : Verdict),
    r'.verdicts[d]? = some v ↔
      d ∈ m.autoVerifyDomains ∧ r.verdicts[d]? = some v ∧
        (v = .success ∨ v = .restored ∨ v = .migrated)
  verdict_iff_of_linked : linked = true → ∀ (d : String) (v : Verdict),
    r'.verdicts[d]? = some v ↔ d ∈ m.autoVerifyDomains ∧ v = .approved
  selection_eq : ∀ user : UserId, r'.selections[user]? =
    r.selections[user]?.map fun x => { x with hosts := x.hosts ∩ m.webDomains }

end Record

namespace Registry

variable {s : Registry} {r : Record} {old new : Installation} {m m₀ : Manifest}

theorem carriedOver_approve (h : r.Sound) : r.CarriedOver new m (s.platform.isLinked new.name)
    (s.approve (carriedRecord r new m) m.autoVerifyDomains) where
  name_eq := (standsUnder_approve (standsUnder_carriedRecord h) _).name_eq
  token_eq := (standsUnder_approve (standsUnder_carriedRecord h) _).token_eq
  autoVerify_iff := by
    rw [autoVerify_approve, carriedRecord, Bool.not_eq_true', Std.ExtTreeSet.isEmpty_eq_false_iff]
  verdict_iff_of_unlinked hl d v := by
    have hr : s.approve (carriedRecord r new m) m.autoVerifyDomains = carriedRecord r new m :=
      if_neg (by simpa [carriedRecord] using hl)
    rw [hr, carriedRecord, Upgrade.getElem?_carryVerdicts]
    constructor
    · rintro ⟨hv, hs, hd⟩
      exact ⟨hd, hv, (h.canonical d v hv).survivesUpgrade_iff.mp hs⟩
    · rintro ⟨hd, hv, hs⟩
      exact ⟨hv, (h.canonical d v hv).survivesUpgrade_iff.mpr hs, hd⟩
  verdict_iff_of_linked hl d v := by
    by_cases hd : d ∈ m.autoVerifyDomains
    · rw [approved_approve hl hd]
      simp [hd, eq_comm]
    · have hc : ¬(carriedRecord r new m).verdicts[d]? = some v :=
        fun hv => hd (Upgrade.getElem?_carryVerdicts.mp hv).2.2
      have hr : s.approve (carriedRecord r new m) m.autoVerifyDomains =
          (carriedRecord r new m).assign m.autoVerifyDomains .approved := if_pos hl
      simp [hr, Record.assign, hd, hc]
  selection_eq user := by
    have ha : (s.approve (carriedRecord r new m) m.autoVerifyDomains).selections =
        Upgrade.carrySelections r.selections m.webDomains := by
      unfold approve
      split <;> rfl
    rw [ha, Upgrade.carrySelections, Std.ExtTreeMap.getElem?_map]
    rfl

section Steps

theorem byName_migratePackage_of_carried (hs : s.stores.Sound)
    (hr : s.stores.attached.byName[new.name]? = some (old.token, r))
    (ho : old.manifest? = some m₀) (hm : new.manifest? = some m) :
    ∃ r' : Record, (s.migratePackage old new).registry.stores.attached.byName[new.name]? =
        some (new.token, r') ∧
      r.CarriedOver new m (s.platform.isLinked new.name) r' := by
  have hfound := hs.coherent.getByToken?_eq_some_iff.mpr ⟨_, hr⟩
  refine ⟨_, ?_, carriedOver_approve (hs.each.attached hr).sound⟩
  rw [migratePackage_of_found hfound ho hm]
  simp [Stores.withAttached, Roster.byName_enter]

theorem byName_migratePackage_of_missing
    (h : s.stores.attached.nameOf[old.token]? = none ∨ old.manifest? = none ∨
      new.manifest? = none) :
    (s.migratePackage old new).registry.stores.attached.byName[new.name]? =
      some (new.token, blankRecord new) := by
  refine byName_migratePackage_of_not_admits fun ha => ?_
  cases ha with
  | upgraded found resolvedOld resolved =>
    obtain ⟨n, hn, -⟩ := Roster.getByToken?_eq_some_iff.mp found
    simp [hn, resolvedOld, resolved] at h

end Steps

/-- After every row of calls, take an upgrade whose old token stands for no package but the upgraded
one, and whose new token, if it is another one, neither. If the old token does stand for it and both
manifests are there, its record is carried over to the new token; otherwise the package is attached
under the new token with neither verdicts nor selections. In either case an old token that differs
from the new one no longer stands for anything, and all other packages stay as they were, those that
wait included. -/
theorem upgrade_moves_what_may_be_carried (platform : Platform) (policy : Policy)
    (calls : List Call) (old new : Installation) :
    let s := (create platform policy).after calls
    let x := s.stores
    let y := (s.perform (.migratePackage old new)).registry.stores
    (x.attached.nameOf[old.token]? = none ∨ x.attached.nameOf[old.token]? = some new.name) →
    (new.token = old.token ∨
      ∀ k : String, x.attached.nameOf[new.token]? = some k → k = new.name) →
    (∀ m₀ m : Manifest, x.attached.nameOf[old.token]? = some new.name →
      old.manifest? = some m₀ → new.manifest? = some m →
      ∃ r r' : Record, x.attached.byName[new.name]? = some (old.token, r) ∧
        y.attached.byName[new.name]? = some (new.token, r') ∧
        r.CarriedOver new m (platform.isLinked new.name) r') ∧
    (x.attached.nameOf[old.token]? = none ∨ old.manifest? = none ∨ new.manifest? = none →
      ∃ r' : Record, y.attached.byName[new.name]? = some (new.token, r') ∧
        r'.name = new.name ∧ r'.token = new.token ∧ r'.verdicts = ∅ ∧ r'.selections = ∅) ∧
    y.attached.nameOf[new.token]? = some new.name ∧
    (old.token ≠ new.token → y.attached.nameOf[old.token]? = none) ∧
    (∀ k : String, k ≠ new.name → y.attached.byName[k]? = x.attached.byName[k]? ∧
      ∀ token : Token, y.attached.nameOf[token]? = some k ↔ x.attached.nameOf[token]? = some k) ∧
    y.pending = x.pending ∧ y.restored = x.restored := by
  intro s x y hold hnew
  have hs : x.Sound := sound_after (sound_create platform policy) calls
  have hp : s.platform = platform := platform_after calls
  have hold (k : String) (hk : x.attached.nameOf[old.token]? = some k) : k = new.name := by
    rcases hold with h | h
    · rw [h] at hk
      cases hk
    · exact Option.some.inj (hk.symm.trans h)
  have hmoved : ∃ r : Record, y = x.withAttached
      ((x.attached.removeByToken old.token).2.enter new.name new.token r) := by
    obtain ⟨r, hr, -⟩ := s.exists_stores_migratePackage old new
    exact ⟨r, hr⟩
  refine ⟨fun m₀ m hn ho hm => ?_, fun hmissing => ?_, ?_⟩
  · obtain ⟨r, hr⟩ := (hs.coherent _ _).mp hn
    obtain ⟨r', hr', hc⟩ := byName_migratePackage_of_carried hs hr ho hm
    rw [hp] at hc
    exact ⟨r, r', hr, hr', hc⟩
  · exact ⟨blankRecord new, byName_migratePackage_of_missing hmissing, rfl, rfl, rfl, rfl⟩
  · obtain ⟨r, hy⟩ := hmoved
    rw [hy]
    refine ⟨?_, hs.coherent.nameOf_move_old, fun k hk => ⟨?_, fun token => ?_⟩, rfl, rfl⟩
    · exact (Roster.nameOf_enter hs.coherent.removeByToken).trans (if_pos rfl)
    · exact (Roster.byName_move hold hnew).trans (if_neg hk)
    · exact hs.coherent.nameOf_move_iff hold hnew hk

/-- An upgrade of the sample package that declares one more domain. The verdict on the other one is
carried over to the new token, and a domain without a verdict is left without one. -/
theorem upgrade_moves_what_may_be_carried_sample :
    let s := (create .default .openToAll).after [.install .sample, .addPackage .sample]
    let m : Manifest := { package := "app", filters := [.web true ["a.org", "b.org"]] }
    let new : Installation := { name := "app", token? := some ⟨2⟩, manifest? := some m }
    let y := (s.perform (.migratePackage .sample new)).registry.stores
    s.stores.attached.nameOf[(⟨1⟩ : Token)]? = some "app" ∧
    s.stores.attached.nameOf[(⟨2⟩ : Token)]? = none ∧
    y.attached.nameOf[(⟨1⟩ : Token)]? = none ∧
    ∃ r' : Record, y.attached.byName["app"]? = some (⟨2⟩, r') ∧
      r'.verdicts["a.org"]? = some .migrated ∧ r'.verdicts["b.org"]? = none := by
  intro s m new y
  have hn : s.stores.attached.nameOf[(⟨1⟩ : Token)]? = some "app" := by decide +kernel
  have hf : s.stores.attached.nameOf[(⟨2⟩ : Token)]? = none := by decide +kernel
  have hv : (s.stores.attached.byName["app"]?.map fun p =>
      (p.2.verdicts["a.org"]?, p.2.verdicts["b.org"]?)) = some (some .migrated, none) := by
    decide +kernel
  obtain ⟨hcarried, -, -, hold, -⟩ := upgrade_moves_what_may_be_carried .default .openToAll
    [.install .sample, .addPackage .sample] .sample new (.inr hn)
    (.inr fun k hk => absurd (hf.symm.trans hk) nofun)
  obtain ⟨r, r', hr, hr', hc⟩ := hcarried _ m hn rfl rfl
  have hr : s.stores.attached.byName["app"]? = some (⟨1⟩, r) := hr
  simp only [hr, Option.map_some, Option.some.injEq, Prod.mk.injEq] at hv
  obtain ⟨ha, hb⟩ := hv
  have hkept := hc.verdict_iff_of_unlinked rfl
  refine ⟨hn, hf, hold (by decide), r', hr', (hkept _ _).mpr ⟨by decide +kernel, ha, by simp⟩, ?_⟩
  exact Option.eq_none_iff_forall_ne_some.mpr fun v hv =>
    absurd (hb.symm.trans ((hkept _ v).mp hv).2.1) nofun

end Registry
end LinkTrust
