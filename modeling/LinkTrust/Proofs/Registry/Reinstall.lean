import LinkTrust.Proofs.Registry.Waiting

/-! # Packages that are installed again

A package that is removed and added again has nothing but what the platform and its own old
preferences give it, and the agent is asked about it, if no record waits for it. So all attached
packages of a name can be installed afresh exactly if no call leaves a record behind for the name.
-/

namespace LinkTrust

theorem Installation.mem_usersAlways {i : Installation} {u : UserId} :
    u ∈ i.usersAlways ↔ i.preferences[u]? = some .always := by
  rw [usersAlways, Std.ExtTreeMap.mem_keys, Std.ExtTreeMap.mem_iff_isSome_getElem?,
    Std.ExtTreeMap.getElem?_filter', Option.isSome_filter]
  cases i.preferences[u]? <;> simp

namespace Registry

variable {s : Registry} {i : Installation} {name : String}

/-- The verdict with which a fresh package starts: the approval of the platform, or else that from
before verification existed. -/
def freshVerdict? (p : Platform) (i : Installation) (domain : String) : Option Verdict :=
  if domain ∈ i.autoVerifyDomains then
    if p.isLinked i.name = true then some .approved
    else if i.isAlwaysApproved = true then some .migrated else none
  else none

/-- The selection with which a fresh package starts: if the platform does not vouch for it, users
who always opened its links still do. -/
def freshSelection? (p : Platform) (i : Installation) (user : UserId) : Option Selection :=
  if p.isLinked i.name = false ∧ i.preferences[user]? = some .always then
    some { user, hosts := i.webDomains }
  else none

section Packages

theorem getElem?_selections_adoptPreferences (r : Record) (i : Installation) (u : UserId) :
    (adoptPreferences r i).selections[u]? =
      if i.preferences[u]? = some .always then some ((r.selection u).enable i.webDomains)
      else r.selections[u]? := by
  simp only [← Installation.mem_usersAlways]
  rw [← Record.getElem?_foldl_select_enable]
  unfold adoptPreferences
  simp only
  split <;> rfl

variable (h : s.stores.Unawaited i.name)

include h

theorem startingRecord_of_unawaited :
    s.startingRecord i = .blank i.name i.token !i.autoVerifyDomains.isEmpty := by
  simp only [startingRecord, Stores.origin_eq_fresh_iff.mpr h, Origin.record?]

/-- The record of a fresh package is approved by the platform, or else by its old preferences. -/
theorem attachedRecord_of_unawaited : s.attachedRecord i =
    if s.platform.isLinked i.name = true then
      (Record.blank i.name i.token !i.autoVerifyDomains.isEmpty).assign i.autoVerifyDomains
        .approved
    else adoptPreferences (.blank i.name i.token !i.autoVerifyDomains.isEmpty) i := by
  have hn : (Record.blank i.name i.token !i.autoVerifyDomains.isEmpty).name = i.name := rfl
  simp only [attachedRecord, startingRecord_of_unawaited h, Stores.origin_eq_fresh_iff.mpr h,
    Origin.isFresh, approve, hn]
  cases s.platform.isLinked i.name <;> rfl

theorem getElem?_verdicts_attachedRecord (d : String) :
    (s.attachedRecord i).verdicts[d]? = freshVerdict? s.platform i d := by
  rw [attachedRecord_of_unawaited h, freshVerdict?]
  split
  · simp [Record.assign, Record.blank]
  · rw [verdicts_adoptPreferences]
    split <;> simp [Record.blank]

theorem getElem?_selections_attachedRecord (u : UserId) :
    (s.attachedRecord i).selections[u]? = freshSelection? s.platform i u := by
  rw [attachedRecord_of_unawaited h, freshSelection?]
  split
  · rename_i hl
    simp [hl, Record.assign, Record.blank]
  · rename_i hl
    have hs : (Record.blank i.name i.token !i.autoVerifyDomains.isEmpty).selection u =
        .empty u := by simp [Record.selection, Record.blank]
    rw [getElem?_selections_adoptPreferences, hs, Selection.enable_empty]
    simp [hl, Record.blank]

theorem isAskedAbout_of_unawaited : s.isAskedAbout i =
    (!i.autoVerifyDomains.isEmpty && !s.platform.isLinked i.name) := by
  simp [isAskedAbout, startingRecord_of_unawaited h, Stores.origin_eq_fresh_iff.mpr h,
    Origin.isFresh, Record.blank]

end Packages

/-- If the package is removed and added again, it starts fresh. It has the verdicts and selections
of a fresh package and no others, and the agent is asked about it if the platform does not vouch for
it and there is anything to verify. -/
structure ReinstallsFresh (s : Registry) (i : Installation) : Prop where
  origin_eq : (s.perform (.removePackage i.name)).registry.stores.origin i.name = .fresh
  record : ∃ r : Record,
    (s.after [.removePackage i.name, .addPackage i]).stores.attached.byName[i.name]? =
      some (i.token, r) ∧
    (∀ d : String, r.verdicts[d]? = freshVerdict? s.platform i d) ∧
    ∀ u : UserId, r.selections[u]? = freshSelection? s.platform i u
  agent_eq : (s.after [.removePackage i.name, .addPackage i]).agent =
    if s.platform.isLinked i.name = false ∧ i.autoVerifyDomains.isEmpty = false then
      s.agent.send (.ofList [i.name])
    else s.agent

theorem stores_removePackage (s : Registry) (name : String) :
    (s.perform (.removePackage name)).registry.stores =
      s.stores.withAttached (s.stores.attached.remove name).2 := by
  rw [perform, registry_map, removePackage, stores_conclude, stores_mapAttached]

theorem unawaited_removePackage :
    (s.perform (.removePackage name)).registry.stores.Unawaited name ↔ s.stores.Unawaited name := by
  rw [stores_removePackage]
  exact ⟨fun h => ⟨h.pending, h.restored⟩, fun h => ⟨h.pending, h.restored⟩⟩

/-- A package starts fresh when it is installed again exactly if no record waits for it before it is
removed. -/
theorem reinstallsFresh_iff (hi : i.token.isNil = false) :
    s.ReinstallsFresh i ↔ s.stores.Unawaited i.name := by
  have hp : (s.perform (.removePackage i.name)).registry.platform = s.platform :=
    platform_perform _
  have ha : (s.perform (.removePackage i.name)).registry.agent = s.agent := rfl
  -- From here on only the state between the two calls matters: what waits there waited before.
  rw [← unawaited_removePackage]
  generalize ht : (s.perform (.removePackage i.name)).registry = t at hp ha ⊢
  have hadd : s.after [.removePackage i.name, .addPackage i] =
      (t.addPackage i).registry := by
    rw [after_cons, ht]
    rfl
  constructor
  · rintro ⟨ho, -, -⟩
    exact Stores.origin_eq_fresh_iff.mp (ht ▸ ho)
  · intro hw
    rw [addPackage_of_nonnil hi] at hadd
    refine ⟨ht ▸ Stores.origin_eq_fresh_iff.mpr hw, ⟨t.attachedRecord i, ?_, ?_, ?_⟩, ?_⟩
    · rw [hadd, stores_conclude]
      simp [Stores.attach, Roster.byName_enter]
    · intro d
      rw [getElem?_verdicts_attachedRecord hw, hp]
    · intro u
      rw [getElem?_selections_attachedRecord hw, hp]
    · rw [hadd, agent_conclude, isAskedAbout_of_unawaited hw, ← hp, ← ha]
      by_cases hl : t.platform.isLinked i.name = true
      · simp [hl]
      · cases he : i.autoVerifyDomains.isEmpty <;> simp [hl]

theorem clear_iff_reinstallsFresh : s.Clear name ↔
    (s.stores.attached.contains name = true →
      ∀ i : Installation, i.name = name → i.token.isNil = false → s.ReinstallsFresh i) := by
  constructor
  · rintro h ha i rfl hi
    exact (reinstallsFresh_iff hi).mpr (h ha)
  · intro h ha
    exact (reinstallsFresh_iff (i := { name, token? := some ⟨1⟩ }) rfl).mp (h ha _ rfl rfl)

/-- All along a row of calls a package of some name that is attached starts fresh when it is removed
and added again, exactly if no call leaves a record behind for the name: neither is it upgraded
while a record waits for it, nor is a restored entry of it read while it is attached. -/
theorem reinstall_starts_fresh_iff (platform : Platform) (policy : Policy) (calls : List Call)
    (name : String) :
    ((create platform policy).Always calls fun s => s.stores.attached.contains name = true →
      ∀ i : Installation, i.name = name → i.token.isNil = false → s.ReinstallsFresh i) ↔
    (create platform policy).Throughout calls fun s call => ¬s.Strands name call := by
  have hc : (create platform policy).Clear name := by
    intro ha
    simp [create, Roster.contains] at ha
  rw [← always_clear_iff hc]
  simp only [Always, clear_iff_reinstallsFresh]

/-- A restored entry that is read while its package is attached outlives the removal. -/
theorem restored_entry_outlives_removal :
    let s := (create .default .openToAll).after
      [.addPackage .sample, .readState { bytes := ({ restored := [.sample] } : Document).encode }]
    s.stores.attached.contains "app" = true ∧
      ((s.after [.removePackage "app", .addPackage .sample]).stores.attached.get? "app").bind
        (·.verdicts["a.org"]?) = some .success := by
  have hread (s : Registry) := registry_readState_encode (s := s)
    (d := { restored := [.sample] }) Entry.canonical_sample
  simp only [after_cons, after_nil, hread]
  constructor
  · decide +kernel
  · decide +kernel

end Registry
end LinkTrust
