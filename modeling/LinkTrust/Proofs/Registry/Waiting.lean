import LinkTrust.Proofs.Document.Codec
import LinkTrust.Proofs.Registry.Coherence
import LinkTrust.Proofs.Registry.Runs

/-! # Records that wait for attached packages

A package that is added takes whatever waits for it, and from then on nothing is made to wait for it
but by two calls. An upgrade attaches its package beside the records that wait for it, and a
document that is read files its restored entries whether or not their packages are attached. A row
of calls keeps attached packages free of waiting records exactly if it has no such call.
-/

namespace LinkTrust

/-- An entry for concrete documents. Its domain was verified. -/
def Entry.sample : Entry where
  name := "app"
  token := ⟨1⟩
  verdicts := .ofList [("a.org", Verdict.success)]

theorem Entry.canonical_sample : ∀ e ∈ [Entry.sample], e.verdicts.Canonical := by
  intro e he d v hv
  obtain rfl := List.mem_singleton.mp he
  obtain ⟨-, rfl⟩ := Prod.mk.inj (List.mem_singleton.mp (Collections.mem_of_getElem?_ofList hv))
  rfl

namespace Stores

variable {s : Stores} {d : Document} {e : Record} {name : String}

/-- No record waits for the package. -/
structure Unawaited (s : Stores) (name : String) : Prop where
  pending : s.pending[name]? = none
  restored : s.restored[name]? = none

theorem unawaited_settle (s : Stores) (name : String) : (s.settle name).Unawaited name := by
  constructor <;> simp [settle]

/-- A package starts fresh exactly if no record waits for it. -/
theorem origin_eq_fresh_iff : s.origin name = .fresh ↔ s.Unawaited name := by
  constructor
  · intro h
    unfold origin at h
    split at h
    · cases h
    · cases h
    · exact ⟨‹_›, ‹_›⟩
  · intro h
    simp only [origin, h.pending, h.restored]

section Documents

theorem contains_read (s : Stores) (d : Document) (name : String) :
    (s.read d).attached.contains name = s.attached.contains name :=
  attached_read (P := fun a => a.contains name = s.attached.contains name) rfl
    fun _ _ _ ha => Roster.contains_modify.trans ha

theorem contains_restore (s : Stores) (d : Document) (name : String) :
    (s.restore d).attached.contains name = s.attached.contains name :=
  attached_restore (P := fun a => a.contains name = s.attached.contains name) rfl
    fun _ _ _ ha => Roster.contains_modify.trans ha

theorem getElem?_modify_of_ne {w : Waiting} {n : String} {f : Record → Record} (h : n ≠ name) :
    (w.modify n f)[name]? = w[name]? := by
  simp [Std.ExtTreeMap.getElem?_modify, h]

theorem getElem?_insert_of_ne {w : Waiting} {n : String} (h : n ≠ name) :
    (w.insert n e)[name]? = w[name]? := by
  simp [Std.ExtTreeMap.getElem?_insert, h]

/-- Active entries never come to wait for an attached package. -/
theorem pending_readActive (ha : s.attached.contains name = true) :
    (s.readActive e).pending[name]? = s.pending[name]? := by
  rcases readActive_cases s e with ⟨-, he | he⟩ | ⟨hn, he⟩
  · rw [he]
  · rw [he]; rfl
  · have hne : e.name ≠ name := by
      rintro rfl
      simp [ha] at hn
    rw [he]
    exact getElem?_insert_of_ne hne

theorem contains_readActive :
    (s.readActive e).attached.contains name = s.attached.contains name := by
  rcases readActive_cases s e with ⟨-, he | he⟩ | ⟨-, he⟩
  · rw [he]
  · rw [he]; exact Roster.contains_modify
  · rw [he]

theorem pending_read (ha : s.attached.contains name = true) :
    (s.read d).pending[name]? = s.pending[name]? := by
  have h : (s.read d).attached.contains name = true ∧
      (s.read d).pending[name]? = s.pending[name]? := by
    refine read_induction (P := fun t => t.attached.contains name = true ∧
      t.pending[name]? = s.pending[name]?) ⟨ha, rfl⟩ ?_ fun _ _ _ ht => ht
    rintro t e - ⟨hc, hp⟩
    exact ⟨contains_readActive.trans hc, (pending_readActive hc).trans hp⟩
  exact h.2

theorem restored_readActive : (s.readActive e).restored = s.restored := by
  rcases readActive_cases s e with ⟨-, he | he⟩ | ⟨-, he⟩ <;> rw [he]
  rfl

theorem restored_foldl_readActive (l : List Record) :
    (l.foldl readActive s).restored = s.restored := by
  induction l generalizing s with
  | nil => rfl
  | cons e l ih => exact ih.trans restored_readActive

theorem restored_foldl_readRestored (l : List Record) :
    (l.foldl readRestored s).restored[name]? = none ↔
      s.restored[name]? = none ∧ ∀ e ∈ l, e.name ≠ name := by
  induction l generalizing s with
  | nil => simp
  | cons e l ih =>
    rw [List.foldl_cons, ih, readRestored, List.forall_mem_cons]
    by_cases he : e.name = name
    · simp [he]
    · simp [he]

/-- Restored entries wait for their packages, attached or not. -/
theorem restored_read : (s.read d).restored[name]? = none ↔
    s.restored[name]? = none ∧ ∀ e ∈ d.restored, e.name ≠ name := by
  rw [read, restored_foldl_readRestored, restored_foldl_readActive, List.forall_mem_map]
  rfl

/-- A backup joins what is attached, and leaves alone what waits for an attached package. -/
theorem waiting_restore (ha : s.attached.contains name = true) :
    (s.restore d).pending[name]? = s.pending[name]? ∧
      (s.restore d).restored[name]? = s.restored[name]? := by
  have h : (s.restore d).attached.contains name = true ∧
      (s.restore d).pending[name]? = s.pending[name]? ∧
      (s.restore d).restored[name]? = s.restored[name]? := by
    refine restore_induction (P := fun t => t.attached.contains name = true ∧
      t.pending[name]? = s.pending[name]? ∧ t.restored[name]? = s.restored[name]?) ⟨ha, rfl, rfl⟩ ?_
    rintro t e - ⟨hc, hp, hr⟩
    rcases restoreRecord_cases t e.record with he | ⟨hn, he⟩
    · rw [he]
      exact ⟨Roster.contains_modify.trans hc, hp, hr⟩
    · have hne : e.record.name ≠ name := by
        rintro rfl
        simp [hc] at hn
      rcases he with he | he | he <;> rw [he]
      · exact ⟨hc, (getElem?_modify_of_ne hne).trans hp, hr⟩
      · exact ⟨hc, hp, (getElem?_modify_of_ne hne).trans hr⟩
      · exact ⟨hc, hp, (getElem?_insert_of_ne hne).trans hr⟩
  exact h.2

end Documents

end Stores

namespace Registry

variable {s : Registry} {call : Call} {x : Stores} {d : Document} {name : String}

/-- What stands in a text that was written is read into the stores as it is. -/
theorem registry_readState_encode (h : ∀ e ∈ d.entries, e.verdicts.Canonical) :
    (s.perform (.readState { bytes := d.encode })).registry =
      { s with stores := s.stores.read d } := by
  rw [perform, registry_map, registry_readState (Document.readFrom_encode h)]

theorem registry_restoreState_encode (h : ∀ e ∈ d.entries, e.verdicts.Canonical) :
    (s.perform (.restoreState { bytes := d.encode })).registry =
      { s with stores := s.stores.restore d }.scheduleWrite := by
  rw [perform, registry_map, restoreState, Document.readFrom_encode h]

section Effects

/-- A call that attaches a package settles what waits for it, or is an upgrade. -/
theorem Effect.attached_cases (he : s.Effect call x) (hx : x.attached.contains name = true) :
    s.stores.attached.contains name = true ∨ x.Unawaited name ∨
      ∃ old new : Installation, call = .migratePackage old new ∧ new.name = name ∧
        x.pending = s.stores.pending ∧ x.restored = s.stores.restored := by
  -- Both kinds of upgrade enter a record, so they attach the new name and no other.
  have upgrade {old new : Installation} {r : Record}
      (hc : ((s.stores.attached.removeByToken old.token).2.enter new.name new.token r).contains
        name = true) : s.stores.attached.contains name = true ∨ new.name = name := by
    by_cases hn : new.name = name
    · exact .inr hn
    · exact .inl (Roster.contains_of_removeByToken (Roster.contains_of_enter hc (Ne.symm hn)))
  cases he with
  | idle => exact .inl hx
  | @added i =>
    by_cases hn : i.name = name
    · subst hn
      have hw := s.stores.unawaited_settle i.name
      exact .inr (.inl ⟨hw.pending, hw.restored⟩)
    · exact .inl (Roster.contains_of_enter hx (Ne.symm hn))
  | @upgraded old new =>
    rcases upgrade hx with h | hn
    · exact .inl h
    · exact .inr (.inr ⟨old, new, rfl, hn, rfl, rfl⟩)
  | @restarted old new =>
    rcases upgrade hx with h | hn
    · exact .inl h
    · exact .inr (.inr ⟨old, new, rfl, hn, rfl, rfl⟩)
  | removed => exact .inl (Roster.contains_of_remove hx)
  | userRemoved => exact .inl (Roster.contains_mapValues.symm.trans hx)
  | read => exact .inl ((Stores.contains_read ..).symm.trans hx)
  | restored => exact .inl ((Stores.contains_restore ..).symm.trans hx)
  | reported => exact .inl (Roster.contains_modifyByToken.symm.trans hx)
  | linkHandlingSet => exact .inl (Roster.contains_modify.symm.trans hx)
  | selected => exact .inl (Roster.contains_modifyByToken.symm.trans hx)

/-- No call makes an active entry wait for an attached package. -/
theorem Effect.pending_eq_none (he : s.Effect call x)
    (ha : s.stores.attached.contains name = true) (hp : s.stores.pending[name]? = none) :
    x.pending[name]? = none := by
  cases he with
  | added => rw [Stores.pending_attach_settle, hp, ite_self]
  | userRemoved =>
    simp [Stores.removeUser, Stores.removeWaitingUser, hp]
  | read => exact (Stores.pending_read ha).trans hp
  | restored => exact (Stores.waiting_restore ha).1.trans hp
  | _ => exact hp

theorem Effect.restored_eq_none (he : s.Effect call x)
    (ha : s.stores.attached.contains name = true) (hr : s.stores.restored[name]? = none)
    (hd : ∀ source d, call = .readState source → Document.readFrom source = .ok d →
      ∀ e ∈ d.restored, e.name ≠ name) : x.restored[name]? = none := by
  cases he with
  | added => rw [Stores.restored_attach_settle, hr, ite_self]
  | userRemoved =>
    simp [Stores.removeUser, Stores.removeWaitingUser, hr]
  | @read source d decoded => exact Stores.restored_read.mpr ⟨hr, hd source d rfl decoded⟩
  | restored => exact (Stores.waiting_restore ha).2.trans hr
  | _ => exact hr

end Effects

/-- The call leaves a record behind for the package, which it attaches or finds attached. -/
inductive Strands (s : Registry) (name : String) : Call → Prop where
  | upgraded {old new : Installation} (name_eq : new.name = name)
      (awaited : ¬s.stores.Unawaited name) : Strands s name (.migratePackage old new)
  | read {source : Source} {d : Document} (decoded : Document.readFrom source = .ok d)
      (attached : s.stores.attached.contains name = true)
      (listed : ∃ e ∈ d.restored, e.name = name) : Strands s name (.readState source)

/-- If the package is attached, no record waits for it. -/
def Clear (s : Registry) (name : String) : Prop :=
  s.stores.attached.contains name = true → s.stores.Unawaited name

theorem clear_perform_iff (h : s.Clear name) :
    (s.perform call).registry.Clear name ↔ ¬s.Strands name call := by
  constructor
  · intro hc hs
    cases hs with
    | @upgraded old new name_eq awaited =>
      obtain ⟨r, hr, -⟩ := exists_stores_migratePackage (s := s) old new
      rw [Clear, perform, registry_map, hr] at hc
      have hw := hc (name_eq ▸ Roster.contains_enter_self)
      exact awaited ⟨hw.pending, hw.restored⟩
    | @read source d decoded attached listed =>
      rw [Clear, perform, registry_map, registry_readState decoded, Stores.contains_read] at hc
      obtain ⟨e, he, hn⟩ := listed
      exact (Stores.restored_read.mp (hc attached).restored).2 e he hn
  · intro hs hx
    have he := effect_perform (s := s) call
    rcases he.attached_cases hx with ha | hw | ⟨old, new, rfl, hn, hp, hr⟩
    · have hw := h ha
      refine ⟨he.pending_eq_none ha hw.pending, he.restored_eq_none ha hw.restored ?_⟩
      rintro source d rfl decoded e hm hn
      exact hs (.read decoded ha ⟨e, hm, hn⟩)
    · exact hw
    · have hw : s.stores.Unawaited name :=
        Classical.byContradiction fun hw => hs (.upgraded hn hw)
      exact ⟨hp ▸ hw.pending, hr ▸ hw.restored⟩

/-- In a row of calls no record ever waits for an attached package of some name, exactly if no call
leaves one behind. -/
theorem always_clear_iff (h : s.Clear name) (calls : List Call) :
    s.Always calls (Clear · name) ↔ s.Throughout calls fun s call => ¬s.Strands name call :=
  always_iff_throughout h fun _ _ h => clear_perform_iff h

end Registry
end LinkTrust
