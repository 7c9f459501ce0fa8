import LinkTrust.Proofs.Roster
import LinkTrust.Stores

/-! # What holds of every record

A property of records that every change respects holds of all records in the stores. Attached
records are seen with their name and token, records that wait with the name of their package. A
document reaches the attached records only by merges.
-/

namespace LinkTrust.Stores

variable {s : Stores} {d : Document} {name : String} {token : Token} {r e : Record}
  {A : String → Token → Record → Prop} {W : String → Record → Prop} {f : Record → Record}

/-- Replaces the attached records. -/
def withAttached (s : Stores) (attached : Roster Record) : Stores := { s with attached }

/-- Some store holds the record under the name. -/
def Holds (s : Stores) (name : String) (r : Record) : Prop :=
  s.attached.get? name = some r ∨ s.pending[name]? = some r ∨ s.restored[name]? = some r

/-- `A` holds of every attached record and `W` of every record that waits. -/
structure Each (A : String → Token → Record → Prop) (W : String → Record → Prop)
    (s : Stores) : Prop where
  attached : ∀ {n : String} {t : Token} {r : Record}, s.attached.byName[n]? = some (t, r) → A n t r
  pending : ∀ {n : String} {r : Record}, s.pending[n]? = some r → W n r
  restored : ∀ {n : String} {r : Record}, s.restored[n]? = some r → W n r

theorem record?_origin : (s.origin name).record? = s.pending[name]?.or s.restored[name]? := by
  unfold origin
  cases s.pending[name]? <;> cases s.restored[name]? <;> rfl

section Additions

variable {k : String}

theorem byName_attach_settle : ((s.settle name).attach name token r).attached.byName[k]? =
    if k = name then some (token, r)
    else if s.attached.nameOf[token]? = some k then none else s.attached.byName[k]? :=
  Roster.byName_enter

theorem pending_attach_settle : ((s.settle name).attach name token r).pending[k]? =
    if name = k then none else s.pending[k]? := by
  simp [attach, settle, Std.ExtTreeMap.getElem?_erase]

theorem restored_attach_settle : ((s.settle name).attach name token r).restored[k]? =
    if name = k then none else s.restored[k]? := by
  simp [attach, settle, Std.ExtTreeMap.getElem?_erase]

end Additions

section Attached

theorem Each.holds {P : String → Record → Prop} (h : Each (fun n _ r => P n r) P s)
    (hr : s.Holds name r) : P name r := by
  rcases hr with hr | hr | hr
  · obtain ⟨t, ht⟩ := Roster.get?_eq_some_iff.mp hr
    exact h.attached ht
  · exact h.pending hr
  · exact h.restored hr

theorem Each.withAttached (h : s.Each A W) {attached : Roster Record}
    (ha : ∀ {n : String} {t : Token} {r : Record}, attached.byName[n]? = some (t, r) → A n t r) :
    (s.withAttached attached).Each A W :=
  ⟨ha, h.pending, h.restored⟩

theorem Each.enter (h : s.Each A W) (hr : A name token r) :
    (s.withAttached (s.attached.enter name token r)).Each A W := by
  refine h.withAttached fun {n t r'} hn => ?_
  by_cases hname : n = name
  · subst hname
    rw [Roster.byName_enter, if_pos rfl] at hn
    cases hn
    exact hr
  · exact h.attached (Roster.byName_of_enter hn hname)

theorem Each.remove (h : s.Each A W) :
    (s.withAttached (s.attached.remove name).2).Each A W := by
  refine h.withAttached fun {n t r'} hn => ?_
  rw [Roster.byName_remove] at hn
  split at hn
  · cases hn
  · exact h.attached hn

theorem Each.removeByToken (h : s.Each A W) :
    (s.withAttached (s.attached.removeByToken token).2).Each A W :=
  h.withAttached fun hn => h.attached (Roster.byName_of_removeByToken hn)

theorem Each.modify (h : s.Each A W) (hf : ∀ t r, A name t r → A name t (f r)) :
    (s.withAttached (s.attached.modify name f)).Each A W := by
  refine h.withAttached fun {n t r'} hn => ?_
  rw [Roster.byName_modify] at hn
  split at hn
  · rename_i hname
    subst hname
    obtain ⟨⟨t', r⟩, hr, he⟩ := Option.map_eq_some_iff.mp hn
    cases he
    exact hf t' r (h.attached hr)
  · exact h.attached hn

theorem Each.modifyByToken (h : s.Each A W)
    (hf : ∀ n t r, s.attached.nameOf[token]? = some n → s.attached.byName[n]? = some (t, r) →
      A n t (f r)) :
    (s.withAttached (s.attached.modifyByToken token f)).Each A W := by
  refine h.withAttached fun {n t r'} hn => ?_
  rw [Roster.byName_modifyByToken] at hn
  split at hn
  · rename_i ht
    obtain ⟨⟨t', r⟩, hr, he⟩ := Option.map_eq_some_iff.mp hn
    cases he
    exact hf n t' r ht hr
  · exact h.attached hn

theorem Each.settle (h : s.Each A W) (name : String) : (s.settle name).Each A W := by
  refine ⟨h.attached, fun {n r'} hn => ?_, fun {n r'} hn => ?_⟩
  · simp only [Stores.settle, Std.ExtTreeMap.getElem?_erase] at hn
    split at hn
    · cases hn
    · exact h.pending hn
  · simp only [Stores.settle, Std.ExtTreeMap.getElem?_erase] at hn
    split at hn
    · cases hn
    · exact h.restored hn

theorem Each.removeUser {u : UserId} (h : s.Each A W)
    (ha : ∀ n t r, A n t r → A n t (r.removeUser u))
    (hw : ∀ n r, W n r → W n (r.removeUser u)) : (s.removeUser u).Each A W := by
  refine ⟨fun {n t r'} hn => ?_, fun {n r'} hn => ?_, fun {n r'} hn => ?_⟩
  · simp only [Stores.removeUser, Roster.byName_mapValues] at hn
    obtain ⟨⟨t', r⟩, hr, he⟩ := Option.map_eq_some_iff.mp hn
    cases he
    exact ha n t' r (h.attached hr)
  · simp only [Stores.removeUser, removeWaitingUser, Std.ExtTreeMap.getElem?_map] at hn
    obtain ⟨r, hr, rfl⟩ := Option.map_eq_some_iff.mp hn
    exact hw n r (h.pending hr)
  · simp only [Stores.removeUser, removeWaitingUser, Std.ExtTreeMap.getElem?_map] at hn
    obtain ⟨r, hr, rfl⟩ := Option.map_eq_some_iff.mp hn
    exact hw n r (h.restored hr)

end Attached

section Waiting

theorem of_insert {w : Waiting} {P : String → Record → Prop} {n : String} {r' : Record}
    (h : ∀ {n : String} {r : Record}, w[n]? = some r → P n r) (hr : P name r)
    (hn : (w.insert name r)[n]? = some r') : P n r' := by
  rw [Std.ExtTreeMap.getElem?_insert] at hn
  split at hn
  · rename_i hname
    cases hn
    exact Std.LawfulEqCmp.eq_of_compare hname ▸ hr
  · exact h hn

theorem of_modify {w : Waiting} {P : String → Record → Prop} {n : String} {r' : Record}
    (h : ∀ {n : String} {r : Record}, w[n]? = some r → P n r) (hf : ∀ r, P name r → P name (f r))
    (hn : (w.modify name f)[n]? = some r') : P n r' := by
  rw [Std.ExtTreeMap.getElem?_modify] at hn
  split at hn
  · rename_i hname
    obtain rfl := Std.LawfulEqCmp.eq_of_compare hname
    obtain ⟨r, hr, rfl⟩ := Option.map_eq_some_iff.mp hn
    exact hf r (h hr)
  · exact h hn

end Waiting

section Documents

theorem readActive_cases (s : Stores) (e : Record) :
    (s.attached.contains e.name = true ∧ (s.readActive e = s ∨
      s.readActive e = s.withAttached (s.attached.modify e.name (Backup.merge · e)))) ∨
    (s.attached.contains e.name = false ∧
      s.readActive e = { s with pending := s.pending.insert e.name e }) := by
  unfold readActive
  cases hr : s.attached.get? e.name with
  | none =>
    right
    refine ⟨?_, rfl⟩
    rw [Bool.eq_false_iff, ne_eq, Roster.contains_iff]
    rintro ⟨t, r, ht⟩
    rw [Roster.get?_eq_some_iff.mpr ⟨t, ht⟩] at hr
    cases hr
  | some r =>
    obtain ⟨t, ht⟩ := Roster.get?_eq_some_iff.mp hr
    refine .inl ⟨Roster.contains_iff.mpr ⟨t, r, ht⟩, ?_⟩
    simp only
    split
    · exact .inl rfl
    · exact .inr rfl

theorem Each.readActive (h : s.Each A W)
    (hm : ∀ t r, A e.name t r → A e.name t (Backup.merge r e)) (hw : W e.name e) :
    (s.readActive e).Each A W := by
  rcases readActive_cases s e with ⟨-, he | he⟩ | ⟨-, he⟩
  · rw [he]; exact h
  · rw [he]; exact h.modify hm
  · rw [he]; exact ⟨h.attached, of_insert h.pending hw, h.restored⟩

theorem Each.readRestored (h : s.Each A W) (hw : W e.name e) : (s.readRestored e).Each A W :=
  ⟨h.attached, h.pending, of_insert h.restored hw⟩

/-- What every entry of a document keeps when it is read is kept when the document is. -/
theorem read_induction {P : Stores → Prop} (h : P s)
    (ha : ∀ t, ∀ e ∈ d.active, P t → P (t.readActive e.record))
    (hr : ∀ t, ∀ e ∈ d.restored, P t → P (t.readRestored e.record)) : P (s.read d) := by
  refine List.foldlRecOn _ _ (List.foldlRecOn _ _ h fun t ht r hm => ?_) fun t ht r hm => ?_
  · obtain ⟨e, he, rfl⟩ := List.mem_map.mp hm
    exact ha t e he ht
  · obtain ⟨e, he, rfl⟩ := List.mem_map.mp hm
    exact hr t e he ht

theorem restore_induction {P : Stores → Prop} (h : P s)
    (hr : ∀ t, ∀ e ∈ d.entries, P t → P (t.restoreRecord e.record)) : P (s.restore d) := by
  refine List.foldlRecOn _ _ h fun t ht r hm => ?_
  obtain ⟨e, he, rfl⟩ := List.mem_map.mp hm
  exact hr t e he ht

/-- Reading a document keeps a property that its entries have and merging one of them keeps. -/
theorem Each.read (h : s.Each A W)
    (hm : ∀ e ∈ d.entries, ∀ t r, A e.name t r → A e.name t (Backup.merge r e.record))
    (hw : ∀ e ∈ d.entries, W e.name e.record) : (s.read d).Each A W := by
  refine read_induction h (fun t e he ht => ?_) fun t e he ht => ?_
  · have he := List.mem_append_left d.restored he
    exact ht.readActive (hm e he) (hw e he)
  · exact ht.readRestored (hw e (List.mem_append_right d.active he))

/-- A record that is restored joins one that there is, or waits with its trusted verdicts. -/
theorem restoreRecord_cases (s : Stores) (e : Record) :
    s.restoreRecord e = s.withAttached (s.attached.modify e.name (Backup.merge · e)) ∨
    (s.attached.contains e.name = false ∧
      (s.restoreRecord e = { s with pending := s.pending.modify e.name (Backup.merge · e) } ∨
        s.restoreRecord e = { s with restored := s.restored.modify e.name (Backup.merge · e) } ∨
        s.restoreRecord e =
          { s with restored := s.restored.insert e.name (Backup.coerce e) })) := by
  unfold restoreRecord
  split
  · exact .inl rfl
  · rename_i ha
    refine .inr ⟨Bool.eq_false_iff.mpr ha, ?_⟩
    split
    · exact .inl rfl
    · split
      · exact .inr (.inl rfl)
      · exact .inr (.inr rfl)

theorem Each.restoreRecord (h : s.Each A W)
    (hm : ∀ t r, A e.name t r → A e.name t (Backup.merge r e))
    (hw : ∀ r, W e.name r → W e.name (Backup.merge r e)) (hc : W e.name (Backup.coerce e)) :
    (s.restoreRecord e).Each A W := by
  rcases restoreRecord_cases s e with he | ⟨-, he | he | he⟩
  · rw [he]; exact h.modify hm
  · rw [he]; exact ⟨h.attached, of_modify h.pending hw, h.restored⟩
  · rw [he]; exact ⟨h.attached, h.pending, of_modify h.restored hw⟩
  · rw [he]; exact ⟨h.attached, h.pending, of_insert h.restored hc⟩

theorem Each.restore (h : s.Each A W)
    (hm : ∀ e ∈ d.entries, ∀ t r, A e.name t r → A e.name t (Backup.merge r e.record))
    (hw : ∀ e ∈ d.entries, ∀ r, W e.name r → W e.name (Backup.merge r e.record))
    (hc : ∀ e ∈ d.entries, W e.name (Backup.coerce e.record)) : (s.restore d).Each A W :=
  restore_induction h fun _ e he ht => ht.restoreRecord (hm e he) (hw e he) (hc e he)

variable {P : Roster Record → Prop}

/-- What merges keep of the attached records is kept when a document is read. -/
theorem attached_read (h : P s.attached)
    (hm : ∀ e ∈ d.active, ∀ a, P a → P (a.modify e.name (Backup.merge · e.record))) :
    P (s.read d).attached := by
  refine read_induction (P := fun t => P t.attached) h (fun t e he ht => ?_) fun _ _ _ ht => ht
  rcases readActive_cases t e.record with ⟨-, ht' | ht'⟩ | ⟨-, ht'⟩
  · rw [ht']; exact ht
  · rw [ht']; exact hm e he _ ht
  · rw [ht']; exact ht

/-- What merges keep of the attached records is kept when a backup is restored. -/
theorem attached_restore (h : P s.attached)
    (hm : ∀ e ∈ d.entries, ∀ a, P a → P (a.modify e.name (Backup.merge · e.record))) :
    P (s.restore d).attached := by
  refine restore_induction (P := fun t => P t.attached) h fun t e he ht => ?_
  rcases restoreRecord_cases t e.record with ht' | ⟨-, ht' | ht' | ht'⟩
  · rw [ht']; exact hm e he _ ht
  · rw [ht']; exact ht
  · rw [ht']; exact ht
  · rw [ht']; exact ht

end Documents
end LinkTrust.Stores
