import LinkTrust.Proofs.Registry.Snapshot

/-! # Backups that are kept

A backup that is restored where none of its packages is known is kept there, and the document that
is written then can be restored elsewhere. This comes to the same as restoring the backup itself:
what is kept of an entry is a merge into a blank record, and a merge takes no more of an entry than
what is kept of it.
-/

namespace LinkTrust

namespace Holdings

variable {e : Record} {l : List Record}

theorem cleared_join_coerce : (Backup.join (Backup.coerce e) l).cleared = e.cleared := by
  simp only [Record.cleared, Backup.name_join, Backup.token_join, Backup.autoVerify_join]
  rfl

/-- A row of entries of a package may be kept first and restored as one entry. -/
theorem restore_join_coerce (h : Holdings) :
    h.restore (Backup.join (Backup.coerce e) l) = (e :: l).foldl restore h := by
  match h with
  | ⟨some (t, r), p, w⟩ => rw [foldl_restore_of_attached, Backup.join_eq_merge_join, restore]
  | ⟨none, some r, w⟩ => rw [foldl_restore_of_pending, Backup.join_eq_merge_join, restore]
  | ⟨none, none, some r⟩ => rw [foldl_restore_of_restored, Backup.join_eq_merge_join, restore]
  | ⟨none, none, none⟩ =>
    -- With nothing to join, the row starts from the blank record, before and after it was kept.
    rw [foldl_restore_of_none, List.head?_cons, Option.map_some, Backup.join_eq_merge_join, restore,
      Backup.coerce_eq_merge, cleared_join_coerce]

end Holdings

namespace Stores

variable {d : Document} {name : String}

/-- The stores after a backup is restored into empty ones. -/
def keeping (d : Document) : Stores := ({} : Stores).restore d

theorem sound_keeping (d : Document) : (keeping d).Sound :=
  Sound.restore (Registry.sound_create .default .openToAll) d

theorem holdings_keeping : (keeping d).holdings name =
    ⟨none, none, (Record.named name (d.entries.map Entry.record)).head?.map fun e =>
      Backup.join e.cleared (Record.named name (d.entries.map Entry.record))⟩ := by
  have h : ({} : Stores).holdings name = ⟨none, none, none⟩ := by simp [holdings]
  rw [keeping, holdings_restore, h, Holdings.foldl_restore_of_none]

/-- The document of what is kept of a backup has one entry for each of its packages. -/
theorem named_snapshot_keeping :
    Record.named name ((keeping d).snapshot.entries.map Entry.record) =
      ((keeping d).holdings name).restored.toList := by
  have ha : (keeping d).attached.get? name = none := by
    have hb : (keeping d).attached.byName[name]? = none :=
      congrArg Holdings.attached holdings_keeping
    rw [Roster.get?, hb, Option.map_none]
  have hp : (keeping d).pending[name]? = none := congrArg Holdings.pending holdings_keeping
  have hn := (sound_keeping d).perm_named_snapshot name
  rw [ha, hp] at hn
  cases hw : (keeping d).restored[name]? with
  | none =>
    rw [hw] at hn
    rw [hn.eq_nil, holdings, hw]
    rfl
  | some r =>
    rw [hw] at hn
    rw [List.perm_singleton.mp hn, holdings, hw]
    rfl

/-- A backup may be restored by way of stores that have kept it. -/
theorem restore_snapshot_keeping (s : Stores) (d : Document) :
    s.restore (keeping d).snapshot = s.restore d := by
  refine ext_holdings ?_ fun name => ?_
  · rw [nameOf_restore, nameOf_restore]
  · rw [holdings_restore, holdings_restore, named_snapshot_keeping, holdings_keeping]
    cases Record.named name (d.entries.map Entry.record) with
    | nil => rfl
    | cons e l =>
      have hk : Backup.join e.cleared (e :: l) = Backup.join (Backup.coerce e) l := by
        rw [Backup.join_cons, Backup.coerce_eq_merge]
      rw [← Holdings.restore_join_coerce, ← hk]
      rfl

end Stores

namespace Backup

/-- What is kept of a record that has nothing to join is what a blank one has after the record joins
it, and it is all that any record gains by a merge, which takes verdicts and users one by one. So a
record may be kept first, with others that join it later, and a whole backup may be restored by way
of stores that had nothing before. -/
theorem keeping_is_merging :
    (∀ e : Record, coerce e = merge (.blank e.name e.token e.autoVerify) e) ∧
    (∀ r e : Record, merge r e = merge r (coerce e)) ∧
    (∀ r e : Record, merge r e =
      { r with
        verdicts := e.verdicts.foldl answer r.verdicts
        selections := e.selections.foldl adopt r.selections }) ∧
    (∀ (r e : Record) (l : List Record), join r (e :: l) = merge r (join (coerce e) l)) ∧
    ∀ (s : Stores) (d : Document), s.restore (({} : Stores).restore d).snapshot = s.restore d :=
  ⟨coerce_eq_merge, fun r e => (merge_coerce r e).symm, merge_eq_foldl, join_eq_merge_join,
    Stores.restore_snapshot_keeping⟩

end Backup
end LinkTrust
