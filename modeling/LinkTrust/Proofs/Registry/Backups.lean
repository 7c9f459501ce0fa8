import LinkTrust.Proofs.Document.Codec
import LinkTrust.Proofs.Holdings
import LinkTrust.Proofs.Registry.Effect

/-! # Documents that come again or in another order

A document that is read twice, and a backup that is restored twice, does what it does once. Of two
backups it does not matter which is restored first, except for what is new: the token and the flag
of a record that only the backups have, and the opt-out of a user whom only they have, are those of
the backup that came first.
-/

namespace LinkTrust

namespace Record

/-- The records match, and what differs between them was not there before: neither the record, if
the tokens or the flags differ, nor the user, if an opt-out does. -/
structure MatchesSince (before? : Option Record) (r r' : Record) : Prop extends r.Matches r' where
  token_eq : before?.isSome = true → r.token = r'.token
  autoVerify_eq : before?.isSome = true → r.autoVerify = r'.autoVerify
  optedOut_eq : ∀ before : Record, before? = some before → ∀ u ∈ before.selections,
    (r.selection u).optedOut = (r'.selection u).optedOut

variable {r e e' : Record} {l l' : List Record} {before? : Option Record}

theorem Matches.refl (r : Record) : r.Matches r := ⟨rfl, rfl, fun _ => .rfl, fun _ => rfl⟩

theorem MatchesSince.refl (r : Record) : MatchesSince before? r r :=
  ⟨.refl r, fun _ => rfl, fun _ => rfl, fun _ _ _ _ => rfl⟩

theorem matchesSince_join (hl : ∀ e, e ∈ l ↔ e ∈ l') :
    MatchesSince (some r) (Backup.join r l) (Backup.join r l') := by
  refine ⟨Backup.matches_join (.refl r) hl, fun _ => ?_, fun _ => ?_, ?_⟩
  · rw [Backup.token_join, Backup.token_join]
  · rw [Backup.autoVerify_join, Backup.autoVerify_join]
  · rintro before hb u hu
    cases hb
    rw [Backup.optedOut_join hu, Backup.optedOut_join hu]

theorem matchesSince_join_cleared (hn : e.name = e'.name) (hl : ∀ e, e ∈ l ↔ e ∈ l') :
    MatchesSince none (Backup.join e.cleared l) (Backup.join e'.cleared l') :=
  ⟨Backup.matches_join ⟨hn, rfl, fun _ => .rfl, fun _ => rfl⟩ hl, nofun, nofun, nofun⟩

end Record

namespace Holdings

variable {h : Holdings} {active restored l l' : List Record} {name : String}

/-- Two outcomes for a package: the same stores have a record of it, and these match but for what
was not there before. -/
structure MatchSince (h x y : Holdings) : Prop where
  attached : Option.Rel (fun p q => p.1 = q.1 ∧
    Record.MatchesSince (h.attached.map (·.2)) p.2 q.2) x.attached y.attached
  pending : Option.Rel (Record.MatchesSince h.pending) x.pending y.pending
  restored : Option.Rel (Record.MatchesSince h.restored) x.restored y.restored

theorem rel_refl {before? : Option Record} (o : Option Record) :
    Option.Rel (Record.MatchesSince before?) o o := by
  cases o with
  | none => exact .none
  | some r => exact .some (.refl r)

section Twice

theorem getLast?_or_or (l : List Record) (o : Option Record) :
    l.getLast?.or (l.getLast?.or o) = l.getLast?.or o := by
  rw [← Option.or_assoc, Option.or_self]

/-- The entries of a package that are read once more change nothing. -/
theorem read_read (h : Holdings) (active restored : List Record) :
    restored.foldl readRestored (active.foldl readActive
      (restored.foldl readRestored (active.foldl readActive h))) =
    restored.foldl readRestored (active.foldl readActive h) := by
  obtain ⟨a, p, w⟩ := h
  simp only [foldl_readRestored]
  cases a with
  | none => simp only [foldl_readActive_of_not_attached, getLast?_or_or]
  | some q =>
    obtain ⟨t, r⟩ := q
    simp only [foldl_readActive_of_attached, Backup.token_join, Backup.join_join, getLast?_or_or]

theorem restore_restore (h : Holdings) (l : List Record) :
    l.foldl restore (l.foldl restore h) = l.foldl restore h := by
  match h with
  | ⟨some (t, r), p, w⟩ => simp only [foldl_restore_of_attached, Backup.join_join]
  | ⟨none, some r, w⟩ => simp only [foldl_restore_of_pending, Backup.join_join]
  | ⟨none, none, some r⟩ => simp only [foldl_restore_of_restored, Backup.join_join]
  | ⟨none, none, none⟩ =>
    cases l with
    | nil => rfl
    | cons e l =>
      simp only [foldl_restore_of_none, List.head?_cons, Option.map_some,
        foldl_restore_of_restored, Backup.join_join]

end Twice

section Order

/-- Restoring the entries of a package in another order, or some of them more often, gives an
outcome that matches. -/
theorem matchSince_restore (h : Holdings) (hl : ∀ e, e ∈ l ↔ e ∈ l')
    (hn : ∀ e ∈ l, e.name = name) :
    h.MatchSince (l.foldl restore h) (l'.foldl restore h) := by
  match h with
  | ⟨some (t, r), p, w⟩ =>
    simp only [foldl_restore_of_attached]
    exact ⟨.some ⟨rfl, Record.matchesSince_join hl⟩, rel_refl p, rel_refl w⟩
  | ⟨none, some r, w⟩ =>
    simp only [foldl_restore_of_pending]
    exact ⟨.none, .some (Record.matchesSince_join hl), rel_refl w⟩
  | ⟨none, none, some r⟩ =>
    simp only [foldl_restore_of_restored]
    exact ⟨.none, .none, .some (Record.matchesSince_join hl)⟩
  | ⟨none, none, none⟩ =>
    simp only [foldl_restore_of_none]
    refine ⟨.none, .none, ?_⟩
    cases l with
    | nil =>
      obtain rfl : l' = [] :=
        List.eq_nil_iff_forall_not_mem.mpr fun e he => List.not_mem_nil ((hl e).mpr he)
      exact .none
    | cons e l =>
      cases l' with
      | nil => exact absurd ((hl e).mp List.mem_cons_self) List.not_mem_nil
      | cons e' l' =>
        have he' : e' ∈ e :: l := (hl e').mpr List.mem_cons_self
        have he : e.name = e'.name :=
          (hn e List.mem_cons_self).trans (hn e' he').symm
        exact .some (Record.matchesSince_join_cleared he hl)

end Order
end Holdings

namespace Stores

variable {s : Stores} {d d' : Document} {name : String}

theorem read_read (s : Stores) (d : Document) : (s.read d).read d = s.read d := by
  refine ext_holdings (nameOf_read _ d) fun name => ?_
  simp only [holdings_read, Holdings.read_read]

theorem restore_restore (s : Stores) (d : Document) : (s.restore d).restore d = s.restore d := by
  refine ext_holdings (nameOf_restore _ d) fun name => ?_
  simp only [holdings_restore, Holdings.restore_restore]

/-- The entries of two backups, taken together, are the same in both orders. -/
theorem matchSince_restore_restore (s : Stores) (d d' : Document) (name : String) :
    (s.holdings name).MatchSince (((s.restore d).restore d').holdings name)
      (((s.restore d').restore d).holdings name) := by
  simp only [holdings_restore, ← List.foldl_append]
  have hn : ∀ e ∈ Record.named name (d.entries.map Entry.record) ++
      Record.named name (d'.entries.map Entry.record), e.name = name := by
    intro e he
    rcases List.mem_append.mp he with he | he
    · exact Record.name_of_mem_named he
    · exact Record.name_of_mem_named he
  refine Holdings.matchSince_restore _ (fun e => ?_) hn
  rw [List.mem_append, List.mem_append, or_comm]

end Stores

/-- The document that a source gives; the empty one if it gives none. -/
def Source.document (source : Source) : Document :=
  match Document.readFrom source with
  | .ok d => d
  | .error _ => {}

theorem Source.document_encode {d : Document} (h : ∀ e ∈ d.entries, e.verdicts.Canonical) :
    Source.document { bytes := d.encode } = d := by
  rw [Source.document, Document.readFrom_encode h]

namespace Registry

theorem stores_readState (s : Registry) (source : Source) :
    (s.perform (.readState source)).registry.stores = s.stores.read source.document := by
  simp only [perform, registry_map, readState, Source.document]
  cases Document.readFrom source <;> rfl

theorem stores_restoreState (s : Registry) (source : Source) :
    (s.perform (.restoreState source)).registry.stores = s.stores.restore source.document := by
  simp only [perform, registry_map, restoreState, Source.document]
  cases Document.readFrom source <;> rfl

/-- A document that is read or restored twice does what it does once, and two backups do the same in
either order, but for the tokens and flags of records, and the opt-outs of users, that were not
there before. -/
theorem documents_apply_once_in_any_order (s : Registry) (a b : Source) :
    (s.after [.readState a, .readState a]).stores = (s.after [.readState a]).stores ∧
    (s.after [.restoreState a, .restoreState a]).stores = (s.after [.restoreState a]).stores ∧
    (s.after [.restoreState a, .restoreState b]).stores.attached.nameOf =
      (s.after [.restoreState b, .restoreState a]).stores.attached.nameOf ∧
    ∀ name : String, (s.stores.holdings name).MatchSince
      ((s.after [.restoreState a, .restoreState b]).stores.holdings name)
      ((s.after [.restoreState b, .restoreState a]).stores.holdings name) := by
  simp only [after_cons, after_nil, stores_readState, stores_restoreState]
  refine ⟨s.stores.read_read _, s.stores.restore_restore _, ?_, fun name => ?_⟩
  · simp only [Stores.nameOf_restore]
  · exact s.stores.matchSince_restore_restore _ _ name

/-- A user whom the record of an attached package lacks gets the opt-out of the backup that comes
first. -/
theorem new_opt_out_depends_on_order :
    let backup (allowed : Bool) : Document :=
      { active := [{ name := "app", token := ⟨1⟩, users := [{ user := 7, allowed }] }] }
    let restore (allowed : Bool) : Call := .restoreState { bytes := (backup allowed).encode }
    let optedOut (t : Registry) : Option (Option Bool) :=
      (t.stores.attached.get? "app").map fun r => r.selections[(7 : UserId)]?.map (·.optedOut)
    let s := (create .default .openToAll).after [.addPackage .sample]
    optedOut s = some none ∧
      optedOut (s.after [restore false, restore true]) = some (some true) ∧
      optedOut (s.after [restore true, restore false]) = some (some false) := by
  intro backup restore optedOut s
  have hread (allowed : Bool) (t : Registry) : (t.perform (restore allowed)).registry.stores =
      t.stores.restore (backup allowed) := by
    have hc : ∀ e ∈ (backup allowed).entries, e.verdicts.Canonical := by
      intro e he d v hv
      obtain rfl := List.mem_singleton.mp he
      simp at hv
    rw [stores_restoreState, Source.document_encode hc]
  simp only [optedOut, after_cons, after_nil, hread]
  refine ⟨?_, ?_, ?_⟩
  · decide +kernel
  · decide +kernel
  · decide +kernel

end Registry
end LinkTrust
