import LinkTrust.Proofs.Backup
import LinkTrust.Proofs.Stores

/-! # What is held for one package

The stores as seen from one package: the record under which it is attached, and those that wait for
it. An entry of a document changes nothing for other packages, and what it changes for its own
depends on what is held for that one alone. So a document does to each package what its entries of
this name do, taken by themselves.
-/

namespace LinkTrust

/-- All that the stores hold for one package. -/
structure Holdings where
  attached : Option (Token × Record)
  pending : Option Record
  restored : Option Record

/-- The records of a name. -/
def Record.named (name : String) (l : List Record) : List Record := l.filter (·.name = name)

theorem Record.name_of_mem_named {name : String} {l : List Record} {e : Record}
    (h : e ∈ named name l) : e.name = name :=
  of_decide_eq_true (List.mem_filter.mp h).2

namespace Holdings

variable {h : Holdings} {l : List Record}

/-- Reads an active entry of the package. -/
def readActive (h : Holdings) (e : Record) : Holdings :=
  match h.attached with
  | some (t, r) =>
    if r.token = e.token then h else { h with attached := some (t, Backup.merge r e) }
  | none => { h with pending := some e }

def readRestored (h : Holdings) (e : Record) : Holdings := { h with restored := some e }

/-- Restores an entry of the package. -/
def restore (h : Holdings) (e : Record) : Holdings :=
  match h with
  | ⟨some (t, r), p, w⟩ => ⟨some (t, Backup.merge r e), p, w⟩
  | ⟨none, some r, w⟩ => ⟨none, some (Backup.merge r e), w⟩
  | ⟨none, none, some r⟩ => ⟨none, none, some (Backup.merge r e)⟩
  | ⟨none, none, none⟩ => ⟨none, none, some (Backup.coerce e)⟩

section Rows

theorem getLast?_cons_or (e : Record) (l : List Record) (o : Option Record) :
    (e :: l).getLast?.or o = l.getLast?.or (some e) := by
  rw [List.getLast?_cons]
  cases l.getLast? <;> rfl

theorem foldl_readActive_of_attached {t : Token} {r : Record} {p w : Option Record} :
    l.foldl readActive ⟨some (t, r), p, w⟩ =
      ⟨some (t, Backup.join r (l.filter (·.token ≠ r.token))), p, w⟩ := by
  induction l generalizing r with
  | nil => rfl
  | cons e l ih =>
    rw [List.foldl_cons, readActive]
    simp only
    by_cases ht : r.token = e.token
    · simp [ht, ih]
    · have he : decide (e.token ≠ r.token) = true := decide_eq_true (Ne.symm ht)
      rw [if_neg ht, ih, List.filter_cons, if_pos he]
      rfl

theorem foldl_readActive_of_not_attached {p w : Option Record} :
    l.foldl readActive ⟨none, p, w⟩ = ⟨none, l.getLast?.or p, w⟩ := by
  induction l generalizing p with
  | nil => rfl
  | cons e l ih =>
    rw [List.foldl_cons, readActive, ih, getLast?_cons_or]

theorem foldl_readRestored :
    l.foldl readRestored h = { h with restored := l.getLast?.or h.restored } := by
  induction l generalizing h with
  | nil => rfl
  | cons e l ih => rw [List.foldl_cons, ih, getLast?_cons_or, readRestored]

theorem foldl_restore_of_attached {t : Token} {r : Record} {p w : Option Record} :
    l.foldl restore ⟨some (t, r), p, w⟩ = ⟨some (t, Backup.join r l), p, w⟩ := by
  induction l generalizing r with
  | nil => rfl
  | cons e l ih => exact ih

theorem foldl_restore_of_pending {r : Record} {w : Option Record} :
    l.foldl restore ⟨none, some r, w⟩ = ⟨none, some (Backup.join r l), w⟩ := by
  induction l generalizing r with
  | nil => rfl
  | cons e l ih => exact ih

theorem foldl_restore_of_restored {r : Record} :
    l.foldl restore ⟨none, none, some r⟩ = ⟨none, none, some (Backup.join r l)⟩ := by
  induction l generalizing r with
  | nil => rfl
  | cons e l ih => exact ih

/-- The first of the entries starts a record, which the others join. -/
theorem foldl_restore_of_none : l.foldl restore ⟨none, none, none⟩ =
    ⟨none, none, l.head?.map fun e => Backup.join e.cleared l⟩ := by
  cases l with
  | nil => rfl
  | cons e l =>
    rw [List.foldl_cons, restore, foldl_restore_of_restored, Backup.coerce_eq_merge]
    rfl

end Rows

end Holdings

namespace Stores

variable {s : Stores} {e : Record} {l : List Record} {d : Document} {name : String}

/-- What the stores hold for a package. -/
def holdings (s : Stores) (name : String) : Holdings :=
  ⟨s.attached.byName[name]?, s.pending[name]?, s.restored[name]?⟩

/-- The stores are known from the token index and from what they hold for each package. -/
theorem ext_holdings {s' : Stores} (hi : s.attached.nameOf = s'.attached.nameOf)
    (h : ∀ name : String, s.holdings name = s'.holdings name) : s = s' := by
  have hb : s.attached.byName = s'.attached.byName :=
    Std.ExtTreeMap.ext_getElem? fun n => congrArg Holdings.attached (h n)
  have hp : s.pending = s'.pending :=
    Std.ExtTreeMap.ext_getElem? fun n => congrArg Holdings.pending (h n)
  have hr : s.restored = s'.restored :=
    Std.ExtTreeMap.ext_getElem? fun n => congrArg Holdings.restored (h n)
  obtain ⟨⟨b, i⟩, p, r⟩ := s
  obtain ⟨⟨b', i'⟩, p', r'⟩ := s'
  simp_all

section Entries

theorem holdings_modify_attached {f : Record → Record} :
    (s.withAttached (s.attached.modify e.name f)).holdings name =
      if e.name = name then
        { s.holdings name with attached := (s.holdings name).attached.map (Prod.map id f) }
      else s.holdings name := by
  simp only [holdings, withAttached, Roster.byName_modify, eq_comm (a := name)]
  split <;> rfl

theorem holdings_readActive : (s.readActive e).holdings name =
    if e.name = name then (s.holdings name).readActive e else s.holdings name := by
  unfold readActive Roster.get?
  cases ha : s.attached.byName[e.name]? with
  | none =>
    by_cases hn : e.name = name
    · subst hn
      simp [holdings, Holdings.readActive, ha]
    · simp [holdings, hn, Std.ExtTreeMap.getElem?_insert]
  | some p =>
    obtain ⟨t, r⟩ := p
    simp only [Option.map_some]
    by_cases ht : r.token = e.token
    · by_cases hn : e.name = name
      · subst hn
        simp [holdings, Holdings.readActive, ha, ht]
      · simp [hn, ht]
    · rw [if_neg ht]
      refine (holdings_modify_attached (f := (Backup.merge · e))).trans ?_
      by_cases hn : e.name = name
      · subst hn
        simp [holdings, Holdings.readActive, ha, ht]
      · simp [hn]

theorem holdings_readRestored : (s.readRestored e).holdings name =
    if e.name = name then (s.holdings name).readRestored e else s.holdings name := by
  by_cases hn : e.name = name
  · subst hn
    simp [holdings, readRestored, Holdings.readRestored]
  · simp [holdings, readRestored, hn, Std.ExtTreeMap.getElem?_insert]

theorem holdings_restoreRecord : (s.restoreRecord e).holdings name =
    if e.name = name then (s.holdings name).restore e else s.holdings name := by
  unfold restoreRecord
  simp only [Roster.contains_eq_isSome, Std.ExtTreeMap.contains_eq_isSome_getElem?]
  cases ha : s.attached.byName[e.name]? with
  | some p =>
    obtain ⟨t, r⟩ := p
    refine (holdings_modify_attached (f := (Backup.merge · e))).trans ?_
    by_cases hn : e.name = name
    · subst hn
      simp [holdings, Holdings.restore, ha]
    · simp [hn]
  | none =>
    by_cases hn : e.name = name
    · subst hn
      cases hp : s.pending[e.name]? <;> cases hw : s.restored[e.name]? <;>
        simp [holdings, Holdings.restore, ha, hp, hw]
    · cases hp : s.pending[e.name]? <;> cases hw : s.restored[e.name]? <;>
        simp [holdings, hn, Std.ExtTreeMap.getElem?_modify, Std.ExtTreeMap.getElem?_insert]

/-- What each entry does for its package, a row of entries does one after the other. -/
theorem holdings_foldl {f : Stores → Record → Stores} {g : Holdings → Record → Holdings}
    (hf : ∀ s e, (f s e).holdings name =
      if e.name = name then g (s.holdings name) e else s.holdings name) :
    (l.foldl f s).holdings name = (Record.named name l).foldl g (s.holdings name) := by
  induction l generalizing s with
  | nil => rfl
  | cons e l ih =>
    rw [List.foldl_cons, ih, hf, Record.named, Record.named]
    by_cases hn : e.name = name
    · simp [hn]
    · simp [hn]

end Entries

section Documents

theorem holdings_read : (s.read d).holdings name =
    (Record.named name (d.restored.map Entry.record)).foldl Holdings.readRestored
      ((Record.named name (d.active.map Entry.record)).foldl Holdings.readActive
        (s.holdings name)) := by
  rw [read, holdings_foldl fun _ _ => holdings_readRestored,
    holdings_foldl fun _ _ => holdings_readActive]

theorem holdings_restore : (s.restore d).holdings name =
    (Record.named name (d.entries.map Entry.record)).foldl Holdings.restore (s.holdings name) :=
  holdings_foldl fun _ _ => holdings_restoreRecord

/-- The record of an attached package after a document is read. -/
theorem byName_read {t : Token} {r : Record} (h : s.attached.byName[name]? = some (t, r)) :
    (s.read d).attached.byName[name]? = some (t, Backup.join r
      ((Record.named name (d.active.map Entry.record)).filter (·.token ≠ r.token))) := by
  have hs : s.holdings name = ⟨some (t, r), s.pending[name]?, s.restored[name]?⟩ := by
    rw [holdings, h]
  have hd : (s.read d).holdings name = _ := holdings_read
  rw [hs, Holdings.foldl_readActive_of_attached, Holdings.foldl_readRestored] at hd
  exact congrArg Holdings.attached hd

theorem byName_restore {t : Token} {r : Record} (h : s.attached.byName[name]? = some (t, r)) :
    (s.restore d).attached.byName[name]? =
      some (t, Backup.join r (Record.named name (d.entries.map Entry.record))) := by
  have hs : s.holdings name = ⟨some (t, r), s.pending[name]?, s.restored[name]?⟩ := by
    rw [holdings, h]
  have hd : (s.restore d).holdings name = _ := holdings_restore
  rw [hs, Holdings.foldl_restore_of_attached] at hd
  exact congrArg Holdings.attached hd

theorem nameOf_read (s : Stores) (d : Document) :
    (s.read d).attached.nameOf = s.attached.nameOf :=
  attached_read (P := fun a => a.nameOf = s.attached.nameOf) rfl fun _ _ _ ha => ha

theorem nameOf_restore (s : Stores) (d : Document) :
    (s.restore d).attached.nameOf = s.attached.nameOf :=
  attached_restore (P := fun a => a.nameOf = s.attached.nameOf) rfl fun _ _ _ ha => ha

end Documents
end Stores
end LinkTrust
