import LinkTrust.Proofs.Roster
import Mathlib.Data.Set.Insert

/-! # Rosters as tables

A roster is a table of names, tokens and values in which no name and no token stands twice. What an
operation does to the roster it does to the rows of the table, and it answers with the value of the
row that it looks for. The roster lists the rows once each, in the order of the names.
-/

namespace LinkTrust

variable {α : Type}

/-- A name, a token, and the value that they stand for. -/
abbrev Row (α : Type) := String × Token × α

abbrev Table (α : Type) := Set (Row α)

/-- What can be done to a roster or to a table. -/
inductive Operation (α : Type) where
  | put (name : String) (token : Token) (value : α)
  | remove (name : String)
  | removeByToken (token : Token)
  | modify (name : String) (f : α → α)
  | modifyByToken (token : Token) (f : α → α)
  | mapValues (f : α → α)

namespace Operation

/-- The row whose value is the answer. -/
def LooksFor : Operation α → Row α → Prop
  | put name _ _, e => e.1 = name
  | remove name, e => e.1 = name
  | removeByToken token, e => e.2.1 = token
  | modify name _, e => e.1 = name
  | modifyByToken token _, e => e.2.1 = token
  | mapValues _, _ => False

def Removes : Operation α → Prop
  | remove _ => True
  | removeByToken _ => True
  | _ => False

end Operation

namespace Table

/-- No name and no token stands in two rows. -/
def Unique (T : Table α) : Prop :=
  ∀ e ∈ T, ∀ e' ∈ T, e.1 = e'.1 ∨ e.2.1 = e'.2.1 → e = e'

/-- The answer is the value of a row with the property, if there is one. -/
def Gives (T : Table α) (p : Row α → Prop) (answer : Option α) : Prop :=
  ∀ value : α, answer = some value ↔ ∃ e ∈ T, p e ∧ e.2.2 = value

/-- Changes the values in some rows. -/
def revise (T : Table α) (p : String → Token → Prop) (f : α → α) : Table α :=
  {e ∈ T | ¬p e.1 e.2.1} ∪ (fun e => (e.1, e.2.1, f e.2.2)) '' {e ∈ T | p e.1 e.2.1}

def apply (T : Table α) : Operation α → Table α
  | .put name token value => insert (name, token, value) {e ∈ T | e.1 ≠ name ∧ e.2.1 ≠ token}
  | .remove name => {e ∈ T | e.1 ≠ name}
  | .removeByToken token => {e ∈ T | e.2.1 ≠ token}
  | .modify name f => T.revise (fun n _ => n = name) f
  | .modifyByToken token f => T.revise (fun _ t => t = token) f
  | .mapValues f => T.revise (fun _ _ => True) f

/-- The table that a row of operations makes of the empty one. -/
def run (ops : List (Operation α)) : Table α := ops.foldl apply ∅

theorem mem_revise {T : Table α} {p : String → Token → Prop} {f : α → α} {name : String}
    {token : Token} {value : α} : (name, token, value) ∈ T.revise p f ↔
      (¬p name token ∧ (name, token, value) ∈ T) ∨
        p name token ∧ ∃ v : α, (name, token, v) ∈ T ∧ f v = value := by
  simp only [revise, Set.mem_union, Set.mem_ofPred_eq, Set.mem_image, Prod.mk.injEq, Prod.exists]
  constructor
  · rintro (⟨he, hp⟩ | ⟨n, t, v, ⟨he, hp⟩, rfl, rfl, hv⟩)
    · exact .inl ⟨hp, he⟩
    · exact .inr ⟨hp, v, he, hv⟩
  · rintro (⟨hp, he⟩ | ⟨hp, v, he, hv⟩)
    · exact .inl ⟨he, hp⟩
    · exact .inr ⟨name, token, v, ⟨he, hp⟩, rfl, rfl, hv⟩

end Table

namespace Roster

variable {r : Roster α} {T : Table α} {op : Operation α} {name : String} {token : Token}
  {value : α}

/-- Makes a change; the answer is the value that was found. -/
def apply (r : Roster α) : Operation α → Option α × Roster α
  | .put name token value => r.put name token value
  | .remove name => r.remove name
  | .removeByToken token => r.removeByToken token
  | .modify name f => (r.get? name, r.modify name f)
  | .modifyByToken token f => (r.getByToken? token, r.modifyByToken token f)
  | .mapValues f => (none, r.mapValues f)

/-- The roster that a row of operations makes of the empty one. -/
def run (ops : List (Operation α)) : Roster α := ops.foldl (fun r op => (r.apply op).2) empty

/-- The entries of the roster are the rows of the table. -/
structure Refines (r : Roster α) (T : Table α) : Prop where
  coherent : r.Coherent
  byName_iff : ∀ (name : String) (token : Token) (value : α),
    r.byName[name]? = some (token, value) ↔ (name, token, value) ∈ T

section Steps

theorem Coherent.apply (h : r.Coherent) (op : Operation α) : (r.apply op).2.Coherent := by
  cases op with
  | put => exact h.enter
  | remove => exact h.remove
  | removeByToken => exact h.removeByToken
  | modify => exact h.modify
  | modifyByToken => exact h.modifyByToken
  | mapValues => exact h.mapValues

theorem refines_empty : (empty : Roster α).Refines ∅ :=
  ⟨coherent_empty, fun _ _ _ => by simp [empty]⟩

/-- A token leads to the name in its row. -/
theorem Refines.nameOf_iff (h : r.Refines T) :
    r.nameOf[token]? = some name ↔ ∃ value : α, (name, token, value) ∈ T := by
  simp only [h.coherent token name, h.byName_iff]

theorem Refines.unique (h : r.Refines T) : T.Unique := by
  rintro ⟨n, t, v⟩ he ⟨n', t', v'⟩ he' hk
  have hn : n = n' := by
    rcases hk with hn | ht
    · exact hn
    · obtain rfl : t = t' := ht
      exact Option.some.inj ((h.nameOf_iff.mpr ⟨v, he⟩).symm.trans (h.nameOf_iff.mpr ⟨v', he'⟩))
  subst hn
  have hb := ((h.byName_iff ..).mpr he).symm.trans ((h.byName_iff ..).mpr he')
  rw [Option.some.inj hb]

/-- Changing the values of entries revises their rows. -/
theorem Refines.revise (h : r.Refines T) {r' : Roster α} (hc : r'.Coherent)
    {p : String → Token → Prop} [∀ n t, Decidable (p n t)] {f : α → α}
    (hb : ∀ n : String, r'.byName[n]? =
      r.byName[n]?.map fun e => (e.1, if p n e.1 then f e.2 else e.2)) :
    r'.Refines (T.revise p f) := by
  refine ⟨hc, fun n t v => ?_⟩
  simp only [hb, Table.mem_revise, ← h.byName_iff, Option.map_eq_some_iff, Prod.exists,
    Prod.mk.injEq]
  by_cases hp : p n t
  · constructor
    · rintro ⟨t', w, he, rfl, hv⟩
      exact .inr ⟨hp, w, he, (if_pos hp).symm.trans hv⟩
    · rintro (⟨hn, -⟩ | ⟨-, w, he, hv⟩)
      · exact absurd hp hn
      · exact ⟨t, w, he, rfl, (if_pos hp).trans hv⟩
  · constructor
    · rintro ⟨t', w, he, rfl, hv⟩
      rw [if_neg hp] at hv
      exact .inl ⟨hp, hv ▸ he⟩
    · rintro (⟨-, he⟩ | ⟨hn, -⟩)
      · exact ⟨t, v, he, rfl, if_neg hp⟩
      · exact absurd hn hp

/-- Freeing a token drops the rows with this token. -/
theorem Coherent.freed_eq_some_iff (h : r.Coherent) {t : Token} :
    (if r.nameOf[token]? = some name then none else r.byName[name]?) = some (t, value) ↔
      r.byName[name]? = some (t, value) ∧ t ≠ token := by
  constructor
  · intro he
    split at he
    · cases he
    · rename_i hne
      exact ⟨he, fun ht => hne (ht ▸ h.nameOf_of_byName he)⟩
  · rintro ⟨he, ht⟩
    rw [if_neg (h.nameOf_ne he ht), he]

theorem Refines.apply (h : r.Refines T) (op : Operation α) :
    (r.apply op).2.Refines (T.apply op) := by
  have hc := h.coherent.apply op
  cases op with
  | put name token value =>
    refine ⟨hc, fun n t v => ?_⟩
    have hb : (r.apply (.put name token value)).2.byName[n]? = _ := byName_enter
    simp only [hb, Table.apply, Set.mem_insert_iff, Set.mem_ofPred_eq, ← h.byName_iff]
    by_cases hn : n = name
    · simp [hn, eq_comm]
    · simp [hn, h.coherent.freed_eq_some_iff]
  | remove name =>
    refine ⟨hc, fun n t v => ?_⟩
    simp only [Roster.apply, Table.apply, Set.mem_ofPred_eq, byName_remove, ← h.byName_iff]
    by_cases hn : n = name <;> simp [hn]
  | removeByToken token =>
    refine ⟨hc, fun n t v => ?_⟩
    simp only [Roster.apply, Table.apply, Set.mem_ofPred_eq, byName_removeByToken,
      h.coherent.freed_eq_some_iff, ← h.byName_iff]
  | modify name f =>
    refine h.revise hc (p := fun n _ => n = name) fun n => ?_
    simp only [Roster.apply, byName_modify]
    split
    · rfl
    · simp
  | modifyByToken token f =>
    refine h.revise hc (p := fun _ t => t = token) fun n => ?_
    simp only [Roster.apply, byName_modifyByToken]
    cases he : r.byName[n]? with
    | none => simp
    | some e =>
      by_cases ht : e.1 = token
      · simp [h.coherent.nameOf_eq_iff he, ht, Prod.map]
      · simp [h.coherent.nameOf_eq_iff he, ht, Ne.symm ht]
  | mapValues f =>
    refine h.revise hc (p := fun _ _ => True) fun n => ?_
    simp only [Roster.apply, byName_mapValues]
    rfl

theorem refines_run (ops : List (Operation α)) : (run ops).Refines (Table.run ops) := by
  have hrun {r : Roster α} {T : Table α} (h : r.Refines T) :
      (ops.foldl (fun r op => (r.apply op).2) r).Refines (ops.foldl Table.apply T) := by
    induction ops generalizing r T with
    | nil => exact h
    | cons op ops ih => exact ih (h.apply op)
  exact hrun refines_empty

end Steps

section Looks

theorem Refines.gives_get? (h : r.Refines T) (name : String) :
    T.Gives (·.1 = name) (r.get? name) := by
  intro v
  simp [get?_eq_some_iff, h.byName_iff]

theorem Refines.gives_getByToken? (h : r.Refines T) (token : Token) :
    T.Gives (·.2.1 = token) (r.getByToken? token) := by
  intro v
  simp [h.coherent.getByToken?_eq_some_iff, h.byName_iff]

theorem fst_put : (r.put name token value).1 = r.get? name := by
  simp [put, get?, byName_free]

theorem fst_remove : (r.remove name).1 = r.get? name := by
  unfold remove get?
  cases r.byName[name]? <;> rfl

/-- A removal that finds nothing changes nothing. -/
theorem Coherent.eq_of_removes (h : r.Coherent) (hop : op.Removes) (ha : (r.apply op).1 = none) :
    (r.apply op).2 = r := by
  cases op with
  | remove name =>
    simp only [Roster.apply, Roster.remove] at ha ⊢
    split at ha
    · cases ha
    · rfl
  | removeByToken token =>
    simp only [Roster.apply, Roster.removeByToken] at ha ⊢
    split at ha
    · rename_i name ht
      obtain ⟨v, hv⟩ := (h token name).mp ht
      rw [get?_eq_some_iff.mpr ⟨token, hv⟩] at ha
      cases ha
    · rfl
  | _ => cases hop

theorem Refines.gives_apply (h : r.Refines T) (op : Operation α) :
    T.Gives op.LooksFor (r.apply op).1 := by
  cases op with
  | put name token value => exact fst_put ▸ h.gives_get? name
  | remove name => exact fst_remove ▸ h.gives_get? name
  | removeByToken token => exact fst_removeByToken ▸ h.gives_getByToken? token
  | modify name f => exact h.gives_get? name
  | modifyByToken token f => exact h.gives_getByToken? token
  | mapValues f => intro v; simp [Roster.apply, Operation.LooksFor]

theorem increasing_toList (r : Roster α) : r.toList.Pairwise fun e e' => e.1 < e'.1 :=
  (Std.ExtTreeMap.ordered_keys_toList (t := r.byName)).imp fun {a b} hlt =>
    (compareOfLessAndEq_eq_lt (x := a.1) (y := b.1)).mp hlt

theorem Refines.mem_toList (h : r.Refines T) (e : Row α) : e ∈ r.toList ↔ e ∈ T := by
  obtain ⟨n, t, v⟩ := e
  rw [toList, Std.ExtTreeMap.mem_toList_iff_getElem?_eq_some, h.byName_iff]

end Looks

/-- Every look at the roster shows the rows of the table: lookups find the rows with a name or a
token, and the lists have each row once, in the order of the names. -/
structure Shows (r : Roster α) (T : Table α) : Prop where
  unique : T.Unique
  get : ∀ name : String, T.Gives (·.1 = name) (r.get? name)
  getByToken : ∀ token : Token, T.Gives (·.2.1 = token) (r.getByToken? token)
  containsToken : ∀ token : Token, r.containsToken token = true ↔ ∃ e ∈ T, e.2.1 = token
  mem_toList : ∀ e : Row α, e ∈ r.toList ↔ e ∈ T
  increasing : r.toList.Pairwise fun e e' => e.1 < e'.1
  size : r.size = r.toList.length
  values : r.values = r.toList.map (·.2.2)
  valueAt : ∀ k : Nat, r.valueAt? k = r.toList[k]?.map (·.2.2)

theorem Refines.shows (h : r.Refines T) : r.Shows T where
  unique := h.unique
  get := h.gives_get?
  getByToken := h.gives_getByToken?
  containsToken token := by
    simp only [h.coherent.containsToken_iff, h.gives_getByToken? token _]
    exact ⟨fun ⟨_, e, he, ht, _⟩ => ⟨e, he, ht⟩, fun ⟨e, he, ht⟩ => ⟨_, e, he, ht, rfl⟩⟩
  mem_toList := h.mem_toList
  increasing := r.increasing_toList
  size := Std.ExtTreeMap.length_toList.symm
  values := rfl
  valueAt k := by rw [valueAt?, values, List.getElem?_map]

/-- Whatever row of operations has made a roster, it shows the table that the same operations have
made. The next operation answers with the value of the row that it looks for; if it is to remove a
row that is not there, it answers nothing and leaves the roster as it is. -/
theorem operations_refine_table (ops : List (Operation α)) :
    (run ops).Shows (Table.run ops) ∧
    ∀ op : Operation α, run (ops ++ [op]) = ((run ops).apply op).2 ∧
      (Table.run ops).Gives op.LooksFor ((run ops).apply op).1 ∧
      (op.Removes → ((run ops).apply op).1 = none → ((run ops).apply op).2 = run ops) := by
  have h := refines_run ops
  refine ⟨h.shows, fun op => ⟨?_, h.gives_apply op, h.coherent.eq_of_removes⟩⟩
  rw [run, List.foldl_append]
  rfl

-- One entry takes the name of a row and the token of another one.
example : (run [.put "a" ⟨1⟩ 1, .put "b" ⟨2⟩ 2, .put "a" ⟨2⟩ 3]).toList = [("a", ⟨2⟩, 3)] := by
  decide +kernel

end Roster
end LinkTrust
