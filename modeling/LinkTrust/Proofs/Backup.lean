import LinkTrust.Proofs.Record

/-! # Records that backups join

A record that has joined another one is not changed by joining it again, whatever has joined in
between. What a row of records adds does not depend on their order, except for the opt-out of a user
who is new, which is the one in the first record that has the user. What is kept of a record that
has nothing to join is what it makes of a blank one, and a record that is kept first and joins later
adds what it would have added at once.
-/

namespace LinkTrust

namespace Record

/-- The record has a verdict on the domain that counts in a backup. -/
def trusts (r : Record) (d : String) : Bool := r.verdicts[d]?.any (·.isRestorable)

/-- The blank record with the name, the token and the flag of a record. -/
def cleared (r : Record) : Record := .blank r.name r.token r.autoVerify

/-- Every verdict of the record counts in a backup. -/
def OnlyTrusts (r : Record) : Prop :=
  ∀ (d : String) (v : Verdict), r.verdicts[d]? = some v → v.isRestorable = true

/-- The records are the same but for their tokens, their flags and their users' opt-outs. -/
structure Matches (r r' : Record) : Prop where
  name_eq : r.name = r'.name
  verdicts_eq : r.verdicts = r'.verdicts
  users_iff : ∀ u : UserId, u ∈ r.selections ↔ u ∈ r'.selections
  hosts_eq : ∀ u : UserId, (r.selection u).hosts = (r'.selection u).hosts

end Record

namespace Backup

variable {r r' e e' : Record} {l l' : List Record} {d : String} {u : UserId}

section Merge

theorem getElem?_verdicts_merge : (merge r e).verdicts[d]? =
    if (r.verdicts.get d).code = 0 ∧ e.trusts d = true then some .restored else r.verdicts[d]? := by
  simp only [merge, getElem?_mergeVerdicts, Record.trusts, Option.any_eq_true]

theorem mem_selections_merge :
    u ∈ (merge r e).selections ↔ u ∈ r.selections ∨ u ∈ e.selections := by
  simp [merge, mergeSelections]

theorem hosts_merge :
    ((merge r e).selection u).hosts = (r.selection u).hosts ∪ (e.selection u).hosts := by
  simp only [Record.selection, merge, getElem?_mergeSelections]
  ext h
  cases r.selections[u]? <;> cases e.selections[u]? <;>
    simp [Selection.enable, Selection.empty, Std.ExtTreeSet.mem_union_iff]

/-- A user who is there already keeps the opt-out. -/
theorem optedOut_merge (hu : u ∈ r.selections) :
    ((merge r e).selection u).optedOut = (r.selection u).optedOut := by
  rw [Std.ExtTreeMap.mem_iff_isSome_getElem?] at hu
  obtain ⟨own, ho⟩ := Option.isSome_iff_exists.mp hu
  simp only [Record.selection, merge, getElem?_mergeSelections, ho]
  cases e.selections[u]? <;> rfl

/-- What is without an answer after a merge was so before it, and on both sides. -/
theorem code_merge_eq_zero_iff : ((merge r e).verdicts.get d).code = 0 ↔
    (r.verdicts.get d).code = 0 ∧ ¬e.trusts d = true := by
  rw [Verdicts.get, getElem?_verdicts_merge]
  split
  · rename_i h
    exact iff_of_false (by decide) fun hc => hc.2 h.2
  · rename_i h
    exact ⟨fun hc => ⟨hc, fun ht => h ⟨hc, ht⟩⟩, And.left⟩

/-- What is kept of a record that has nothing to join. -/
theorem coerce_eq_merge (e : Record) : coerce e = merge e.cleared e := by
  have hv : (coerce e).verdicts = (merge e.cleared e).verdicts := by
    apply Std.ExtTreeMap.ext_getElem?
    intro d
    apply Option.ext
    intro v
    rw [getElem?_verdicts_coerce, getElem?_verdicts_merge]
    have hd : e.cleared.verdicts[d]? = none := by
      simp [Record.cleared, Record.blank]
    have hc : (e.cleared.verdicts.get d).code = 0 := by
      simp [Verdicts.get, hd, Verdict.code]
    simp only [hc, hd, true_and, Record.trusts, Option.any_eq_true, Option.ite_none_right_eq_some,
      Option.some.injEq]
    rw [and_comm, eq_comm]
  have hs : (coerce e).selections = (merge e.cleared e).selections := by
    apply Std.ExtTreeMap.ext_getElem?
    intro u
    simp [coerce, merge, getElem?_mergeSelections, Record.cleared, Record.blank]
  calc coerce e
      = ⟨e.name, e.token, e.autoVerify, (coerce e).verdicts, (coerce e).selections⟩ := rfl
    _ = merge e.cleared e := by rw [hv, hs]; rfl

end Merge

section Steps

/-- Takes a verdict of a backup for the answer to a domain that has none. -/
def answer (m : Verdicts) (d : String) (v : Verdict) : Verdicts :=
  if v.isRestorable && (m.get d).agrees .noResponse then m.insert d .restored else m

/-- Takes over a user of a backup, or the hosts of one who is there already. -/
def adopt (m : Selections) (u : UserId) (s : Selection) : Selections :=
  m.insert u (match m[u]? with
    | some own => own.enable s.hosts
    | none => s)

theorem mergeVerdicts_eq_foldl (m m' : Verdicts) : mergeVerdicts m m' = m'.foldl answer m := by
  let g (w? : Option Verdict) (v : Verdict) : Option Verdict :=
    if v.isRestorable && (w?.getD .noResponse).agrees .noResponse then some .restored else w?
  have hg : ∀ m k v j, (answer m k v)[j]? = if k = j then g m[j]? v else m[j]? := by
    intro m k v j
    unfold answer
    split <;> rename_i hc <;> by_cases hk : k = j <;>
      simp_all [Std.ExtTreeMap.getElem?_insert, Verdicts.get, g]
  apply Std.ExtTreeMap.ext_getElem?
  intro d
  rw [Collections.getElem?_foldl hg, getElem?_mergeVerdicts]
  have h₀ : Verdict.noResponse.code = 0 := rfl
  cases m'[d]? with
  | none => simp
  | some v =>
    by_cases hr : v.isRestorable = true <;> by_cases hc : (m.get d).code = 0 <;>
      simp_all [g, Verdicts.get]

theorem mergeSelections_eq_foldl (m m' : Selections) :
    mergeSelections m m' = m'.foldl adopt m := by
  let g (own? : Option Selection) (s : Selection) : Option Selection :=
    some (match own? with
      | some own => own.enable s.hosts
      | none => s)
  have hg : ∀ m k s j, (adopt m k s)[j]? = if k = j then g m[j]? s else m[j]? := by
    intro m k s j
    by_cases hk : k = j
    · simp [adopt, g, hk]
    · simp [adopt, hk, Std.ExtTreeMap.getElem?_insert]
  apply Std.ExtTreeMap.ext_getElem?
  intro u
  rw [Collections.getElem?_foldl hg, getElem?_mergeSelections]
  cases m[u]? <;> cases m'[u]? <;> rfl

/-- A merge takes the verdicts of the other record one by one, and then its users. -/
theorem merge_eq_foldl (r e : Record) : merge r e =
    { r with
      verdicts := e.verdicts.foldl answer r.verdicts
      selections := e.selections.foldl adopt r.selections } := by
  rw [merge, mergeVerdicts_eq_foldl, mergeSelections_eq_foldl]

end Steps

section Absorbs

/-- The record has an answer wherever the other one has a trusted verdict, and it has all of the
other's users with their hosts. -/
structure Absorbs (r e : Record) : Prop where
  answered : ∀ d : String, e.trusts d = true → (r.verdicts.get d).code ≠ 0
  users : ∀ u ∈ e.selections, u ∈ r.selections
  hosts : ∀ u : UserId, ∀ h ∈ (e.selection u).hosts, h ∈ (r.selection u).hosts

/-- A record that is absorbed changes nothing. -/
theorem Absorbs.merge_eq (h : Absorbs r e) : merge r e = r := by
  have hv : (merge r e).verdicts = r.verdicts := by
    apply Std.ExtTreeMap.ext_getElem?
    intro d
    rw [getElem?_verdicts_merge, if_neg]
    rintro ⟨hc, ht⟩
    exact h.answered d ht hc
  have hs : (merge r e).selections = r.selections := by
    apply Std.ExtTreeMap.ext_getElem?
    intro u
    have hh := h.hosts u
    have hu := h.users u
    simp only [Std.ExtTreeMap.mem_iff_isSome_getElem?] at hu
    simp only [merge, getElem?_mergeSelections]
    cases ho : r.selections[u]? with
    | none =>
      cases hi : e.selections[u]? with
      | none => rfl
      | some s => simp [ho, hi] at hu
    | some own =>
      cases hi : e.selections[u]? with
      | none => rfl
      | some s =>
        simp only [Record.selection, ho, hi, Option.getD_some] at hh
        have he : own.hosts ∪ s.hosts = own.hosts := by
          ext d
          rw [Std.ExtTreeSet.mem_union_iff]
          exact ⟨fun hd => hd.elim id (hh d), .inl⟩
        exact congrArg (fun hosts => some (Selection.mk own.user hosts own.optedOut)) he
  exact congr (congrArg (Record.mk r.name r.token r.autoVerify) hv) hs

theorem absorbs_merge (r e : Record) : Absorbs (merge r e) e := by
  refine ⟨fun d ht => ?_, fun u hu => mem_selections_merge.mpr (.inr hu), fun u h hh => ?_⟩
  · rw [ne_eq, code_merge_eq_zero_iff]
    exact fun hc => hc.2 ht
  · rw [hosts_merge, Std.ExtTreeSet.mem_union_iff]
    exact .inr hh

theorem Absorbs.merge (h : Absorbs r e) (e' : Record) : Absorbs (merge r e') e := by
  refine ⟨fun d ht => ?_, fun u hu => mem_selections_merge.mpr (.inl (h.users u hu)),
    fun u x hx => ?_⟩
  · rw [ne_eq, code_merge_eq_zero_iff]
    exact fun hc => h.answered d ht hc.1
  · rw [hosts_merge, Std.ExtTreeSet.mem_union_iff]
    exact .inl (h.hosts u x hx)

end Absorbs

section Join

/-- The record after all of a row have joined it, one by one. -/
def join (r : Record) (l : List Record) : Record := l.foldl merge r

@[simp] theorem join_nil : join r [] = r := rfl

@[simp] theorem join_cons : join r (e :: l) = join (merge r e) l := rfl

theorem Absorbs.join (h : Absorbs r e) (l : List Record) : Absorbs (join r l) e := by
  induction l generalizing r with
  | nil => exact h
  | cons e' l ih => exact ih (h.merge e')

theorem absorbs_join (r : Record) : ∀ e ∈ l, Absorbs (join r l) e := by
  induction l generalizing r with
  | nil => simp
  | cons e l ih =>
    rw [List.forall_mem_cons]
    exact ⟨(absorbs_merge r e).join l, ih (merge r e)⟩

theorem join_eq_self (h : ∀ e ∈ l, Absorbs r e) : join r l = r := by
  induction l with
  | nil => rfl
  | cons e l ih =>
    rw [List.forall_mem_cons] at h
    rw [join_cons, h.1.merge_eq, ih h.2]

/-- A row that joins a second time changes nothing. -/
theorem join_join (r : Record) (l : List Record) : join (join r l) l = join r l :=
  join_eq_self (absorbs_join r)

theorem name_join : (join r l).name = r.name := by
  induction l generalizing r with
  | nil => rfl
  | cons e l ih => exact ih

theorem token_join : (join r l).token = r.token := by
  induction l generalizing r with
  | nil => rfl
  | cons e l ih => exact ih

theorem autoVerify_join : (join r l).autoVerify = r.autoVerify := by
  induction l generalizing r with
  | nil => rfl
  | cons e l ih => exact ih

theorem getElem?_verdicts_join : (join r l).verdicts[d]? =
    if (r.verdicts.get d).code = 0 ∧ ∃ e ∈ l, e.trusts d = true then some .restored
    else r.verdicts[d]? := by
  induction l generalizing r with
  | nil => simp
  | cons e l ih =>
    simp only [join_cons, ih, code_merge_eq_zero_iff, getElem?_verdicts_merge, List.mem_cons,
      exists_eq_or_imp]
    by_cases hc : (r.verdicts.get d).code = 0 <;> by_cases ht : e.trusts d = true <;>
      simp [hc, ht]

theorem mem_selections_join :
    u ∈ (join r l).selections ↔ u ∈ r.selections ∨ ∃ e ∈ l, u ∈ e.selections := by
  induction l generalizing r with
  | nil => simp
  | cons e l ih => simp only [join_cons, ih, mem_selections_merge, List.mem_cons,
      exists_eq_or_imp, or_assoc]

theorem mem_hosts_join {h : String} : h ∈ ((join r l).selection u).hosts ↔
    h ∈ (r.selection u).hosts ∨ ∃ e ∈ l, h ∈ (e.selection u).hosts := by
  induction l generalizing r with
  | nil => simp
  | cons e l ih =>
    simp only [join_cons, ih, hosts_merge, Std.ExtTreeSet.mem_union_iff, List.mem_cons,
      exists_eq_or_imp, or_assoc]

theorem optedOut_join (hu : u ∈ r.selections) :
    ((join r l).selection u).optedOut = (r.selection u).optedOut := by
  induction l generalizing r with
  | nil => rfl
  | cons e l ih =>
    rw [join_cons, ih (mem_selections_merge.mpr (.inl hu)), optedOut_merge hu]

/-- The order of a row does not matter, nor does how often a record stands in it. -/
theorem matches_join (h : r.Matches r') (hl : ∀ e, e ∈ l ↔ e ∈ l') :
    (join r l).Matches (join r' l') := by
  refine ⟨?_, ?_, fun u => ?_, fun u => ?_⟩
  · rw [name_join, name_join, h.name_eq]
  · apply Std.ExtTreeMap.ext_getElem?
    intro d
    simp only [getElem?_verdicts_join, h.verdicts_eq, hl]
  · simp only [mem_selections_join, h.users_iff, hl]
  · ext x
    simp only [mem_hosts_join, h.hosts_eq, hl]

end Join

section Trusted

variable {k : Record}

theorem onlyTrusts_coerce (e : Record) : (coerce e).OnlyTrusts := by
  intro d v hv
  obtain ⟨rfl, -⟩ := getElem?_verdicts_coerce.mp hv
  rfl

theorem onlyTrusts_merge (h : k.OnlyTrusts) (e : Record) : (merge k e).OnlyTrusts := by
  intro d v hv
  rw [getElem?_verdicts_merge] at hv
  split at hv
  · cases hv; rfl
  · exact h d v hv

theorem trusts_of_onlyTrusts (h : k.OnlyTrusts) (d : String) :
    k.trusts d = k.verdicts[d]?.isSome := by
  unfold Record.trusts
  cases hv : k.verdicts[d]? with
  | none => rfl
  | some v => exact h d v hv

theorem code_eq_zero_of_onlyTrusts (h : k.OnlyTrusts) (d : String) :
    (k.verdicts.get d).code = 0 ↔ k.trusts d = false := by
  rw [trusts_of_onlyTrusts h, Verdicts.get]
  cases hv : k.verdicts[d]? with
  | none => simp [Verdict.code]
  | some v =>
    have hc := Verdict.isRestorable_iff.mp (h d v hv)
    refine iff_of_false (fun h₀ => ?_) (by simp)
    rw [Option.getD_some] at h₀
    rw [h₀] at hc
    exact absurd hc (by decide)

theorem trusts_coerce : (coerce e).trusts d = e.trusts d := by
  rw [Bool.eq_iff_iff, Record.trusts, Record.trusts, Option.any_eq_true, Option.any_eq_true]
  simp only [getElem?_verdicts_coerce]
  constructor
  · rintro ⟨v, ⟨rfl, w, hw, ht⟩, -⟩
    exact ⟨w, hw, ht⟩
  · rintro ⟨w, hw, ht⟩
    exact ⟨.restored, ⟨rfl, w, hw, ht⟩, rfl⟩

theorem trusts_merge (hk : k.OnlyTrusts) : (merge k e).trusts d = (k.trusts d || e.trusts d) := by
  rw [trusts_of_onlyTrusts (onlyTrusts_merge hk e), getElem?_verdicts_merge]
  simp only [code_eq_zero_of_onlyTrusts hk, trusts_of_onlyTrusts hk]
  cases k.verdicts[d]? <;> by_cases ht : e.trusts d = true <;> simp [ht]

/-- Of a record that joins another one nothing counts but what would be kept of it. -/
theorem merge_coerce (r e : Record) : merge r (coerce e) = merge r e := by
  ext1
  iterate 3 rfl
  · apply Std.ExtTreeMap.ext_getElem?
    intro d
    rw [getElem?_verdicts_merge, getElem?_verdicts_merge, trusts_coerce]
  · rfl

/-- A record with trusted verdicts only may be joined before it joins. -/
theorem merge_merge (hk : k.OnlyTrusts) (r e : Record) :
    merge (merge r k) e = merge r (merge k e) := by
  ext1
  iterate 3 rfl
  · apply Std.ExtTreeMap.ext_getElem?
    intro d
    simp only [getElem?_verdicts_merge, code_merge_eq_zero_iff, trusts_merge hk]
    by_cases hr : (r.verdicts.get d).code = 0 <;> by_cases ht : k.trusts d = true <;>
      by_cases ht' : e.trusts d = true <;> simp [hr, ht, ht']
  · apply Std.ExtTreeMap.ext_getElem?
    intro u
    simp only [merge, getElem?_mergeSelections]
    cases r.selections[u]? with
    | none => cases k.selections[u]? <;> cases e.selections[u]? <;> rfl
    | some own =>
      cases k.selections[u]? with
      | none => cases e.selections[u]? <;> rfl
      | some kept =>
        cases e.selections[u]? with
        | none => rfl
        | some s => exact congrArg some (own.enable_union kept.hosts s.hosts).symm

theorem merge_join (hk : k.OnlyTrusts) (r : Record) (l : List Record) :
    merge r (join k l) = join (merge r k) l := by
  induction l generalizing k with
  | nil => rfl
  | cons e l ih => rw [join_cons, join_cons, ih (onlyTrusts_merge hk e), merge_merge hk]

/-- A row whose first record is kept may be joined before it joins. -/
theorem join_eq_merge_join (r e : Record) (l : List Record) :
    join r (e :: l) = merge r (join (coerce e) l) := by
  rw [merge_join (onlyTrusts_coerce e), merge_coerce, join_cons]

end Trusted
end Backup
end LinkTrust
