import LinkTrust.Roster

/-! # The indices of a roster

What each operation does to the two indices, and that it keeps them in agreement. In a coherent
roster the two indices determine each other.
-/

namespace LinkTrust.Roster

variable {α : Type} {r : Roster α} {name k : String} {token t : Token} {value : α} {f : α → α}

theorem Coherent.nameOf_of_byName (h : r.Coherent) (hn : r.byName[name]? = some (token, value)) :
    r.nameOf[token]? = some name :=
  (h token name).mpr ⟨value, hn⟩

/-- No other token leads to an entry. -/
theorem Coherent.nameOf_ne (h : r.Coherent) (hn : r.byName[name]? = some (token, value))
    (ht : token ≠ t) : r.nameOf[t]? ≠ some name := by
  intro he
  obtain ⟨w, hw⟩ := (h t name).mp he
  exact ht (congrArg Prod.fst (Option.some.inj (hn.symm.trans hw)))

/-- The token of an entry leads to it, and no other one does. -/
theorem Coherent.nameOf_eq_iff (h : r.Coherent) (hn : r.byName[name]? = some (token, value)) :
    r.nameOf[t]? = some name ↔ t = token := by
  constructor
  · intro ht
    exact Classical.byContradiction fun hne => h.nameOf_ne hn (Ne.symm hne) ht
  · rintro rfl
    exact h.nameOf_of_byName hn

/-- The names under which a token stands are determined by the entries. -/
theorem Coherent.ext {r' : Roster α} (h : r.Coherent) (h' : r'.Coherent)
    (he : r.byName = r'.byName) : r = r' := by
  have hi : r.nameOf = r'.nameOf := by
    apply Std.ExtTreeMap.ext_getElem?
    intro t
    apply Option.ext
    intro n
    rw [h, h', he]
  cases r
  cases r'
  exact congr (congrArg mk he) hi

section Enter

theorem byName_free : (r.free name token).byName[k]? =
    if r.nameOf[token]? = some k ∧ k ≠ name then none else r.byName[k]? := by
  unfold free
  cases hn : r.nameOf[token]? with
  | none => simp
  | some other =>
    by_cases ho : other = name
    · subst ho
      by_cases hk : other = k <;> simp [hk]
    · by_cases hk : other = k
      · subst hk; simp [ho]
      · simp [ho, hk, Std.ExtTreeMap.getElem?_erase]

@[simp] theorem nameOf_free : (r.free name token).nameOf = r.nameOf := by
  unfold free
  split
  · split <;> rfl
  · rfl

theorem byName_enter : (r.enter name token value).byName[k]? =
    if k = name then some (token, value)
    else if r.nameOf[token]? = some k then none else r.byName[k]? := by
  simp only [enter, put, Std.ExtTreeMap.getElem?_insert, byName_free,
    Std.LawfulEqCmp.compare_eq_iff_eq]
  by_cases hk : name = k
  · simp [hk]
  · simp [hk, Ne.symm hk]

theorem nameOf_enter (h : r.Coherent) : (r.enter name token value).nameOf[t]? =
    if t = token then some name
    else if r.nameOf[t]? = some name then none else r.nameOf[t]? := by
  simp only [enter, put, Std.ExtTreeMap.getElem?_insert, nameOf_free, byName_free, ne_eq,
    not_true_eq_false, and_false, if_false, Std.LawfulEqCmp.compare_eq_iff_eq]
  by_cases ht : token = t
  · simp [ht]
  · simp only [ht, Ne.symm ht, if_false]
    cases hn : r.byName[name]? with
    | none =>
      have hm : r.nameOf[t]? ≠ some name := by
        intro he
        obtain ⟨v, hv⟩ := (h t name).mp he
        simp [hn] at hv
      simp [hm]
    | some p =>
      obtain ⟨old, v⟩ := p
      have hm : r.nameOf[t]? = some name ↔ old = t := (h.nameOf_eq_iff hn).trans eq_comm
      by_cases hot : old = token
      · subst hot; simp [hm, ht]
      · simp [hm, hot, Std.ExtTreeMap.getElem?_erase]

theorem Coherent.enter (h : r.Coherent) : (r.enter name token value).Coherent := by
  intro t n
  rw [nameOf_enter h, byName_enter]
  by_cases ht : t = token <;> by_cases hn : n = name
  · subst ht hn; simp
  · subst ht
    simp only [if_true, hn, if_false, Option.some.injEq, Ne.symm hn, false_iff, not_exists]
    intro v
    split
    · simp
    · rename_i hne
      exact fun hv => hne (h.nameOf_of_byName hv)
  · subst hn
    simp only [ht, if_false, if_true, Option.some.injEq, Prod.mk.injEq, Ne.symm ht, false_and,
      exists_false, iff_false]
    split
    · simp
    · assumption
  · simp only [ht, hn, if_false]
    constructor
    · intro he
      split at he
      · cases he
      · obtain ⟨v, hv⟩ := (h t n).mp he
        exact ⟨v, by rw [if_neg (h.nameOf_ne hv ht), hv]⟩
    · rintro ⟨v, hv⟩
      split at hv
      · cases hv
      · have he := h.nameOf_of_byName hv
        rw [he, if_neg]
        simpa using hn

end Enter

section Remove

theorem byName_remove : (r.remove name).2.byName[k]? = if k = name then none else r.byName[k]? := by
  unfold remove
  cases hn : r.byName[name]? with
  | none => by_cases hk : k = name <;> simp [hk, hn]
  | some p =>
    by_cases hk : k = name
    · simp [hk]
    · simp [hk, Ne.symm hk, Std.ExtTreeMap.getElem?_erase]

theorem nameOf_remove (h : r.Coherent) : (r.remove name).2.nameOf[t]? =
    if r.nameOf[t]? = some name then none else r.nameOf[t]? := by
  unfold remove
  cases hn : r.byName[name]? with
  | none =>
    have hm : r.nameOf[t]? ≠ some name := by simp [h t name, hn]
    simp [hm]
  | some p =>
    obtain ⟨old, v⟩ := p
    have hm : r.nameOf[t]? = some name ↔ old = t := (h.nameOf_eq_iff hn).trans eq_comm
    simp [hm, Std.ExtTreeMap.getElem?_erase]

theorem Coherent.remove (h : r.Coherent) : (r.remove name).2.Coherent := by
  intro t n
  rw [nameOf_remove h, byName_remove]
  by_cases hn : n = name
  · subst hn; simp
  · have hm : (if r.nameOf[t]? = some name then none else r.nameOf[t]?) = some n ↔
        r.nameOf[t]? = some n := by
      split
      · rename_i he; simp [he, Ne.symm hn]
      · rfl
    rw [hm, h t n, if_neg hn]

theorem byName_removeByToken : (r.removeByToken token).2.byName[k]? =
    if r.nameOf[token]? = some k then none else r.byName[k]? := by
  unfold removeByToken
  cases r.nameOf[token]? with
  | none => simp
  | some n => simp [Std.ExtTreeMap.getElem?_erase]

theorem nameOf_removeByToken : (r.removeByToken token).2.nameOf[t]? =
    if t = token then none else r.nameOf[t]? := by
  unfold removeByToken
  cases hn : r.nameOf[token]? with
  | none => by_cases ht : t = token <;> simp [ht, hn]
  | some n =>
    by_cases ht : t = token
    · simp [ht]
    · simp [ht, Ne.symm ht, Std.ExtTreeMap.getElem?_erase]

theorem fst_removeByToken : (r.removeByToken token).1 = r.getByToken? token := by
  unfold removeByToken getByToken?
  cases r.nameOf[token]? <;> rfl

theorem Coherent.removeByToken (h : r.Coherent) : (r.removeByToken token).2.Coherent := by
  intro t n
  rw [nameOf_removeByToken, byName_removeByToken]
  by_cases ht : t = token
  · subst ht
    by_cases hn : r.nameOf[t]? = some n
    · simp [hn]
    · simpa [hn] using mt (h t n).mpr hn
  · by_cases hn : r.nameOf[token]? = some n
    · obtain ⟨v, hv⟩ := (h token n).mp hn
      simp [ht, hn, h t n, hv, Ne.symm ht]
    · simp [ht, hn, h t n]

end Remove

section Modify

/-- Changing values leaves the entries' tokens alone, and with them the agreement. -/
theorem Coherent.of_map (h : r.Coherent) {r' : Roster α} (hi : r'.nameOf = r.nameOf)
    {g : String → α → α} (hb : ∀ k, r'.byName[k]? = r.byName[k]?.map (Prod.map id (g k))) :
    r'.Coherent := by
  intro t n
  rw [hi, h t n, hb]
  constructor
  · rintro ⟨v, hv⟩
    exact ⟨g n v, by simp [hv]⟩
  · rintro ⟨v, hv⟩
    obtain ⟨⟨u, w⟩, hw, he⟩ := Option.map_eq_some_iff.mp hv
    cases he
    exact ⟨w, hw⟩

theorem byName_modify : (r.modify name f).byName[k]? =
    if k = name then r.byName[k]?.map (Prod.map id f) else r.byName[k]? := by
  simp only [modify, Std.ExtTreeMap.getElem?_modify, Std.LawfulEqCmp.compare_eq_iff_eq]
  by_cases hk : name = k
  · subst hk; simp; rfl
  · simp [hk, Ne.symm hk]

theorem Coherent.modify (h : r.Coherent) : (r.modify name f).Coherent := by
  refine h.of_map rfl (g := fun k => if k = name then f else id) fun k => ?_
  rw [byName_modify]
  split <;> simp

theorem byName_modifyByToken : (r.modifyByToken token f).byName[k]? =
    if r.nameOf[token]? = some k then r.byName[k]?.map (Prod.map id f) else r.byName[k]? := by
  unfold modifyByToken
  cases r.nameOf[token]? with
  | none => simp
  | some n => simp [byName_modify, eq_comm]

theorem Coherent.modifyByToken (h : r.Coherent) : (r.modifyByToken token f).Coherent := by
  unfold Roster.modifyByToken
  split
  · exact h.modify
  · exact h

theorem byName_mapValues :
    (r.mapValues f).byName[k]? = r.byName[k]?.map (Prod.map id f) := by
  simp only [mapValues, Std.ExtTreeMap.getElem?_map]
  rfl

theorem Coherent.mapValues (h : r.Coherent) : (r.mapValues f).Coherent :=
  h.of_map rfl (g := fun _ => f) fun _ => byName_mapValues

/-- A change of all values passes a change of one value that it turns into another one. -/
theorem mapValues_modify {g e : α → α} (h : ∀ v, g (f v) = e (g v)) :
    (r.modify name f).mapValues g = (r.mapValues g).modify name e := by
  have hb : ((r.modify name f).mapValues g).byName = ((r.mapValues g).modify name e).byName := by
    apply Std.ExtTreeMap.ext_getElem?
    intro k
    rw [byName_mapValues, byName_modify, byName_modify, byName_mapValues]
    split
    · cases r.byName[k]? with
      | none => rfl
      | some p => exact congrArg (fun v => some (p.1, v)) (h p.2)
    · rfl
  exact congrArg (mk · r.nameOf) hb

theorem mapValues_modifyByToken {g e : α → α} (h : ∀ v, g (f v) = e (g v)) :
    (r.modifyByToken token f).mapValues g = (r.mapValues g).modifyByToken token e := by
  have hi : (r.mapValues g).nameOf = r.nameOf := rfl
  unfold modifyByToken
  rw [hi]
  split
  · exact mapValues_modify h
  · rfl

theorem modify_id : r.modify name id = r := by
  have hb : (r.modify name id).byName = r.byName := by
    apply Std.ExtTreeMap.ext_getElem?
    intro k
    rw [byName_modify]
    simp
  exact congrArg (mk · r.nameOf) hb

theorem modifyByToken_id : r.modifyByToken token id = r := by
  unfold modifyByToken
  split
  · exact modify_id
  · rfl

end Modify

section Others

/-- Entering a value under another name and another token leaves an entry alone. -/
theorem Coherent.byName_enter_of_ne (h : r.Coherent) {v : α} (hk : r.byName[k]? = some (t, v))
    (hn : k ≠ name) (ht : t ≠ token) : (r.enter name token value).byName[k]? = some (t, v) := by
  rw [byName_enter, if_neg hn, if_neg (h.nameOf_ne hk ht), hk]

theorem Coherent.byName_removeByToken_of_ne (h : r.Coherent) {v : α}
    (hk : r.byName[k]? = some (t, v)) (ht : t ≠ token) :
    (r.removeByToken token).2.byName[k]? = some (t, v) := by
  rw [byName_removeByToken, if_neg (h.nameOf_ne hk ht), hk]

theorem byName_of_enter {p : Token × α} (h : (r.enter name token value).byName[k]? = some p)
    (hk : k ≠ name) : r.byName[k]? = some p := by
  rw [byName_enter, if_neg hk] at h
  split at h
  · cases h
  · exact h

theorem byName_of_removeByToken {p : Token × α}
    (h : (r.removeByToken token).2.byName[k]? = some p) : r.byName[k]? = some p := by
  rw [byName_removeByToken] at h
  split at h
  · cases h
  · exact h

end Others

section Contains

theorem contains_eq_isSome : r.contains k = r.byName[k]?.isSome :=
  Std.ExtTreeMap.contains_eq_isSome_getElem?

@[simp] theorem contains_enter_self : (r.enter name token value).contains name = true := by
  simp [contains_eq_isSome, byName_enter]

theorem contains_of_enter (h : (r.enter name token value).contains k = true) (hk : k ≠ name) :
    r.contains k = true := by
  rw [contains_eq_isSome, Option.isSome_iff_exists] at h ⊢
  exact h.imp fun p hp => byName_of_enter hp hk

theorem contains_of_remove (h : (r.remove name).2.contains k = true) : r.contains k = true := by
  rw [contains_eq_isSome, byName_remove] at h
  rw [contains_eq_isSome]
  split at h
  · cases h
  · exact h

theorem contains_of_removeByToken (h : (r.removeByToken token).2.contains k = true) :
    r.contains k = true := by
  rw [contains_eq_isSome, Option.isSome_iff_exists] at h ⊢
  exact h.imp fun p hp => byName_of_removeByToken hp

@[simp] theorem contains_modify : (r.modify name f).contains k = r.contains k := by
  rw [contains_eq_isSome, contains_eq_isSome, byName_modify]
  split
  · exact Option.isSome_map
  · rfl

@[simp] theorem contains_modifyByToken : (r.modifyByToken token f).contains k = r.contains k := by
  unfold modifyByToken
  split
  · exact contains_modify
  · rfl

@[simp] theorem contains_mapValues : (r.mapValues f).contains k = r.contains k := by
  rw [contains_eq_isSome, contains_eq_isSome, byName_mapValues]
  exact Option.isSome_map

end Contains

section Lookup

theorem get?_eq_some_iff :
    r.get? name = some value ↔ ∃ t : Token, r.byName[name]? = some (t, value) := by
  simp [get?]

theorem getByToken?_eq_some_iff : r.getByToken? token = some value ↔
    ∃ n : String, r.nameOf[token]? = some n ∧ r.get? n = some value := by
  simp [getByToken?, Option.bind_eq_some_iff]

theorem Coherent.getByToken?_eq_some_iff (h : r.Coherent) :
    r.getByToken? token = some value ↔ ∃ n : String, r.byName[n]? = some (token, value) := by
  rw [Roster.getByToken?_eq_some_iff]
  constructor
  · rintro ⟨n, ht, hn⟩
    obtain ⟨u, hu⟩ := get?_eq_some_iff.mp hn
    obtain ⟨v, hv⟩ := (h token n).mp ht
    obtain ⟨rfl, rfl⟩ := Prod.mk.inj (Option.some.inj (hu.symm.trans hv))
    exact ⟨n, hu⟩
  · rintro ⟨n, hn⟩
    exact ⟨n, h.nameOf_of_byName hn, get?_eq_some_iff.mpr ⟨token, hn⟩⟩

theorem Coherent.containsToken_iff (h : r.Coherent) :
    r.containsToken token = true ↔ ∃ v : α, r.getByToken? token = some v := by
  simp only [h.getByToken?_eq_some_iff, containsToken, Std.ExtTreeMap.contains_eq_isSome_getElem?,
    Option.isSome_iff_exists, h token]
  exact exists_comm

theorem contains_iff :
    r.contains name = true ↔ ∃ (t : Token) (v : α), r.byName[name]? = some (t, v) := by
  rw [contains, Std.ExtTreeMap.contains_eq_isSome_getElem?, Option.isSome_iff_exists, Prod.exists]

theorem mem_values_iff :
    value ∈ r.values ↔ ∃ (n : String) (t : Token), r.byName[n]? = some (t, value) := by
  simp [values, toList, Std.ExtTreeMap.mem_toList_iff_getElem?_eq_some]

end Lookup
end LinkTrust.Roster
