import LinkTrust.Domain

/-! # Maps, sets, options and lists of readings

A map or set that is made from the list of its elements is the same again, and the items that go
into a map one by one each change what stands at their key. Of two options that are
related either both have a value or none has. A list that is read item by item has a reading if
every item has one. What each item of a list keeps under a condition is
kept all along the list if all items meet it.
-/

namespace LinkTrust.Collections

section Maps

variable {κ β γ : Type} [Ord κ] [Std.TransOrd κ] [Std.LawfulEqOrd κ]

theorem mem_of_getElem?_ofList {l : List (κ × β)} {k : κ} {b : β}
    (h : (Std.ExtTreeMap.ofList l)[k]? = some b) : (k, b) ∈ l := by
  classical
  let _ : BEq κ := instBEqOfDecidableEq
  rw [Std.ExtTreeMap.ofList_eq_insertMany_empty, Std.ExtTreeMap.getElem?_insertMany_list,
    Std.ExtTreeMap.getElem?_empty, Option.or_none, List.findSomeRev?_eq_findSome?_reverse] at h
  obtain ⟨⟨k', b'⟩, hm, hb⟩ := List.exists_of_findSome?_eq_some h
  simp only [Option.ite_none_right_eq_some, Option.some.injEq] at hb
  obtain ⟨hk, rfl⟩ := hb
  exact Std.LawfulEqCmp.eq_of_compare hk ▸ List.mem_reverse.mp hm

theorem getElem?_ofList_eq_some_iff {l : List (κ × β)} (hl : (l.map Prod.fst).Nodup) {k : κ}
    {b : β} : (Std.ExtTreeMap.ofList l)[k]? = some b ↔ (k, b) ∈ l := by
  refine ⟨mem_of_getElem?_ofList, fun h => ?_⟩
  refine Std.ExtTreeMap.getElem?_ofList_of_mem (Std.ReflCmp.compare_self) ?_ h
  rw [List.nodup_iff_pairwise_ne, List.pairwise_map] at hl
  exact hl.imp fun hne he => hne (Std.LawfulEqCmp.eq_of_compare he)

omit [Std.LawfulEqOrd κ] in
theorem nodup_keys_toList (m : Std.ExtTreeMap κ β) : (m.toList.map Prod.fst).Nodup := by
  rw [Std.ExtTreeMap.map_fst_toList_eq_keys]
  exact Std.ExtTreeMap.nodup_keys

omit [Std.LawfulEqOrd κ] in
theorem nodup_toList (s : Std.ExtTreeSet κ) : s.toList.Nodup := by
  rw [List.nodup_iff_pairwise_ne]
  refine Std.ExtTreeSet.distinct_toList.imp ?_
  rintro k _ hne rfl
  exact hne Std.ReflCmp.compare_self

omit [Std.LawfulEqOrd κ] in
theorem values_eq (m : Std.ExtTreeMap κ β) : m.values = m.toList.map Prod.snd := by
  have hv : m.values = m.foldr (fun _ b l => b :: l) [] := by
    obtain ⟨m⟩ := m
    induction m using Std.ExtDTreeMap.inductionOn with
    | mk m => rfl
  rw [hv, Std.ExtTreeMap.foldr_eq_foldr_toList]
  generalize m.toList = l
  induction l with
  | nil => rfl
  | cons p l ih => simp [ih]

/-- A map that is listed, with each value changed on the way, and made from the list again. -/
theorem ofList_map_toList (m : Std.ExtTreeMap κ β) (f : β → γ) :
    .ofList (m.toList.map fun p => (p.1, f p.2)) = m.map fun _ b => f b := by
  have hl : ((m.toList.map fun p => (p.1, f p.2)).map Prod.fst).Nodup := by
    rw [List.map_map]
    exact nodup_keys_toList m
  apply Std.ExtTreeMap.ext_getElem?
  intro k
  apply Option.ext
  intro c
  rw [getElem?_ofList_eq_some_iff hl, Std.ExtTreeMap.getElem?_map, Option.map_eq_some_iff]
  simp only [List.mem_map, Prod.mk.injEq, Prod.exists,
    Std.ExtTreeMap.mem_toList_iff_getElem?_eq_some]
  constructor
  · rintro ⟨k, b, hb, rfl, rfl⟩; exact ⟨b, hb, rfl⟩
  · rintro ⟨b, hb, rfl⟩; exact ⟨k, b, hb, rfl, rfl⟩

theorem ofList_toList (s : Std.ExtTreeSet κ) : Std.ExtTreeSet.ofList s.toList = s := by
  classical
  let _ : BEq κ := instBEqOfDecidableEq
  apply Std.ExtTreeSet.ext_mem
  intro k
  rw [Std.ExtTreeSet.mem_ofList, List.contains_iff_mem, Std.ExtTreeSet.mem_toList]

end Maps

section Folds

variable {κ β γ : Type} [Ord κ] [Std.TransOrd κ] [Std.LawfulEqOrd κ] [DecidableEq κ]
  {f : Std.ExtTreeMap κ β → κ → γ → Std.ExtTreeMap κ β} {g : Option β → γ → Option β}
  (hf : ∀ m k c j, (f m k c)[j]? = if k = j then g m[j]? c else m[j]?)

include hf

omit [Std.LawfulEqOrd κ] in
theorem getElem?_foldl_of_not_mem {l : List (κ × γ)} {j : κ} (hj : ∀ c : γ, (j, c) ∉ l)
    (m : Std.ExtTreeMap κ β) : (l.foldl (fun m p => f m p.1 p.2) m)[j]? = m[j]? := by
  induction l generalizing m with
  | nil => rfl
  | cons p l ih =>
    obtain ⟨k, c⟩ := p
    have hk : k ≠ j := by rintro rfl; exact hj c List.mem_cons_self
    rw [List.foldl_cons, ih fun c hc => hj c (List.mem_cons_of_mem _ hc), hf, if_neg hk]

/-- Items that go into a map one by one change what stands at their own keys. -/
theorem getElem?_foldl (m : Std.ExtTreeMap κ β) (m' : Std.ExtTreeMap κ γ) (j : κ) :
    (m'.foldl f m)[j]? = (m'[j]?.map (g m[j]?)).getD m[j]? := by
  rw [Std.ExtTreeMap.foldl_eq_foldl_toList]
  cases hc : m'[j]? with
  | none =>
    refine getElem?_foldl_of_not_mem hf (fun c hm => ?_) m
    rw [Std.ExtTreeMap.mem_toList_iff_getElem?_eq_some, hc] at hm
    cases hm
  | some c =>
    -- The key stands once in the list, so neither part beside its item touches it.
    have hn := nodup_keys_toList m'
    obtain ⟨l₁, l₂, hl⟩ := List.append_of_mem
      (Std.ExtTreeMap.mem_toList_iff_getElem?_eq_some.mpr hc)
    rw [hl, List.map_append, List.map_cons, List.nodup_append, List.nodup_cons] at hn
    obtain ⟨-, ⟨hn₂, -⟩, hn₁⟩ := hn
    have h₁ (c' : γ) : (j, c') ∉ l₁ :=
      fun hm => hn₁ j (List.mem_map_of_mem hm) j List.mem_cons_self rfl
    have h₂ (c' : γ) : (j, c') ∉ l₂ :=
      fun hm => hn₂ (List.mem_map.mpr ⟨(j, c'), hm, rfl⟩)
    rw [hl, List.foldl_append, List.foldl_cons, getElem?_foldl_of_not_mem hf h₂, hf, if_pos rfl,
      getElem?_foldl_of_not_mem hf h₁]
    rfl

end Folds

section Options

variable {α β : Type} {R : α → β → Prop} {o : Option α} {o' : Option β} {a : α} {b : β}

theorem rel_map {f : α → β} (h : ∀ a, R a (f a)) (o : Option α) : Option.Rel R o (o.map f) := by
  cases o with
  | none => exact .none
  | some a => exact .some (h a)

theorem exists_right_of_rel (h : Option.Rel R o o') (ha : o = some a) :
    ∃ b, o' = some b ∧ R a b := by
  cases h with
  | none => cases ha
  | some hr => exact ⟨_, rfl, Option.some.inj ha ▸ hr⟩

theorem exists_left_of_rel (h : Option.Rel R o o') (hb : o' = some b) :
    ∃ a, o = some a ∧ R a b := by
  cases h with
  | none => cases hb
  | some hr => exact ⟨_, rfl, Option.some.inj hb ▸ hr⟩

end Options

section Lists

variable {α β γ : Type} {read : α → Option β}

theorem exists_of_mapM_eq_some {l : List α} {l' : List β} (h : l.mapM read = some l') :
    ∀ b ∈ l', ∃ a ∈ l, read a = some b := by
  induction l generalizing l' with
  | nil => cases h; simp
  | cons a l ih =>
    rw [List.mapM_cons] at h
    obtain ⟨b, hb, h⟩ := Option.bind_eq_some_iff.mp h
    obtain ⟨bs, hbs, h⟩ := Option.bind_eq_some_iff.mp h
    cases h
    intro c hc
    rcases List.mem_cons.mp hc with rfl | hc
    · exact ⟨a, List.mem_cons_self .., hb⟩
    · obtain ⟨a', ha', hr⟩ := ih hbs c hc
      exact ⟨a', List.mem_cons_of_mem a ha', hr⟩

theorem mapM_map_eq_some {write : γ → α} {f : γ → β} {l : List γ}
    (h : ∀ c ∈ l, read (write c) = some (f c)) : (l.map write).mapM read = some (l.map f) := by
  induction l with
  | nil => rfl
  | cons c l ih =>
    rw [List.map_cons, List.mapM_cons, h c (List.mem_cons_self ..),
      ih fun c' hc => h c' (List.mem_cons_of_mem c hc)]
    rfl

theorem filter_eq_singleton {κ : Type} [DecidableEq κ] {key : α → κ} {l : List α}
    (hl : (l.map key).Nodup) {a : α} (ha : a ∈ l) : l.filter (fun b => key b = key a) = [a] := by
  induction l with
  | nil => cases ha
  | cons b l ih =>
    rw [List.map_cons, List.nodup_cons] at hl
    obtain ⟨hb, hl⟩ := hl
    rcases List.mem_cons.mp ha with rfl | ha
    · have hn : l.filter (fun b => key b = key a) = [] := by
        rw [List.filter_eq_nil_iff]
        intro b hm he
        exact hb (of_decide_eq_true he ▸ List.mem_map_of_mem hm)
      simp [hn]
    · have hne : key b ≠ key a := fun he => hb (he ▸ List.mem_map_of_mem ha)
      simp [hne, ih hl ha]

/-- What holds of the empty beginning of a list, and of a longer one exactly if its last item meets
a condition, holds of all beginnings exactly if all items meet it. -/
theorem forall_beginnings_iff {J : List α → Prop} {P : List α → α → Prop} {l : List α} (h : J [])
    (step : ∀ earlier a later, l = earlier ++ a :: later → J earlier →
      (J (earlier ++ [a]) ↔ P earlier a)) :
    (∀ earlier later, l = earlier ++ later → J earlier) ↔
      ∀ earlier a later, l = earlier ++ a :: later → P earlier a := by
  constructor
  · intro hJ earlier a later he
    refine (step earlier a later he (hJ earlier _ he)).mp (hJ _ later ?_)
    rw [he, List.append_assoc, List.singleton_append]
  · intro hP earlier
    induction hn : earlier.length generalizing earlier with
    | zero =>
      rw [List.eq_nil_of_length_eq_zero hn]
      exact fun _ _ => h
    | succ n ih =>
      rcases List.eq_nil_or_concat earlier with rfl | ⟨front, a, rfl⟩
      · cases hn
      · intro later he
        rw [List.concat_eq_append] at hn he ⊢
        rw [List.append_assoc, List.singleton_append] at he
        rw [List.length_append, List.length_singleton, Nat.add_right_cancel_iff] at hn
        exact (step front a later he (ih front hn _ he)).mpr (hP front a later he)

end Lists
end LinkTrust.Collections
