import LinkTrust.Text.Blank
import Mathlib.Data.List.DropRight
import Mathlib.Tactic.MkIffOfInductiveProp

/-! # Trimmed texts and lists

A text is trimmed if it has no blanks at its ends. Trimming gives such a text and leaves one as it
is; what stands around the text is lost, and nothing else. Trimming and the change to small letters
do not interfere. The items of a text are what stands trimmed between its commas, and of a text that
is written as a list of items they are those items.
-/

namespace LinkTrust.Text

variable {cs core before after : List Char} {c : Char}

section Letters

theorem capital_iff : c.val ≥ 'A'.val ∧ c.val ≤ 'Z'.val ↔ 65 ≤ c.toNat ∧ c.toNat ≤ 90 := by
  simp [UInt32.le_iff_toNat_le, ← Char.toNat_val]

theorem isUpper_iff : c.isUpper = true ↔ 65 ≤ c.toNat ∧ c.toNat ≤ 90 :=
  decide_eq_true_iff.trans capital_iff

theorem toNat_toLower (c : Char) : c.toLower.toNat =
    if 65 ≤ c.toNat ∧ c.toNat ≤ 90 then c.toNat + 32 else c.toNat := by
  have hd : ('a'.val - 'A'.val).toNat = 32 := rfl
  by_cases h : 65 ≤ c.toNat ∧ c.toNat ≤ 90
  · have hv : c.toLower.val = c.val + ('a'.val - 'A'.val) :=
      congrArg Char.val (dif_pos (capital_iff.mpr h))
    rw [if_pos h, ← Char.toNat_val, hv, UInt32.toNat_add, hd, Char.toNat_val]
    omega
  · have hv : c.toLower = c := dif_neg (mt capital_iff.mp h)
    rw [if_neg h, hv]

theorem toLower_toLower (c : Char) : c.toLower.toLower = c.toLower := by
  rw [← Char.toNat_inj, toNat_toLower, toNat_toLower]
  split
  · rw [if_neg (by omega)]
  · rfl

theorem isUpper_toLower (c : Char) : c.toLower.isUpper = false := by
  rw [← Bool.not_eq_true, isUpper_iff, toNat_toLower]
  split <;> omega

/-- A letter is blank in neither case. -/
theorem isBlank_toLower (c : Char) : isBlank c.toLower = isBlank c := by
  simp only [isBlank, toNat_toLower]
  split
  · rw [Bool.eq_iff_iff]
    simp only [Bool.or_eq_true, Bool.and_eq_true, decide_eq_true_eq, beq_iff_eq]
    omega
  · rfl

theorem map_toLower_map_toLower (cs : List Char) :
    (cs.map Char.toLower).map Char.toLower = cs.map Char.toLower := by
  rw [List.map_map]
  exact List.map_congr_left fun c _ => toLower_toLower c

end Letters

section Trimming

/-- The text neither begins nor ends with a blank. -/
structure IsTrimmed (cs : List Char) : Prop where
  first : ∀ c ∈ cs.head?, isBlank c = false
  last : ∀ c ∈ cs.getLast?, isBlank c = false

/-- Every character is blank. -/
def IsBlank (cs : List Char) : Prop := ∀ c ∈ cs, isBlank c = true

/-- The text is another one with blanks around it. -/
def Padded (core cs : List Char) : Prop :=
  ∃ before after : List Char, IsBlank before ∧ IsBlank after ∧ cs = before ++ core ++ after

theorem trim_eq (cs : List Char) : trim cs = (cs.dropWhile isBlank).rdropWhile isBlank := rfl

theorem isTrimmed_iff : IsTrimmed cs ↔ trim cs = cs := by
  constructor
  · intro h
    have hd : cs.dropWhile isBlank = cs := by
      rw [List.dropWhile_eq_self_iff]
      intro hl
      rw [h.first _ (List.head?_eq_getElem? ▸ List.getElem?_eq_getElem hl)]
      exact Bool.false_ne_true
    have hr : cs.rdropWhile isBlank = cs := by
      rw [List.rdropWhile_eq_self_iff]
      intro hl
      rw [h.last _ (List.getLast_mem_getLast? hl)]
      exact Bool.false_ne_true
    rw [trim_eq, hd, hr]
  · intro h
    have hp : trim cs <+: cs.dropWhile isBlank := List.rdropWhile_prefix ..
    have hs : cs.dropWhile isBlank <:+ cs := List.dropWhile_suffix ..
    have hl : cs.length ≤ (cs.dropWhile isBlank).length := by simpa only [h] using hp.length_le
    have hd : cs.dropWhile isBlank = cs := hs.eq_of_length (Nat.le_antisymm hs.length_le hl)
    have hr : cs.rdropWhile isBlank = cs := by rwa [trim_eq, hd] at h
    refine ⟨fun c hc => ?_, fun c hc => ?_⟩
    · obtain ⟨l, rfl⟩ := List.head?_eq_some_iff.mp hc
      simpa using List.dropWhile_eq_self_iff.mp hd
    · obtain ⟨l, rfl⟩ := List.getLast?_eq_some_iff.mp hc
      simpa using List.rdropWhile_eq_self_iff.mp hr

instance (cs : List Char) : Decidable (IsTrimmed cs) := decidable_of_iff _ isTrimmed_iff.symm

theorem trim_trim (cs : List Char) : trim (trim cs) = trim cs := by
  have hp : trim cs <+: cs.dropWhile isBlank := List.rdropWhile_prefix ..
  have hd : (trim cs).dropWhile isBlank = trim cs := by
    rw [List.dropWhile_eq_self_iff]
    intro hl
    rw [hp.getElem hl]
    exact List.dropWhile_get_zero_not isBlank cs _
  rw [trim_eq (trim cs), hd]
  exact List.rdropWhile_idempotent ..

theorem isTrimmed_trim (cs : List Char) : IsTrimmed (trim cs) := isTrimmed_iff.mpr (trim_trim cs)

theorem trim_map_toLower (cs : List Char) :
    trim (cs.map Char.toLower) = (trim cs).map Char.toLower := by
  have hb : isBlank ∘ Char.toLower = isBlank := funext isBlank_toLower
  have hd (l : List Char) : (l.map Char.toLower).dropWhile isBlank =
      (l.dropWhile isBlank).map Char.toLower := by
    rw [List.dropWhile_map, hb]
  simp only [trim, trimStart, hd, ← List.map_reverse]

theorem rdropWhile_append_of_isBlank (h : IsBlank after) (cs : List Char) :
    (cs ++ after).rdropWhile isBlank = cs.rdropWhile isBlank := by
  rw [List.rdropWhile, List.rdropWhile, List.reverse_append,
    List.dropWhile_append_of_pos fun c hc => h c (List.mem_reverse.mp hc)]

theorem Padded.trim_eq (h : Padded core cs) : trim cs = trim core := by
  obtain ⟨before, after, hb, ha, rfl⟩ := h
  rw [Text.trim_eq, Text.trim_eq, List.append_assoc, List.dropWhile_append_of_pos hb,
    List.dropWhile_append]
  split
  · rename_i he
    rw [List.isEmpty_iff] at he
    rw [he, List.dropWhile_eq_nil_iff.mpr ha]
  · rw [rdropWhile_append_of_isBlank ha]

/-- A text is what trimming leaves of it, with blanks around. -/
theorem padded_trim (cs : List Char) : Padded (trim cs) cs := by
  refine ⟨cs.takeWhile isBlank, (cs.dropWhile isBlank).rtakeWhile isBlank,
    fun c => List.mem_takeWhile_imp, fun c => List.mem_rtakeWhile_imp, ?_⟩
  rw [Text.trim_eq, List.append_assoc, List.rdropWhile_append_rtakeWhile,
    List.takeWhile_append_dropWhile]

theorem trim_eq_nil_iff : trim cs = [] ↔ IsBlank cs := by
  constructor
  · intro h
    obtain ⟨before, after, hb, ha, hcs⟩ := padded_trim cs
    rw [h, List.append_nil] at hcs
    rw [hcs]
    exact List.forall_mem_append.mpr ⟨hb, ha⟩
  · intro h
    rw [Text.trim_eq, List.dropWhile_eq_nil_iff.mpr h, List.rdropWhile_nil]

end Trimming
section Lists

variable {sep : Char} {p : List Char} {pieces : List (List Char)} {s x y : String}
  {xs : List String}

theorem splitAt_eq_splitOn (sep : Char) (cs : List Char) : splitAt sep cs = cs.splitOn sep := by
  induction cs with
  | nil => rfl
  | cons c cs ih =>
    obtain ⟨piece, pieces, hp⟩ := List.exists_cons_of_ne_nil (splitAt_ne_nil sep cs)
    rw [List.splitOn, List.splitOnP_cons_eq_if_modifyHead, ← List.splitOn, ← ih, splitAt, hp]
    simp only [beq_iff_eq, List.modifyHead_cons]

theorem splitAt_intercalate (hp : ∀ p ∈ pieces, sep ∉ p) (hne : pieces ≠ []) :
    splitAt sep ([sep].intercalate pieces) = pieces := by
  rw [splitAt_eq_splitOn, List.splitOn_intercalate sep hp hne]

theorem intercalate_splitAt (sep : Char) (cs : List Char) :
    [sep].intercalate (splitAt sep cs) = cs := by
  rw [splitAt_eq_splitOn, List.intercalate_splitOn]

theorem not_mem_of_mem_splitAt (h : p ∈ splitAt sep cs) : sep ∉ p := by
  induction cs generalizing p with
  | nil =>
    rw [List.mem_singleton.mp h]
    exact List.not_mem_nil
  | cons c cs ih =>
    obtain ⟨piece, pieces, hp⟩ := List.exists_cons_of_ne_nil (splitAt_ne_nil sep cs)
    simp only [hp, List.mem_cons] at ih
    simp only [splitAt, hp] at h
    split at h
    · rcases List.mem_cons.mp h with rfl | h
      · exact List.not_mem_nil
      · exact ih (List.mem_cons.mp h)
    · rename_i hc
      rcases List.mem_cons.mp h with rfl | h
      · exact List.not_mem_cons_of_ne_of_not_mem (Ne.symm hc) (ih (.inl rfl))
      · exact ih (.inr h)

/-- The items of a text that is cut into pieces. -/
theorem mem_items_of_intercalate (hs : s.toList = [','].intercalate pieces)
    (hp : ∀ p ∈ pieces, ',' ∉ p) : x ∈ items s ↔ x ≠ "" ∧ ∃ p ∈ pieces, trim p = x.toList := by
  have hx : x ≠ "" ↔ x.toList ≠ [] := by rw [ne_eq, ne_eq, String.toList_eq_nil_iff]
  have hi : x ∈ items s ↔ x ≠ "" ∧ ∃ p ∈ splitAt ',' s.toList, trim p = x.toList := by
    simp only [items, List.mem_map, List.mem_filter, decide_eq_true_eq, hx]
    constructor
    · rintro ⟨cs, ⟨⟨p, hm, rfl⟩, hne⟩, rfl⟩
      exact ⟨by rwa [String.toList_ofList], p, hm, String.toList_ofList.symm⟩
    · rintro ⟨hne, p, hm, he⟩
      exact ⟨x.toList, ⟨⟨p, hm, he⟩, hne⟩, String.ofList_toList⟩
  rw [hi, hs]
  rcases eq_or_ne pieces [] with rfl | hne
  · -- Without pieces the text is empty, and is cut into one that is.
    refine iff_of_false ?_ (by simp)
    rintro ⟨hne, p, hm, he⟩
    rw [List.mem_singleton.mp hm] at he
    exact hx.mp hne he.symm
  · rw [splitAt_intercalate hp hne]

/-- What stands between two commas of the text, blanks around it apart. -/
def IsItem (s x : String) : Prop :=
  x ≠ "" ∧ IsTrimmed x.toList ∧ ∃ pieces : List (List Char), s.toList = [','].intercalate pieces ∧
    (∀ p ∈ pieces, ',' ∉ p) ∧ ∃ p ∈ pieces, Padded x.toList p

theorem mem_items_iff : x ∈ items s ↔ IsItem s x := by
  constructor
  · intro h
    obtain ⟨hne, p, hm, he⟩ := (mem_items_of_intercalate (intercalate_splitAt ',' s.toList).symm
      fun _ => not_mem_of_mem_splitAt).mp h
    exact ⟨hne, he ▸ isTrimmed_trim p, _, (intercalate_splitAt ',' s.toList).symm,
      fun _ => not_mem_of_mem_splitAt, p, hm, he ▸ padded_trim p⟩
  · rintro ⟨hne, ht, pieces, hs, hp, p, hm, hx⟩
    exact (mem_items_of_intercalate hs hp).mpr ⟨hne, p, hm, hx.trim_eq.trans (isTrimmed_iff.mp ht)⟩

/-- The text can be an item of a list. -/
@[mk_iff]
structure Listable (x : String) : Prop where
  ne_empty : x ≠ ""
  no_comma : ',' ∉ x.toList
  trimmed : IsTrimmed x.toList

/-- The text is written as a list of the items: they stand in any order, any number of times and
with any blanks around them, and there may be blank pieces besides them. -/
def Writes (xs : List String) (s : String) : Prop :=
  ∃ pieces : List (List Char), s.toList = [','].intercalate pieces ∧
    (∀ p ∈ pieces, IsBlank p ∨ ∃ x ∈ xs, Padded x.toList p) ∧
    ∀ x ∈ xs, ∃ p ∈ pieces, Padded x.toList p

instance (x : String) : Decidable (Listable x) := decidable_of_iff _ (listable_iff x).symm

theorem writes_intercalate (xs : List String) : Writes xs (",".intercalate xs) := by
  have hp (x : String) : Padded x.toList x.toList :=
    ⟨[], [], by simp [IsBlank], by simp [IsBlank], by simp⟩
  refine ⟨xs.map String.toList, String.toList_intercalate, fun p hm => ?_, fun x hx => ?_⟩
  · obtain ⟨x, hx, rfl⟩ := List.mem_map.mp hm
    exact .inr ⟨x, hx, hp x⟩
  · exact ⟨x.toList, List.mem_map_of_mem hx, hp x⟩

theorem IsBlank.not_mem_comma (h : IsBlank cs) : ',' ∉ cs := fun hm => by
  have hc : isBlank ',' = true := h ',' hm
  exact absurd hc (by decide)

theorem Padded.not_mem_comma (h : Padded core cs) (hc : ',' ∉ core) : ',' ∉ cs := by
  obtain ⟨before, after, hb, ha, rfl⟩ := h
  simp [hb.not_mem_comma, ha.not_mem_comma, hc]

theorem mem_items_of_writes (hx : ∀ x ∈ xs, Listable x) (h : Writes xs s) :
    y ∈ items s ↔ y ∈ xs := by
  obtain ⟨pieces, hs, hp, hall⟩ := h
  have hc : ∀ p ∈ pieces, ',' ∉ p := by
    intro p hm
    rcases hp p hm with hb | ⟨x, hxs, hpad⟩
    · exact hb.not_mem_comma
    · exact hpad.not_mem_comma (hx x hxs).no_comma
  rw [mem_items_of_intercalate hs hc]
  constructor
  · rintro ⟨hne, p, hm, he⟩
    rcases hp p hm with hb | ⟨x, hxs, hpad⟩
    · rw [trim_eq_nil_iff.mpr hb, eq_comm, String.toList_eq_nil_iff] at he
      exact absurd he hne
    · rw [hpad.trim_eq, isTrimmed_iff.mp (hx x hxs).trimmed, String.toList_inj] at he
      exact he ▸ hxs
  · intro hy
    obtain ⟨p, hm, hpad⟩ := hall y hy
    exact ⟨(hx y hy).ne_empty, p, hm, hpad.trim_eq.trans (isTrimmed_iff.mp (hx y hy).trimmed)⟩

/-- A text is written as a list of items exactly if they are its items. -/
theorem writes_iff (hx : ∀ x ∈ xs, Listable x) : Writes xs s ↔ ∀ y, y ∈ items s ↔ y ∈ xs := by
  refine ⟨fun h y => mem_items_of_writes hx h, fun h => ?_⟩
  have hs := (intercalate_splitAt ',' s.toList).symm
  have hi (y : String) := mem_items_of_intercalate (x := y) hs fun _ => not_mem_of_mem_splitAt
  refine ⟨_, hs, fun p hm => ?_, fun x hxs => ?_⟩
  · rcases eq_or_ne (trim p) [] with he | hne
    · exact .inl (trim_eq_nil_iff.mp he)
    · refine .inr ⟨String.ofList (trim p), (h _).mp ((hi _).mpr ⟨?_, p, hm, ?_⟩), ?_⟩
      · rwa [ne_eq, ← String.toList_eq_nil_iff, String.toList_ofList]
      · rw [String.toList_ofList]
      · rw [String.toList_ofList]
        exact padded_trim p
  · obtain ⟨-, p, hm, he⟩ := (hi x).mp ((h x).mpr hxs)
    exact ⟨p, hm, he ▸ padded_trim p⟩

end Lists
end LinkTrust.Text
