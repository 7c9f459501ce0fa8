import LinkTrust.Json.Reader
import LinkTrust.Proofs.Json.Beginnings

/-! # Reading is scanning and parsing

A stream that comes to its end is read as if the lexer had its whole text first and the parser all
lexemes after that, although the reader stops at the end of the value. A stream that fails is not
read, wherever the reader stands when it fails.
-/

namespace LinkTrust.Json

variable {mode mode' : Mode} {ls lexemes : List Lexeme} {b : UInt8} {bytes : Bytes} {v : Value}

section Blanks

theorem start_of_isBlank (h : isBlank b) : start b = some (.gap, []) := by
  unfold isBlank at h
  split at h
  iterate 4
    rename_i hc
    simp [start, hc]
  · cases h

/-- A byte that is no blank begins or completes a lexeme. -/
theorem ne_of_start (h : start b = some (mode, lexemes)) (hb : ¬isBlank b) :
    mode ≠ .gap ∨ lexemes ≠ [] := by
  unfold start at h
  split at h
  iterate 4
    rename_i hc
    exact absurd (by simp [isBlank, hc]) hb
  iterate 6
    cases h
    exact .inr (List.cons_ne_nil _ _)
  iterate 5
    cases h
    exact .inl (by simp)
  · obtain ⟨part, -, hp⟩ := Option.map_eq_some_iff.mp h
    cases hp
    exact .inl (by simp)

/-- A lexeme that was begun is completed before the lexer is between lexemes again. -/
theorem ne_of_step (h : mode.step b = some (mode', lexemes)) (hb : mode = .gap → ¬isBlank b) :
    mode' ≠ .gap ∨ lexemes ≠ [] := by
  cases mode with
  | gap => exact ne_of_start h (hb rfl)
  | word next rest lexeme =>
    simp only [Mode.step] at h
    split at h
    · cases h
    · split at h
      · cases h
        exact .inr (List.cons_ne_nil _ _)
      · cases h
        exact .inl (by simp)
  | number part literal =>
    simp only [Mode.step] at h
    split at h
    · cases h
      exact .inl (by simp)
    · split at h
      · obtain ⟨_, -, he⟩ := Option.map_eq_some_iff.mp h
        cases he
        exact .inr (List.cons_ne_nil _ _)
      · cases h
  | string s =>
    simp only [Mode.step] at h
    split at h
    · cases h
      exact .inr (List.cons_ne_nil _ _)
    · cases h
      exact .inl (by simp)
    · split at h
      · cases h
      · cases h
        exact .inl (by simp)
  | escape s =>
    simp only [Mode.step] at h
    split at h
    · cases h
      exact .inl (by simp)
    · obtain ⟨_, -, he⟩ := Option.map_eq_some_iff.mp h
      cases he
      exact .inl (by simp)
  | unit s left value =>
    simp only [Mode.step] at h
    obtain ⟨_, -, he⟩ := Option.map_eq_some_iff.mp h
    split at he
    · cases he
      exact .inl (by simp)
    · cases he
      exact .inl (by simp)

theorem scan_cons : scan mode [] (b :: bytes) =
    (mode.step b).bind fun next => (scan next.1 [] bytes).map (next.2 ++ ·) := by
  rw [scan]
  cases mode.step b with
  | none => rfl
  | some next =>
    simp only [List.append_nil, Option.bind_some]
    rw [scan_eq_map, List.reverse_reverse]

/-- If the lexer is inside a lexeme, or the next byte is no blank, then a lexeme comes. -/
theorem ne_nil_of_scan (h : scan mode [] bytes = some ls)
    (hb : mode = .gap → ∃ b ∈ bytes.head?, ¬isBlank b) : ls ≠ [] := by
  induction bytes generalizing mode ls with
  | nil =>
    cases mode with
    | gap => simp at hb
    | number part literal =>
      obtain ⟨-, rfl⟩ : _ ∧ [Lexeme.number literal.reverse] = ls := by
        simpa [scan, Mode.finish] using h
      exact List.cons_ne_nil _ _
    | _ => cases h
  | cons b bs ih =>
    rw [scan_cons, Option.bind_eq_some_iff] at h
    obtain ⟨⟨mode', lexemes⟩, hs, h⟩ := h
    obtain ⟨more, hmore, rfl⟩ := Option.map_eq_some_iff.mp h
    rcases ne_of_step hs fun hm => by simpa using hb hm with hm | hl
    · exact List.append_ne_nil_of_right_ne_nil _ (ih hmore fun hg => absurd hg hm)
    · exact List.append_ne_nil_of_left_ne_nil hl _

end Blanks

namespace Reader

variable {r : Reader}

/-- What the parser makes of the lexemes of a text, once the lexer has them all. -/
def result? (r : Reader) (bytes : Bytes) : Option Value :=
  (scan r.mode [] bytes).bind fun lexemes => (r.position.run? lexemes).bind Position.value?

theorem result?_nil : r.result? [] = r.finish? := by
  simp [result?, scan, finish?]

theorem result?_cons : r.result? (b :: bytes) = (r.step? b).bind (·.result? bytes) := by
  rw [result?, scan_cons, step?, Option.bind_assoc, Option.bind_assoc]
  congr 1
  funext ⟨mode, lexemes⟩
  simp only [Option.bind_map, Function.comp_def, Position.run?_append, Option.bind_assoc]
  cases r.position.run? lexemes with
  | none => simp
  | some pos => rfl

/-- After a value there may be blanks only. -/
theorem result?_finished : result? ⟨.gap, .finished v⟩ bytes =
    if isOver .over bytes then some v else none := by
  induction bytes with
  | nil => rfl
  | cons b bs ih =>
    by_cases hb : isBlank b
    · simpa [result?, scan, start_of_isBlank hb, isOver, hb, Mode.step] using ih
    · simp only [isOver, hb, Bool.false_and, Bool.false_eq_true, if_false, result?]
      rw [Option.bind_eq_none_iff]
      intro ls hls
      cases ls with
      | nil => exact absurd rfl (ne_nil_of_scan hls fun _ => ⟨b, rfl, hb⟩)
      | cons l ls => rfl

theorem eq_of_value? (h : r.value? = some v) : r = ⟨.gap, .finished v⟩ := by
  obtain ⟨mode, position⟩ := r
  cases mode with
  | gap =>
    obtain rfl := Position.value?_eq_some_iff.mp h
    rfl
  | _ => cases h

theorem all?_nil : r.all? .over [] = r.finish? := by
  cases hv : r.value? with
  | some v =>
    rw [eq_of_value? hv]
    rfl
  | none => cases hf : r.finish? <;> simp [all?, read?, hv, hf, isOver]

/-- To stop at the end of the value and look for blanks then comes to the same as to have the lexer
read everything first. -/
theorem all?_over : r.all? .over bytes = r.result? bytes := by
  induction bytes generalizing r with
  | nil => rw [all?_nil, result?_nil]
  | cons b bs ih =>
    cases hv : r.value? with
    | some v =>
      rw [eq_of_value? hv, result?_finished]
      rfl
    | none =>
      rw [result?_cons, all?, read?, hv]
      cases r.step? b with
      | none => rfl
      | some r' => exact ih

theorem isOver_fault : isOver .fault bytes = false := by
  induction bytes with
  | nil => rfl
  | cons b bs ih => rw [isOver, ih, Bool.and_false]

/-- Nothing is accepted from a stream that fails: not if it fails inside the value, since the value
is not complete then, and not if it fails later, since its end is not seen. -/
theorem all?_fault : r.all? .fault bytes = none := by
  cases h : r.read? .fault bytes with
  | none => rw [all?, h]
  | some found =>
    rw [all?, h]
    simp only [isOver_fault, Bool.false_eq_true, if_false]

end Reader

theorem Stream.failingAfter_eq (n : Nat) (bytes : Bytes) : failingAfter n bytes =
    ⟨bytes.take n, if n ≤ bytes.length then .fault else .over⟩ := by
  induction n, bytes using failingAfter.induct with
  | case1 bytes => rw [failingAfter]; simp
  | case2 n => rw [failingAfter]; simp
  | case3 n b bytes ih => simp [failingAfter, cons, ih]

namespace Value

/-- What is read from a stream that comes to its end is what its whole text holds. -/
theorem ofStream?_over : ofStream? ⟨bytes, .over⟩ = parse? bytes := Reader.all?_over

theorem ofStream?_of_fault {s : Stream} (h : s.ending = .fault) : ofStream? s = none := by
  rw [ofStream?, h, Reader.all?_fault]

example : ({} : Reader).read? .fault (Utf8.encode "[]\n") = some (array [], Utf8.encode "\n") ∧
    ofStream? ⟨Utf8.encode "[]\n", .fault⟩ = none := ⟨rfl, rfl⟩

end Value
end LinkTrust.Json
