import LinkTrust.Proofs.Json.Parsing

/-! # Beginnings of a text

As long as the parser expects more, no beginning of what it has seen is the text of a value: a value
that is complete takes nothing but blanks after it, and only a number can be cut and be complete. So
an object is found in the whole of its text and in no other beginning of it.
-/

namespace LinkTrust.Json

variable {mode : Mode} {done ls L : List Lexeme} {p q text : Bytes}

section Lexing

/-- What comes after a beginning of a text is scanned from where the beginning ends. -/
theorem exists_scan_append (h : scan mode done (p ++ q) = some L) :
    ∃ mode' done', scan mode' done' q = some L ∧
      ∀ q', scan mode done (p ++ q') = scan mode' done' q' := by
  induction p generalizing mode done with
  | nil => exact ⟨mode, done, h, fun _ => rfl⟩
  | cons b p ih =>
    cases hs : mode.step b with
    | none => simp [scan, hs] at h
    | some next =>
      obtain ⟨mode', lexemes⟩ := next
      simp only [List.cons_append, scan, hs] at h ⊢
      exact ih h

/-- Inside a number the next lexeme is a number, even if its literal goes on. -/
theorem exists_number_cons {part : NumberPart} {literal : Bytes}
    (h : scan (.number part literal) [] q = some ls) :
    ∃ (literal' : Bytes) (ls' : List Lexeme), ls = .number literal' :: ls' := by
  induction q generalizing part literal with
  | nil =>
    simp only [scan, Mode.finish] at h
    split at h
    · cases h
      exact ⟨_, _, rfl⟩
    · cases h
  | cons b q ih =>
    simp only [scan, Mode.step] at h
    cases hn : part.next? b with
    | some part' =>
      simp only [hn] at h
      exact ih h
    | none =>
      simp only [hn] at h
      split at h
      · cases h
      · rename_i mode' lexemes hs
        split at hs
        · obtain ⟨⟨_, lexemes'⟩, -, he⟩ := Option.map_eq_some_iff.mp hs
          cases he
          rw [scan_eq_map, Option.map_eq_some_iff] at h
          obtain ⟨ls', -, rfl⟩ := h
          exact ⟨literal.reverse, lexemes' ++ ls', by simp⟩
        · cases hs

end Lexing

namespace Position

variable {pos pos' : Position} {v : Value} {n n' : Bytes}

def IsFinished : Position → Prop
  | finished _ => True
  | _ => False

theorem run?_append : pos.run? (ls ++ L) = (pos.run? ls).bind (run? · L) := by
  induction ls generalizing pos with
  | nil => rfl
  | cons l ls ih =>
    simp only [List.cons_append, run?]
    cases pos.step? l with
    | none => rfl
    | some q => exact ih

/-- Nothing may come after a value that is complete. -/
theorem eq_nil_of_run?_finished (h : (finished v).run? ls = some pos) : ls = [] := by
  cases ls with
  | nil => rfl
  | cons l ls => cases h

theorem IsFinished.eq_nil (hp : pos.IsFinished) (h : pos.run? ls = some pos') : ls = [] := by
  cases pos with
  | finished v => exact eq_nil_of_run?_finished h
  | _ => cases hp

/-- Only where the whole value is due does a number complete it, and then any number does. -/
theorem IsFinished.number (hp : pos'.IsFinished) (h : pos.step? (.number n) = some pos')
    (n' : Bytes) : ∃ pos'', pos.step? (.number n') = some pos'' ∧ pos''.IsFinished := by
  cases pos with
  | value frames =>
    obtain rfl : complete (.number n) frames = pos' := Option.some.inj h
    refine ⟨_, rfl, ?_⟩
    rcases frames with _ | ⟨_ | _, _⟩
    · trivial
    · cases hp
    · cases hp
  | firstItem frames =>
    cases h
    cases hp
  | _ => cases h

end Position

theorem Position.value?_eq_some_iff : pos.value? = some v ↔ pos = finished v := by
  cases pos <;> simp [value?]

theorem Value.ofLexemes?_eq_some_iff {v : Value} :
    ofLexemes? ls = some v ↔ (Position.value []).run? ls = some (.finished v) := by
  simp [ofLexemes?, Option.bind_eq_some_iff, Position.value?_eq_some_iff]

/-- The parser expects more after the text. -/
def Unfinished (text : Bytes) : Prop :=
  ∃ ls pos, lexemes? text = some ls ∧ (Position.value []).run? ls = some pos ∧ ¬pos.IsFinished

/-- Where a text may end with a complete value, nothing but blanks may follow. -/
theorem isFinished_of_finish {pos pos' pos'' : Position} {fin : List Lexeme}
    (hf : mode.finish = some fin) (hr : pos.run? fin = some pos') (hp : pos'.IsFinished)
    (hs : scan mode [] q = some ls) (hr' : pos.run? ls = some pos'') : pos''.IsFinished := by
  cases mode with
  | gap =>
    cases hf
    cases hr
    obtain rfl := hp.eq_nil hr'
    cases hr'
    exact hp
  | number part literal =>
    -- What follows may lengthen the number, but it stays one lexeme in the same place.
    simp only [Mode.finish, Option.ite_none_right_eq_some] at hf
    obtain ⟨-, hf⟩ := hf
    cases hf
    obtain ⟨literal', ls', rfl⟩ := exists_number_cons hs
    obtain ⟨pos₁, h₁, hr⟩ := Option.bind_eq_some_iff.mp hr
    cases hr
    obtain ⟨pos₂, h₂, hp₂⟩ := hp.number h₁ literal'
    rw [Position.run?_cons h₂] at hr'
    obtain rfl := hp₂.eq_nil hr'
    cases hr'
    exact hp₂
  | _ => cases hf

/-- No beginning of an unfinished text is the text of a value. -/
theorem Unfinished.parse?_eq_none (h : Unfinished text) (hp : p <+: text) :
    Value.parse? p = none := by
  obtain ⟨q, rfl⟩ := hp
  obtain ⟨L, pos, hL, hrun, hpos⟩ := h
  obtain ⟨mode, done, hq, hp⟩ := exists_scan_append hL
  rw [Option.eq_none_iff_forall_ne_some]
  intro v hv
  obtain ⟨ls, hls, hv⟩ := Option.bind_eq_some_iff.mp hv
  have hd := hp []
  rw [List.append_nil] at hd
  rw [lexemes?, hd] at hls
  obtain ⟨fin, hfin, rfl⟩ := Option.map_eq_some_iff.mp hls
  rw [scan_eq_map, Option.map_eq_some_iff] at hq
  obtain ⟨more, hmore, rfl⟩ := hq
  -- Both rows of lexemes lead through the position at the end of the beginning.
  rw [Value.ofLexemes?_eq_some_iff, Position.run?_append, Option.bind_eq_some_iff] at hv
  obtain ⟨pos', hdone, hv⟩ := hv
  rw [Position.run?_append, hdone, Option.bind_some] at hrun
  exact hpos (isFinished_of_finish hfin hv trivial hmore hrun)

namespace Value

variable {layout : Layout} {members : List (Bytes × Value)} {k : Bytes} {v : Value}

theorem unfinished_openedPieces (h : ∀ m ∈ (k, v) :: members, m.2.Numeric) :
    Unfinished (openedPieces layout 0 k v members).flatten := by
  have hstops : Stops (layout.lineBreak 0 ++ []) := by
    cases layout with
    | compact => exact stops_nil
    | indented => exact stops_cons (by decide)
  have hs : scan .gap [] ((openedPieces layout 0 k v members).flatten ++ []) = _ :=
    scan_openedPieces (fun m hm => (h m hm).scansAs) hstops
  rw [List.append_nil, List.append_nil] at hs
  have hr := ofLexemes?_lexemes (object ((k, v) :: members))
  rw [ofLexemes?_eq_some_iff, lexemes, Position.run?_append, Option.bind_eq_some_iff] at hr
  obtain ⟨pos, hr, hc⟩ := hr
  refine ⟨_, pos, ?_, hr, fun hp => ?_⟩
  · rw [lexemes?, hs]
    simp [scan, Mode.finish]
  · cases hp.eq_nil hc

/-- The text of an object without its last byte is unfinished. -/
theorem exists_unfinished (layout : Layout) (h : (object members).Numeric) :
    ∃ text, Unfinished text ∧ (object members).render layout = text ++ [0x7D] := by
  cases h with
  | object each =>
    cases members with
    | nil => exact ⟨[0x7B], ⟨_, _, rfl, rfl, id⟩, rfl⟩
    | cons m ms =>
      refine ⟨(openedPieces layout 0 m.1 m.2 ms).flatten, unfinished_openedPieces each, ?_⟩
      rw [render, pieces_object, List.flatten_append]
      rfl

/-- No proper beginning of the text of an object is the text of a value. -/
theorem parse?_eq_none_of_prefix (h : (object members).Numeric)
    (hp : p <+: (object members).render layout) (hne : p ≠ (object members).render layout) :
    parse? p = none := by
  obtain ⟨text, hu, ht⟩ := exists_unfinished layout h
  rw [ht] at hp hne
  exact hu.parse?_eq_none ((List.prefix_concat_iff.mp hp).resolve_left hne)

end Value
end LinkTrust.Json
