import LinkTrust.Proofs.Json.Lexing

/-! # Printed values are parsed

From the lexemes of a value the parser builds the value, whatever containers it stands in; so the
text of a value reads back.
-/

namespace LinkTrust.Json

namespace Position

variable {frames : List Frame} {ls : List Lexeme}

theorem run?_cons {p q : Position} {l : Lexeme} (h : p.step? l = some q) :
    p.run? (l :: ls) = q.run? ls := by
  simp [run?, h]

/-- The first item is read like any other value. -/
theorem step?_firstItem {l : Lexeme} (h : l ≠ .closeArray) :
    (firstItem frames).step? l = (value (.array [] :: frames)).step? l := by
  cases l <;> first | rfl | exact absurd rfl h

theorem run?_firstItem {v : Value} : (firstItem frames).run? (v.lexemes ++ ls) =
    (value (.array [] :: frames)).run? (v.lexemes ++ ls) := by
  have hv : ∃ l ls, v.lexemes = l :: ls ∧ l ≠ .closeArray := by
    unfold Value.lexemes
    split <;> exact ⟨_, _, rfl, nofun⟩
  obtain ⟨l, ls', hl, hne⟩ := hv
  rw [hl, List.cons_append, run?, run?, step?_firstItem hne]

mutual

theorem run?_lexemes (v : Value) (frames : List Frame) (ls : List Lexeme) :
    (value frames).run? (v.lexemes ++ ls) = (complete v frames).run? ls := by
  match v with
  | .null => rfl
  | .boolean b => rfl
  | .number literal => rfl
  | .string content => rfl
  | .array [] => rfl
  | .array (v :: vs) =>
    simp only [Value.lexemes, List.cons_append, List.append_assoc, List.nil_append]
    rw [run?_cons (q := firstItem frames) rfl, run?_firstItem, run?_lexemes v, complete,
      run?_itemLexemes vs]
    rfl
  | .object [] => rfl
  | .object ((k, v) :: ms) =>
    simp only [Value.lexemes, List.cons_append, List.append_assoc, List.nil_append]
    rw [run?_cons (q := firstMember frames) rfl, run?_cons (q := colon [] k frames) rfl,
      run?_cons (q := value (.object [] k :: frames)) rfl, run?_lexemes v, complete,
      run?_memberLexemes ms]
    rfl

theorem run?_itemLexemes (vs items : List Value) (frames : List Frame) (ls : List Lexeme) :
    (nextItem items frames).run? (Value.itemLexemes vs ++ .closeArray :: ls) =
      (complete (.array (items.reverse ++ vs)) frames).run? ls := by
  match vs with
  | [] =>
    rw [List.append_nil]
    rfl
  | v :: vs =>
    simp only [Value.itemLexemes, List.cons_append, List.append_assoc]
    rw [run?_cons (q := value (.array items :: frames)) rfl, run?_lexemes v, complete,
      run?_itemLexemes vs, List.reverse_cons, List.append_assoc, List.singleton_append]

theorem run?_memberLexemes (ms members : List (Bytes × Value)) (frames : List Frame)
    (ls : List Lexeme) :
    (nextMember members frames).run? (Value.memberLexemes ms ++ .closeObject :: ls) =
      (complete (.object (members.reverse ++ ms)) frames).run? ls := by
  match ms with
  | [] =>
    rw [List.append_nil]
    rfl
  | (k, v) :: ms =>
    simp only [Value.memberLexemes, List.cons_append, List.append_assoc]
    rw [run?_cons (q := key members frames) rfl, run?_cons (q := colon members k frames) rfl,
      run?_cons (q := value (.object members k :: frames)) rfl, run?_lexemes v, complete,
      run?_memberLexemes ms, List.reverse_cons, List.append_assoc, List.singleton_append]

end

end Position

namespace Value

theorem ofLexemes?_lexemes (v : Value) : ofLexemes? v.lexemes = some v := by
  have h := Position.run?_lexemes v [] []
  rw [List.append_nil] at h
  rw [ofLexemes?, h]
  rfl

/-- The text of a value reads back, in either layout. -/
theorem parse?_render {v : Value} {layout : Layout} (h : v.Numeric) :
    parse? (v.render layout) = some v := by
  rw [parse?, lexemes?_render h, Option.bind_some, ofLexemes?_lexemes]

end Value
end LinkTrust.Json
