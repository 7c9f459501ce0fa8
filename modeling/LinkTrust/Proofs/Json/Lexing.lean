import LinkTrust.Json.Printer

/-! # The lexemes of printed values

A printed value is scanned into its lexemes, whatever comes after it. Only a number needs to see
that it is over, so what comes next must not be a byte with which a number could go on.
-/

namespace LinkTrust.Json

variable {done : List Lexeme} {rest literal bs : Bytes} {b : UInt8} {part part' : NumberPart}

section Strings

theorem eq_toUInt8_of_ofUInt8 {c : Char} (h : Char.ofUInt8 b = c) : b = c.toUInt8 := by
  subst h
  exact (UInt8.toUInt8_toUInt32 b).symm

theorem lt_of_ofUInt8_lt (h : Char.ofUInt8 b < ' ') : b.toNat < 32 := by
  have h : b.toUInt32 < ' '.val := h
  simpa [UInt32.lt_iff_toNat_lt] using h

theorem digit?_digitByte : ∀ d < 16, Hex.digit? (Char.ofUInt8 d.digitChar.toUInt8) = some d := by
  decide

theorem scan_unit {s : Literal} {value d : Nat} (left : Nat) (hd : d < 16) :
    scan (.unit s (left + 1) value) done (d.digitChar.toUInt8 :: rest) =
      scan (.unit s left (16 * value + d)) done rest := by
  simp [scan, Mode.step, digit?_digitByte d hd]

theorem scan_unit_last {s : Literal} {value d : Nat} (hd : d < 16) :
    scan (.unit s 0 value) done (d.digitChar.toUInt8 :: rest) =
      scan (.string (s.pushUnit (16 * value + d))) done rest := by
  simp [scan, Mode.step, digit?_digitByte d hd]

theorem pushUnit_of_lt {n : Nat} (h : n < 0x80) :
    (Literal.mk bs none).pushUnit n = ⟨n.toUInt8 :: bs, none⟩ := by
  have h' : ¬(0xD800 ≤ n ∧ n < 0xDC00) := by omega
  simp [Literal.pushUnit, Utf8.encodePoint, h, h']

theorem scan_escapeByte (b : UInt8) :
    scan (.string ⟨bs, none⟩) done (escapeByte b ++ rest) =
      scan (.string ⟨b :: bs, none⟩) done rest := by
  unfold escapeByte
  split
  iterate 7
    rename_i h
    obtain rfl := eq_toUInt8_of_ofUInt8 h
    rfl
  rename_i hq hs _ _ _ _ _
  split
  · rename_i h
    have hb := lt_of_ofUInt8_lt h
    have hu (rest : Bytes) : scan (.string ⟨bs, none⟩) done (Utf8.encode "\\u00" ++ rest) =
        scan (.unit ⟨bs, none⟩ 1 0) done rest := rfl
    have hn : 16 * (16 * 0 + b.toNat / 16 % 16) + b.toNat % 16 = b.toNat := by omega
    rw [List.append_assoc, hu]
    simp only [Hex.digits, List.nil_append, List.cons_append, List.map_cons, List.map_nil]
    rw [scan_unit 0 (Nat.mod_lt _ (by decide)), scan_unit_last (Nat.mod_lt _ (by decide)), hn,
      pushUnit_of_lt (by omega), Nat.toUInt8, UInt8.ofNat_toNat]
  · rename_i h
    have hp : Mode.step (.string ⟨bs, none⟩) b = some (.string ⟨b :: bs, none⟩, []) := by
      simp only [Mode.step, if_neg h]
      rfl
    simp [scan, hp]

theorem scan_content (content : Bytes) :
    scan (.string ⟨bs, none⟩) done (content.flatMap escapeByte ++ rest) =
      scan (.string ⟨content.reverse ++ bs, none⟩) done rest := by
  induction content generalizing bs with
  | nil => rfl
  | cons b content ih =>
    rw [List.flatMap_cons, List.append_assoc, scan_escapeByte, ih, List.reverse_cons,
      List.append_assoc, List.singleton_append]

theorem scan_quote (content : Bytes) :
    scan .gap done (quote content ++ rest) = scan .gap (.string content :: done) rest := by
  have h : scan (.string ⟨content.reverse ++ [], none⟩) done (['\"'.toUInt8] ++ rest) =
      scan .gap (.string (content.reverse ++ []).reverse :: done) rest := rfl
  calc scan .gap done (quote content ++ rest)
      = scan (.string ⟨[], none⟩) done
          (content.flatMap escapeByte ++ (['\"'.toUInt8] ++ rest)) := by
        rw [quote, List.append_assoc]
        rfl
    _ = scan .gap (.string (content.reverse ++ []).reverse :: done) rest := by
        rw [scan_content, h]
    _ = scan .gap (.string content :: done) rest := by
        rw [List.append_nil, List.reverse_reverse]

end Strings

section Numbers

/-- The bytes are one number as it may be written. -/
def IsNumeral (literal : Bytes) : Prop :=
  ∃ (b : UInt8) (bs : Bytes) (p q : NumberPart), literal = b :: bs ∧
    start b = some (.number p [b], []) ∧ bs.foldlM NumberPart.next? p = some q ∧
    q.isComplete = true

/-- No number goes on with the next byte. -/
def Stops (rest : Bytes) : Prop :=
  ∀ b ∈ rest.head?, ∀ p : NumberPart, p.next? b = none

theorem stops_nil : Stops [] := by
  simp [Stops]

theorem stops_cons (h : b ∈ [0x2C, 0x0A, 0x5D, 0x7D]) : Stops (b :: bs) := by
  intro c hc p
  obtain rfl : b = c := Option.some.inj hc
  simp only [List.mem_cons, List.not_mem_nil, or_false] at h
  rcases h with rfl | rfl | rfl | rfl <;> cases p <;> rfl

theorem scan_next? (h : bs.foldlM NumberPart.next? part = some part') :
    scan (.number part literal) done (bs ++ rest) =
      scan (.number part' (bs.reverse ++ literal)) done rest := by
  induction bs generalizing part literal with
  | nil => cases h; rfl
  | cons b bs ih =>
    rw [List.foldlM_cons] at h
    obtain ⟨p, hp, h⟩ := Option.bind_eq_some_iff.mp h
    rw [List.reverse_cons, List.append_assoc, List.singleton_append, ← ih h]
    simp [scan, Mode.step, hp]

/-- The end of a number is seen with the byte after it, or with the end of the text. -/
theorem scan_isComplete (hp : part.isComplete = true) (hr : Stops rest) :
    scan (.number part literal) done rest = scan .gap (.number literal.reverse :: done) rest := by
  cases rest with
  | nil => simp [scan, Mode.finish, hp]
  | cons b rest =>
    have hb := hr b rfl part
    cases hs : start b with
    | none => simp [scan, Mode.step, hp, hb, hs]
    | some r => simp [scan, Mode.step, hp, hb, hs]

theorem scan_numeral (h : IsNumeral literal) (hr : Stops rest) :
    scan .gap done (literal ++ rest) = scan .gap (.number literal :: done) rest := by
  obtain ⟨b, bs, p, q, rfl, hb, hbs, hq⟩ := h
  have hs : scan .gap done (b :: bs ++ rest) = scan (.number p [b]) done (bs ++ rest) := by
    simp [scan, Mode.step, hb]
  rw [hs, scan_next? hbs, scan_isComplete hq hr]
  simp

theorem start_of_next? (h : NumberPart.minus.next? b = some part) :
    start b = some (.number part [b], []) := by
  unfold start
  split
  case h_16 => rw [h, Option.map_some]
  all_goals
    rename_i hb
    simp [NumberPart.next?, hb] at h

theorem next?_digit : ∀ d < 10, NumberPart.minus.next? d.digitChar.toUInt8 =
    some (if d = 0 then .zero else .whole) := by
  decide

theorem next?_whole_digit : ∀ d < 10,
    NumberPart.whole.next? d.digitChar.toUInt8 = some .whole := by
  decide

theorem foldlM_digits (n : Nat) : (Decimal.digits n).foldlM NumberPart.next? .minus =
    some (if n = 0 then .zero else .whole) := by
  induction n using Nat.strongRecOn with
  | ind n ih =>
    by_cases h : n < 10
    · simp [Decimal.digits_of_lt h, next?_digit n h]
    · have hn : 10 ≤ n := Nat.le_of_not_lt h
      have hq : n / 10 ≠ 0 := by omega
      have hn' : n ≠ 0 := by omega
      rw [Decimal.digits_of_le hn, List.foldlM_append, ih (n / 10) (by omega), if_neg hq,
        if_neg hn']
      simp [next?_whole_digit (n % 10) (Nat.mod_lt _ (by decide))]

theorem isNumeral_signed (n : Int) : IsNumeral (Decimal.signed n) := by
  have h := foldlM_digits n.natAbs
  have hc : (if n.natAbs = 0 then NumberPart.zero else .whole).isComplete = true := by
    split <;> rfl
  unfold Decimal.signed
  split
  · exact ⟨0x2D, _, .minus, _, rfl, rfl, h, hc⟩
  · obtain ⟨b, bs, hd⟩ := List.exists_cons_of_ne_nil (Decimal.digits_ne_nil n.natAbs)
    rw [hd, List.foldlM_cons] at h
    obtain ⟨p, hp, h⟩ := Option.bind_eq_some_iff.mp h
    exact ⟨b, bs, p, _, hd, start_of_next? hp, h, hc⟩

end Numbers

section Punctuation

variable {layout : Layout} {depth : Nat}

theorem scan_lineBreak : scan .gap done (layout.lineBreak depth ++ rest) = scan .gap done rest := by
  have hs (n : Nat) : scan .gap done (List.replicate n ' '.toUInt8 ++ rest) =
      scan .gap done rest := by
    induction n with
    | zero => rfl
    | succ n ih => exact ih
  cases layout with
  | compact => rfl
  | indented =>
    rw [Layout.lineBreak, List.append_assoc]
    exact hs _

theorem scan_colon : scan .gap done (layout.colon ++ rest) = scan .gap (.colon :: done) rest := by
  cases layout <;> rfl

theorem scan_comma : scan .gap done (Utf8.encode "," ++ rest) = scan .gap (.comma :: done) rest :=
  rfl

theorem stops_lineBreak (h : b ∈ [0x2C, 0x0A, 0x5D, 0x7D]) :
    Stops (layout.lineBreak depth ++ b :: rest) := by
  cases layout with
  | compact => exact stops_cons h
  | indented => exact stops_cons (by decide)

end Punctuation

namespace Value

/-- All numbers in the value are written as numbers are. -/
inductive Numeric : Value → Prop where
  | null : Numeric null
  | boolean (b : Bool) : Numeric (boolean b)
  | number {literal : Bytes} (numeral : IsNumeral literal) : Numeric (number literal)
  | string (content : Bytes) : Numeric (string content)
  | array {items : List Value} (each : ∀ v ∈ items, Numeric v) : Numeric (array items)
  | object {members : List (Bytes × Value)} (each : ∀ m ∈ members, Numeric m.2) :
      Numeric (object members)

mutual

def lexemes : Value → List Lexeme
  | null => [.null]
  | boolean b => [.boolean b]
  | number literal => [.number literal]
  | string content => [.string content]
  | array [] => [.openArray, .closeArray]
  | array (v :: vs) => .openArray :: v.lexemes ++ itemLexemes vs ++ [.closeArray]
  | object [] => [.openObject, .closeObject]
  | object ((k, v) :: ms) =>
    .openObject :: .string k :: .colon :: v.lexemes ++ memberLexemes ms ++ [.closeObject]

/-- The lexemes of the items after the first. -/
def itemLexemes : List Value → List Lexeme
  | [] => []
  | v :: vs => .comma :: v.lexemes ++ itemLexemes vs

/-- The lexemes of the members after the first. -/
def memberLexemes : List (Bytes × Value) → List Lexeme
  | [] => []
  | (k, v) :: ms => .comma :: .string k :: .colon :: v.lexemes ++ memberLexemes ms

end

variable {layout : Layout} {v : Value} {items : List Value} {members : List (Bytes × Value)}

/-- The text of the value is scanned into its lexemes, at any depth. -/
def ScansAs (layout : Layout) (v : Value) : Prop :=
  ∀ (depth : Nat) (done : List Lexeme) (rest : Bytes), Stops rest →
    scan .gap done ((v.pieces layout depth).flatten ++ rest) =
      scan .gap (v.lexemes.reverse ++ done) rest

theorem stops_itemPieces {depth : Nat} (h : Stops rest) :
    Stops ((itemPieces layout depth items).flatten ++ rest) := by
  cases items with
  | nil => exact h
  | cons v vs => exact stops_cons (by decide)

theorem stops_memberPieces {depth : Nat} (h : Stops rest) :
    Stops ((memberPieces layout depth members).flatten ++ rest) := by
  cases members with
  | nil => exact h
  | cons m ms => exact stops_cons (by decide)

theorem scan_itemPieces {depth : Nat} (hv : ∀ v ∈ items, v.ScansAs layout) (hr : Stops rest) :
    scan .gap done ((itemPieces layout depth items).flatten ++ rest) =
      scan .gap ((itemLexemes items).reverse ++ done) rest := by
  induction items generalizing done with
  | nil => rfl
  | cons v vs ih =>
    simp only [itemPieces, itemLexemes, List.flatten_cons, List.cons_append, List.flatten_append,
      List.append_assoc, List.reverse_cons, List.reverse_append, List.nil_append]
    rw [scan_comma, scan_lineBreak, hv v (by simp) depth _ _ (stops_itemPieces hr),
      ih fun w hw => hv w (by simp [hw])]

theorem scan_memberPieces {depth : Nat} (hv : ∀ m ∈ members, m.2.ScansAs layout)
    (hr : Stops rest) : scan .gap done ((memberPieces layout depth members).flatten ++ rest) =
      scan .gap ((memberLexemes members).reverse ++ done) rest := by
  induction members generalizing done with
  | nil => rfl
  | cons m ms ih =>
    obtain ⟨k, v⟩ := m
    simp only [memberPieces, memberLexemes, List.flatten_cons, List.cons_append,
      List.flatten_append, List.append_assoc, List.reverse_cons, List.reverse_append,
      List.nil_append]
    rw [scan_comma, scan_lineBreak, scan_quote, scan_colon,
      hv (k, v) (by simp) depth _ _ (stops_memberPieces hr), ih fun w hw => hv w (by simp [hw])]

theorem scansAs_array (hv : ∀ v ∈ items, v.ScansAs layout) : (array items).ScansAs layout := by
  intro depth done rest _
  cases items with
  | nil => rfl
  | cons v vs =>
    have hr : Stops (layout.lineBreak depth ++ (Utf8.encode "]" ++ rest)) :=
      stops_lineBreak (by decide)
    have ho (rest : Bytes) : scan .gap done (Utf8.encode "[" ++ rest) =
        scan .gap (.openArray :: done) rest := rfl
    have hc (done : List Lexeme) : scan .gap done (Utf8.encode "]" ++ rest) =
        scan .gap (.closeArray :: done) rest := rfl
    simp only [pieces, lexemes, List.flatten_cons, List.cons_append, List.flatten_append,
      List.append_assoc, List.flatten_nil, List.nil_append, List.reverse_cons,
      List.reverse_append, List.reverse_nil]
    rw [ho, scan_lineBreak, hv v (by simp) (depth + 1) _ _ (stops_itemPieces hr),
      scan_itemPieces (fun w hw => hv w (by simp [hw])) hr, scan_lineBreak, hc]

/-- The pieces of an object with some members, up to its closing bracket. -/
def openedPieces (layout : Layout) (depth : Nat) (k : Bytes) (v : Value)
    (members : List (Bytes × Value)) : List Bytes :=
  Utf8.encode "\x7b" :: layout.lineBreak (depth + 1) :: quote k :: layout.colon ::
    v.pieces layout (depth + 1) ++ memberPieces layout (depth + 1) members ++
    [layout.lineBreak depth]

theorem pieces_object {depth : Nat} {k : Bytes} : (object ((k, v) :: members)).pieces layout depth =
    openedPieces layout depth k v members ++ [Utf8.encode "\x7d"] := by
  simp [pieces, openedPieces]

theorem scan_openedPieces {depth : Nat} {k : Bytes}
    (hv : ∀ m ∈ (k, v) :: members, m.2.ScansAs layout)
    (hr : Stops (layout.lineBreak depth ++ rest)) :
    scan .gap done ((openedPieces layout depth k v members).flatten ++ rest) =
      scan .gap ((.openObject :: .string k :: .colon :: v.lexemes ++
        memberLexemes members).reverse ++ done) rest := by
  have ho (rest : Bytes) : scan .gap done (Utf8.encode "\x7b" ++ rest) =
      scan .gap (.openObject :: done) rest := rfl
  simp only [openedPieces, List.flatten_cons, List.cons_append, List.flatten_append,
    List.append_assoc, List.flatten_nil, List.nil_append, List.reverse_cons, List.reverse_append]
  rw [ho, scan_lineBreak, scan_quote, scan_colon,
    hv (k, v) (by simp) (depth + 1) _ _ (stops_memberPieces hr),
    scan_memberPieces (fun w hw => hv w (by simp [hw])) hr, scan_lineBreak]

theorem scansAs_object (hv : ∀ m ∈ members, m.2.ScansAs layout) :
    (object members).ScansAs layout := by
  intro depth done rest _
  cases members with
  | nil => rfl
  | cons m ms =>
    obtain ⟨k, v⟩ := m
    have hr : Stops (layout.lineBreak depth ++ (Utf8.encode "\x7d" ++ rest)) :=
      stops_lineBreak (by decide)
    have hc (done : List Lexeme) : scan .gap done (Utf8.encode "\x7d" ++ rest) =
        scan .gap (.closeObject :: done) rest := rfl
    rw [pieces_object, List.flatten_append, List.flatten_singleton, List.append_assoc,
      scan_openedPieces hv hr, hc]
    simp [lexemes]

theorem Numeric.scansAs (h : v.Numeric) : v.ScansAs layout := by
  induction h with
  | null => exact fun _ _ _ _ => rfl
  | boolean b => cases b <;> exact fun _ _ _ _ => rfl
  | number numeral =>
    intro depth done rest hr
    simpa [pieces, lexemes] using scan_numeral numeral hr
  | string content =>
    intro depth done rest _
    simpa [pieces, lexemes] using scan_quote content
  | array each ih => exact scansAs_array ih
  | object each ih => exact scansAs_object ih

theorem lexemes?_render (h : v.Numeric) : lexemes? (v.render layout) = some v.lexemes := by
  have hs : v.ScansAs layout := h.scansAs
  have hs := hs 0 [] [] stops_nil
  rw [List.append_nil, List.append_nil] at hs
  rw [lexemes?, render, hs]
  simp [scan, Mode.finish]

end Value
end LinkTrust.Json
