import LinkTrust.Json.Lexeme
import LinkTrust.Text.Decimal

/-! # JSON values

Values as they are written: numbers keep their literals, strings the bytes that they denote, and
objects all their members in order. `parse?` reads one value from a text that holds nothing else,
to any depth. The readers below it say which values denote a text, a number of fixed width, a list
or a row of named fields.
-/

namespace LinkTrust.Json

inductive Value where
  | null
  | boolean (value : Bool)
  | number (literal : Bytes)
  | string (content : Bytes)
  | array (items : List Value)
  | object (members : List (Bytes × Value))

/-- A container that is being read: the values so far, the last one first, and in an object the
key of the value that is due. -/
inductive Frame where
  | array (items : List Value)
  | object (members : List (Bytes × Value)) (key : Bytes)

/-- What may come next. -/
inductive Position where
  | value (frames : List Frame)
  | firstItem (frames : List Frame)
  | firstMember (frames : List Frame)
  | key (members : List (Bytes × Value)) (frames : List Frame)
  | colon (members : List (Bytes × Value)) (key : Bytes) (frames : List Frame)
  | nextItem (items : List Value) (frames : List Frame)
  | nextMember (members : List (Bytes × Value)) (frames : List Frame)
  | finished (value : Value)

namespace Position

/-- A value is complete: it is the next item or member of the innermost container. -/
def complete (v : Value) : List Frame → Position
  | [] => finished v
  | .array items :: frames => nextItem (v :: items) frames
  | .object members k :: frames => nextMember ((k, v) :: members) frames

/-- A lexeme that begins a value. -/
def begin? (frames : List Frame) : Lexeme → Option Position
  | .null => some (complete .null frames)
  | .boolean b => some (complete (.boolean b) frames)
  | .number n => some (complete (.number n) frames)
  | .string s => some (complete (.string s) frames)
  | .openArray => some (firstItem frames)
  | .openObject => some (firstMember frames)
  | _ => none

def step? : Position → Lexeme → Option Position
  | value frames, l => begin? frames l
  | firstItem frames, .closeArray => some (complete (.array []) frames)
  | firstItem frames, l => begin? (.array [] :: frames) l
  | firstMember frames, .closeObject => some (complete (.object []) frames)
  | firstMember frames, .string k => some (colon [] k frames)
  | key members frames, .string k => some (colon members k frames)
  | colon members k frames, .colon => some (value (.object members k :: frames))
  | nextItem items frames, .comma => some (value (.array items :: frames))
  | nextItem items frames, .closeArray => some (complete (.array items.reverse) frames)
  | nextMember members frames, .comma => some (key members frames)
  | nextMember members frames, .closeObject => some (complete (.object members.reverse) frames)
  | _, _ => none

def run? (p : Position) : List Lexeme → Option Position
  | [] => some p
  | l :: ls => (p.step? l).bind (run? · ls)

def value? : Position → Option Value
  | finished v => some v
  | _ => none

end Position

namespace Value

def ofLexemes? (ls : List Lexeme) : Option Value :=
  ((Position.value []).run? ls).bind Position.value?

/-- The value that a text holds, if it is one value with at most blanks around it. -/
def parse? (bytes : Bytes) : Option Value := (lexemes? bytes).bind ofLexemes?

def boolean? : Value → Option Bool
  | boolean b => some b
  | _ => none

def text? : Value → Option String
  | string s => Utf8.decode? s
  | _ => none

/-- The integer that a literal writes, if it writes one: without fraction and exponent, and zero
without a sign. -/
def literalInteger? : Bytes → Option Int
  | 0x2D :: ds => (Decimal.read? ds).bind fun n => if n = 0 then none else some (-n)
  | ds => (Decimal.read? ds).map Int.ofNat

def integer? : Value → Option Int
  | number literal => literalInteger? literal
  | _ => none

def uint32? (v : Value) : Option UInt32 :=
  v.integer?.bind fun n => if 0 ≤ n ∧ n < 0x100000000 then some (UInt32.ofNat n.toNat) else none

def int32? (v : Value) : Option Int32 :=
  v.integer?.bind fun n => if -0x80000000 ≤ n ∧ n < 0x80000000 then some (Int32.ofInt n) else none

def list? (read : Value → Option α) : Value → Option (List α)
  | array items => items.mapM read
  | _ => none

/-- The members of an object whose keys are texts. -/
def members? (read : Value → Option α) : Value → Option (List (String × α))
  | object members => members.mapM fun (k, v) => return (← Utf8.decode? k, ← read v)
  | _ => none

/-- The values of some fields, for each field the one that is given. An object gives a field at
most once under its name, and what it holds under other names does not matter as long as the names
are texts. An array gives the fields in their order; the last ones may be missing. -/
def fields? (names : List String) : Value → Option (List (Option Value))
  | array items =>
    if items.length ≤ names.length then
      some (items.map some ++ List.replicate (names.length - items.length) none)
    else none
  | v => do
    let members ← v.members? some
    names.mapM fun name =>
      match members.filter (·.1 = name) with
      | [] => some none
      | [(_, v)] => some (some v)
      | _ => none

/-- Reads a field that must be given. -/
def required (read : Value → Option α) (field : Option Value) : Option α := field.bind read

/-- Reads a field that has a default. -/
def optional (default : α) (read : Value → Option α) : Option Value → Option α
  | none => some default
  | some v => read v

end Value
end LinkTrust.Json
