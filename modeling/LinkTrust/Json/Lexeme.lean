import LinkTrust.Text.Hex
import LinkTrust.Text.Utf8

/-! # The lexemes of JSON

A lexer that takes one byte at a time. A string is given by the bytes that it denotes; an escape
for half of a surrogate pair is lexically sound but leaves bytes that spell no text. A number is
given as it is written. Between lexemes stand spaces, tabs and line ends only.
-/

namespace LinkTrust.Json

inductive Lexeme where
  | openArray
  | closeArray
  | openObject
  | closeObject
  | comma
  | colon
  | null
  | boolean (value : Bool)
  | number (literal : Bytes)
  | string (content : Bytes)
deriving DecidableEq, Repr

/-- What of a number has been read last. -/
inductive NumberPart where
  | minus | zero | whole | point | fraction | exponent | exponentSign | exponentDigits
deriving DecidableEq, Repr

namespace NumberPart

/-- Whether a number may end here. -/
def isComplete : NumberPart → Bool
  | zero | whole | fraction | exponentDigits => true
  | minus | point | exponent | exponentSign => false

def next? (p : NumberPart) (b : UInt8) : Option NumberPart :=
  let c := Char.ofUInt8 b
  match p with
  | minus => if c = '0' then some zero else if c.isDigit then some whole else none
  | zero => if c = '.' then some point else if c = 'e' ∨ c = 'E' then some exponent else none
  | whole =>
    if c.isDigit then some whole else if c = '.' then some point
    else if c = 'e' ∨ c = 'E' then some exponent else none
  | point => if c.isDigit then some fraction else none
  | fraction =>
    if c.isDigit then some fraction else if c = 'e' ∨ c = 'E' then some exponent else none
  | exponent =>
    if c.isDigit then some exponentDigits else if c = '+' ∨ c = '-' then some exponentSign else none
  | exponentSign | exponentDigits => if c.isDigit then some exponentDigits else none

end NumberPart

/-- A string literal that is being read: the bytes so far, the last one first, and the first half
of a surrogate pair if the last escape was one. -/
structure Literal where
  bytes : Bytes
  half : Option Nat
deriving DecidableEq, Repr

namespace Literal

def empty : Literal := ⟨[], none⟩

/-- Gives up waiting for the second half of a pair. -/
def settle (s : Literal) : Literal :=
  match s.half with
  | none => s
  | some h => ⟨(Utf8.encodePoint h).reverse ++ s.bytes, none⟩

def push (s : Literal) (b : UInt8) : Literal := ⟨b :: s.settle.bytes, none⟩

/-- Adds the unit of a `\u` escape; the two halves of a surrogate pair make one code point. -/
def pushUnit (s : Literal) (u : Nat) : Literal :=
  if 0xD800 ≤ u ∧ u < 0xDC00 then ⟨s.settle.bytes, some u⟩
  else
    match s.half with
    | some h =>
      if 0xDC00 ≤ u ∧ u < 0xE000 then
        let point := 0x10000 + 0x400 * (h - 0xD800) + (u - 0xDC00)
        ⟨(Utf8.encodePoint point).reverse ++ s.bytes, none⟩
      else ⟨(Utf8.encodePoint u).reverse ++ s.settle.bytes, none⟩
    | none => ⟨(Utf8.encodePoint u).reverse ++ s.bytes, none⟩

def content (s : Literal) : Bytes := s.settle.bytes.reverse

end Literal

/-- Where the lexer stands between two bytes. -/
inductive Mode where
  | gap
  /-- Inside `null`, `true` or `false`, with the letters that must still follow the next one. -/
  | word (next : UInt8) (rest : Bytes) (lexeme : Lexeme)
  /-- Inside a number, of which `literal` holds the bytes so far, the last one first. -/
  | number (part : NumberPart) (literal : Bytes)
  | string (s : Literal)
  | escape (s : Literal)
  /-- Inside a `\u` escape, with `left` digits to come after the next one. -/
  | unit (s : Literal) (left : Nat) (value : Nat)
deriving DecidableEq, Repr

/-- A byte that stands between lexemes or begins one. -/
def start (b : UInt8) : Option (Mode × List Lexeme) :=
  match Char.ofUInt8 b with
  | ' ' | '\t' | '\n' | '\r' => some (.gap, [])
  | '[' => some (.gap, [.openArray])
  | ']' => some (.gap, [.closeArray])
  | '{' => some (.gap, [.openObject])
  | '}' => some (.gap, [.closeObject])
  | ',' => some (.gap, [.comma])
  | ':' => some (.gap, [.colon])
  | '\"' => some (.string .empty, [])
  | '-' => some (.number .minus [b], [])
  | 'n' => some (.word 'u'.toUInt8 (Utf8.encode "ll") .null, [])
  | 't' => some (.word 'r'.toUInt8 (Utf8.encode "ue") (.boolean true), [])
  | 'f' => some (.word 'a'.toUInt8 (Utf8.encode "lse") (.boolean false), [])
  | _ => (NumberPart.minus.next? b).map fun part => (.number part [b], [])

/-- The character that a one-letter escape stands for. -/
def escaped? (c : Char) : Option Char :=
  match c with
  | '\"' | '\\' | '/' => some c
  | 'b' => some '\x08'
  | 'f' => some '\x0C'
  | 'n' => some '\n'
  | 'r' => some '\r'
  | 't' => some '\t'
  | _ => none

/-- One byte: the mode after it and the lexemes that it completes. -/
def Mode.step : Mode → UInt8 → Option (Mode × List Lexeme)
  | .gap, b => start b
  | .word next rest lexeme, b =>
    if b ≠ next then none
    else
      match rest with
      | [] => some (.gap, [lexeme])
      | next :: rest => some (.word next rest lexeme, [])
  | .number part literal, b =>
    match part.next? b with
    | some part => some (.number part (b :: literal), [])
    | none =>
      if part.isComplete then
        (start b).map fun (mode, lexemes) => (mode, .number literal.reverse :: lexemes)
      else none
  | .string s, b =>
    match Char.ofUInt8 b with
    | '\"' => some (.gap, [.string s.content])
    | '\\' => some (.escape s, [])
    | c => if c < ' ' then none else some (.string (s.push b), [])
  | .escape s, b =>
    match Char.ofUInt8 b with
    | 'u' => some (.unit s 3 0, [])
    | c => (escaped? c).map fun e => (.string (s.push e.toUInt8), [])
  | .unit s left value, b =>
    (Hex.digit? (Char.ofUInt8 b)).map fun d =>
      match left with
      | 0 => (.string (s.pushUnit (16 * value + d)), [])
      | left + 1 => (.unit s left (16 * value + d), [])

/-- What the end of the input completes. -/
def Mode.finish : Mode → Option (List Lexeme)
  | .gap => some []
  | .number part literal => if part.isComplete then some [.number literal.reverse] else none
  | _ => none

/-- Reads on from a mode; `done` holds the lexemes so far, the last one first. -/
def scan (mode : Mode) (done : List Lexeme) : Bytes → Option (List Lexeme)
  | [] => mode.finish.map (done.reverse ++ ·)
  | b :: bs =>
    match mode.step b with
    | none => none
    | some (mode, lexemes) => scan mode (lexemes.reverse ++ done) bs

/-- The lexemes of a text. -/
def lexemes? (bytes : Bytes) : Option (List Lexeme) := scan .gap [] bytes

theorem scan_eq_map (mode : Mode) (done : List Lexeme) (bytes : Bytes) :
    scan mode done bytes = (scan mode [] bytes).map (done.reverse ++ ·) := by
  induction bytes generalizing mode done with
  | nil => cases h : mode.finish <;> simp [scan, h]
  | cons b bs ih =>
    simp only [scan]
    split
    · rfl
    · rename_i mode' lexemes _
      rw [ih mode' (lexemes.reverse ++ done), ih mode' (lexemes.reverse ++ [])]
      cases scan mode' [] bs <;> simp

end LinkTrust.Json
