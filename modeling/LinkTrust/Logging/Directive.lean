import LinkTrust.Pattern.Reader
import LinkTrust.Text.Decimal

/-! # Log directives

A directive names a level, or a target, a span with a field, or both, for which a level may be
given: `target[span{field=value}]=level`. A value is a number or a pattern.

Blanks at the ends of a directive are passed over when its parts are looked for, but the parts are
cut out of the text with its blanks, at their distances from the first sign that is not blank. So
blanks at the beginning move all parts, and blanks at the end belong to a level.
-/

namespace LinkTrust.Logging

/-- A level is a number up to 5, a name in any letter case, or nothing. -/
def isLevel (s : String) : Bool :=
  match Decimal.ofText? s with
  | some n => n ≤ 5
  | none => ["", "error", "warn", "info", "debug", "trace", "off"].contains (Text.lower s)

/-- The exponent of a number, which may be missing. -/
def isExponent : List Char → Bool
  | [] => true
  | e :: cs =>
    let digits := match cs with
      | '+' :: cs | '-' :: cs => cs
      | cs => cs
    (e = 'e' || e = 'E') && !digits.isEmpty && digits.all Char.isDigit

/-- Digits with a point before, between or after them, and an exponent. -/
def isDecimal (cs : List Char) : Bool :=
  let rest := cs.dropWhile Char.isDigit
  let (fraction, exponent) := match rest with
    | '.' :: rest => (rest.takeWhile Char.isDigit, rest.dropWhile Char.isDigit)
    | rest => ([], rest)
  (cs.head?.any Char.isDigit || !fraction.isEmpty) && isExponent exponent

/-- A number in decimal notation or by name, with or without a sign before it. -/
def isNumber (s : String) : Bool :=
  let cs := match s.toList with
    | '+' :: cs | '-' :: cs => cs
    | cs => cs
  isDecimal cs || ["inf", "infinity", "nan"].contains (Text.lower (String.ofList cs))

def isValue (s : String) : Bool := isNumber s || Pattern.isValid s

/-- A field has a name and may have a value after the first equals sign; what follows a second one
does not count. -/
def isField (s : String) : Bool :=
  s ≠ "" &&
    match Text.splitAt '=' s.toList with
    | _ :: value :: _ => isValue (String.ofList value)
    | _ => true

namespace Directive

/-- What is being read, and where it begins. -/
inductive Part where
  | start
  | target
  | span (first : Nat)
  | field (first : Nat)
  | endOfField
  | endOfSpan
  | level (first : Nat)
deriving DecidableEq, Repr

/-- The text between two distances, if they do not part a character. -/
def between (text : Bytes) (first last : Nat) : Option String :=
  Utf8.decode? ((text.take last).drop first)

/-- Reads the sign at some distance. A target begins with a letter, a number or one of three
signs. -/
def Part.next? (text : Bytes) (distance : Nat) : Part → Char → Option Part
  | start, '[' => some (span (distance + 1))
  | start, c => if Text.isAlphanumeric c ∨ c ∈ ['-', ':', '_'] then some target else none
  | target, '[' => (between text 0 distance).map fun _ => span (distance + 1)
  | target, '=' => (between text 0 distance).map fun _ => level (distance + 1)
  | target, _ => some target
  | span first, ']' => (between text first distance).map fun _ => endOfSpan
  | span first, '\x7b' => (between text first distance).map fun _ => field (distance + 1)
  | span first, _ => some (span first)
  | field first, '\x7d' =>
    if (between text first distance).any isField then some endOfField else none
  | field first, _ => some (field first)
  | endOfField, ']' => some endOfSpan
  | endOfField, _ => none
  | endOfSpan, '=' => some (level (distance + 1))
  | endOfSpan, _ => none
  | level first, _ => some (level first)

/-- Whether a directive may end here. -/
def Part.isComplete (text : Bytes) : Part → Bool
  | target | endOfSpan => true
  | level first => (between text first text.length).any isLevel
  | start | span _ | field _ | endOfField => false

/-- Reads the signs from some distance on. -/
def run? (text : Bytes) : Part → Nat → List Char → Option Part
  | p, _, [] => some p
  | p, distance, c :: cs => (p.next? text distance c).bind (run? text · (distance + c.utf8Size) cs)

def isValid (cs : List Char) : Bool :=
  let text := Utf8.encode (String.ofList cs)
  (run? text .start 0 (Text.trim cs)).any (·.isComplete text)

end Directive
end LinkTrust.Logging
