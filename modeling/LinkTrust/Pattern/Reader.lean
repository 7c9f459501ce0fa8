import LinkTrust.Pattern.Basic
import LinkTrust.Text.Alphanumeric
import LinkTrust.Text.Blank
import LinkTrust.Text.Hex

/-! # Reading patterns

A pattern is written between braces, so that no brace which it opens can be closed in it. Hence what
needs a pair of braces cannot be completed: a count of repetitions, a number in braces, a class
named by a property. In a verbose pattern, blanks and comments may stand between any two signs.
-/

namespace LinkTrust.Pattern

/-- Drops blanks and comments; a comment ends with its line. -/
def skipComments (inComment : Bool) : List Char → List Char
  | [] => []
  | c :: cs =>
    if inComment then skipComments (c ≠ '\n') cs
    else if Text.isBlank c then skipComments false cs
    else if c = '#' then skipComments true cs
    else c :: cs

def skip (verbose : Bool) (cs : List Char) : List Char :=
  if verbose then skipComments false cs else cs

/-- Reads some hexadecimal digits, of which `value` is what has been read. -/
def digits? (verbose : Bool) : Nat → Nat → List Char → Option (Nat × List Char)
  | 0, value, cs => some (value, cs)
  | n + 1, value, cs =>
    match skip verbose cs with
    | [] => none
    | c :: cs => (Hex.digit? c).bind fun d => digits? verbose n (16 * value + d) cs

/-- Reads the number of a character. -/
def numbered? (verbose : Bool) (width : Nat) (cs : List Char) : Option (Pattern × List Char) :=
  (digits? verbose width 0 cs).bind fun (n, cs) =>
    if n.isValidChar then some (.literal (Char.ofNat n) (width = 2), cs) else none

/-- Reads what follows a backslash. -/
def escaped? (verbose : Bool) : List Char → Option (Pattern × List Char)
  | [] => none
  | c :: cs =>
    match c with
    | 'x' => numbered? verbose 2 cs
    | 'u' => numbered? verbose 4 cs
    | 'U' => numbered? verbose 8 cs
    | 'd' | 's' | 'w' => some (.shorthand false, cs)
    | 'D' | 'S' | 'W' => some (.shorthand true, cs)
    | 'a' => some (.literal '\x07' false, cs)
    | 't' => some (.literal '\t' false, cs)
    | 'n' => some (.literal '\n' false, cs)
    | 'v' => some (.literal '\x0B' false, cs)
    | 'f' => some (.literal '\x0C' false, cs)
    | 'r' => some (.literal '\r' false, cs)
    | 'A' | 'z' => some (.anchor, cs)
    | 'b' | 'B' | '<' | '>' => some (.wordBoundary, cs)
    | _ => if c.toNat < 0x80 ∧ !c.isAlphanum then some (.literal c false, cs) else none

/-! ## Sets -/

/-- An open bracket: the left side of the combination that is being read, if it is one, and the
items since, the last one first. -/
structure Bracket where
  negated : Bool := false
  /-- So far there were only hyphens, and these and a closing bracket stand for themselves. -/
  isNew : Bool := true
  left? : Option CharSet := none
  items : List CharSet := []

namespace Bracket

def add (b : Bracket) (s : CharSet) : Bracket := { b with isNew := false, items := s :: b.items }

def content (b : Bracket) : CharSet :=
  let right := CharSet.ofList b.items.reverse
  match b.left? with
  | some left => .combine left right
  | none => right

/-- Begins the right side of a combination. -/
def combine (b : Bracket) : Bracket :=
  { b with isNew := false, left? := some b.content, items := [] }

end Bracket

def setNames : List String :=
  ["alnum", "alpha", "ascii", "blank", "cntrl", "digit", "graph", "lower", "print", "punct",
    "space", "upper", "word", "xdigit"]

/-- Reads what follows the bracket of a set with a name, up to its closing bracket. -/
def named? : List Char → Option (CharSet × List Char)
  | ':' :: cs =>
    let (negated, cs) := match cs with
      | '^' :: cs => (true, cs)
      | cs => (false, cs)
    match cs.span (· ≠ ':') with
    | (name, ':' :: ']' :: cs) =>
      if setNames.contains (String.ofList name) then some (.named negated, cs) else none
    | _ => none
  | _ => none

/-- The item of a set that a sign stands for. -/
def item? : Pattern → Option CharSet
  | .literal c _ => some (.literal c)
  | .shorthand negated => some (.shorthand negated)
  | _ => none

def sign? (verbose : Bool) : List Char → Option (Pattern × List Char)
  | [] => none
  | '\\' :: cs => escaped? verbose cs
  | c :: cs => some (.literal c false, cs)

/-- The character behind a hyphen. Of a comment only the beginning is skipped. -/
def behindHyphen (verbose : Bool) (cs : List Char) : Option Char :=
  if verbose then
    match Text.trimStart cs with
    | '#' :: cs => (Text.trimStart cs).head?
    | cs => cs.head?
  else cs.head?

/-- Reads a character, a range or a shorthand. A hyphen before a closing bracket or before another
hyphen makes no range. -/
def element? (verbose : Bool) (cs : List Char) : Option (CharSet × List Char) := do
  let (first, cs) ← sign? verbose cs
  match skip verbose cs with
  | '-' :: rest =>
    if (behindHyphen verbose rest).any (· ∈ [']', '-']) then
      return (← item? first, '-' :: rest)
    else
      let (last, cs) ← sign? verbose (skip verbose rest)
      match item? first, item? last with
      | some (.literal first), some (.literal last) =>
        if first ≤ last then return (.range first last, cs) else none
      | _, _ => none
  | cs => return (← item? first, cs)

/-- Opens a bracket. -/
def bracket (verbose : Bool) (cs : List Char) : Bracket × List Char :=
  match skip verbose cs with
  | '^' :: cs => ({ negated := true }, cs)
  | cs => ({}, cs)

/-- Reads a set to its end; `outer` are the brackets around the innermost one. Each step reads a
character. -/
def set? (verbose : Bool) : Nat → List Bracket → Bracket → List Char → Option (Pattern × List Char)
  | 0, _, _, _ => none
  | fuel + 1, outer, b, cs =>
    match skip verbose cs with
    | [] => none
    | '[' :: cs =>
      match named? cs with
      | some (s, cs) => set? verbose fuel outer (b.add s) cs
      | none =>
        let (inner, cs) := bracket verbose cs
        set? verbose fuel (b :: outer) inner cs
    | c :: cs =>
      if b.isNew ∧ c = '-' then
        set? verbose fuel outer { b.add (.literal c) with isNew := true } cs
      else if c = ']' then
        if b.isNew ∧ b.items.isEmpty then set? verbose fuel outer (b.add (.literal c)) cs
        else
          match outer with
          | [] => some (.set b.negated b.content, cs)
          | o :: outer => set? verbose fuel outer (o.add (.bracket b.negated b.content)) cs
      else if c ∈ ['&', '-', '~'] ∧ cs.head? = some c then
        set? verbose fuel outer b.combine cs.tail
      else
        (element? verbose (c :: cs)).bind fun (s, cs) => set? verbose fuel outer (b.add s) cs

/-! ## Groups -/

/-- The options that a letter switches. -/
def Options.switch (o : Options) (flag : Char) (on : Bool) : Options :=
  match flag with
  | 'i' => { o with ignoreCase? := some on }
  | 'u' => { o with unicode? := some on }
  | 'x' => { o with verbose? := some on }
  | _ => o

/-- How a group begins: it has options of its own, or there are options instead of a group. -/
inductive Opening where
  | group (o : Options)
  | options (o : Options)

/-- Reads letters of options, those after a hyphen being switched off. No sign may occur twice, and
`seen` are those that occurred, the last one first. -/
def options? (seen : List Char) (o : Options) : List Char → Option (Opening × List Char)
  | [] => none
  | c :: cs =>
    if c = ':' then
      if seen.head? = some '-' then none else some (.group o, cs)
    else if c = ')' then
      if seen.isEmpty ∨ seen.head? = some '-' then none else some (.options o, cs)
    else if c ∈ "imsuxUR-".toList ∧ c ∉ seen then
      options? (c :: seen) (o.switch c ('-' ∉ seen)) cs
    else none

/-- Reads the name of a group, which none of `names` may be. -/
def name? (names : List String) (cs : List Char) : Option (String × List Char) :=
  match cs.span (· ≠ '>') with
  | (c :: name, _ :: cs) =>
    if (c = '_' ∨ Text.isAlphabetic c) ∧
        name.all (fun c => c ∈ ['_', '.', '[', ']'] || Text.isAlphanumeric c) ∧
        String.ofList (c :: name) ∉ names then
      some (String.ofList (c :: name), cs)
    else none
  | _ => none

/-! ## Patterns -/

/-- What has been read of a choice: its alternatives but the last one, and the parts of the last
one, each with the last one first. -/
structure Row where
  alternatives : List Pattern := []
  parts : List Pattern := []

namespace Row

def add (r : Row) (p : Pattern) : Row := { r with parts := p :: r.parts }

def last (r : Row) : Pattern := ofList r.parts.reverse

def alternate (r : Row) : Row := { alternatives := r.last :: r.alternatives }

def content (r : Row) : Pattern :=
  if r.alternatives.isEmpty then r.last else .choice (r.last :: r.alternatives).reverse

/-- Repeats the last part. -/
def repeat? (r : Row) : Option Row :=
  match r.parts with
  | p :: ps => if p.isRepeatable then some { r with parts := .repetition p :: ps } else none
  | [] => none

end Row

/-- An open group: what was read before it, and whether the pattern was verbose there. -/
structure Frame where
  row : Row
  options : Options := {}
  verbose : Bool

/-- Where the reader stands. -/
structure Reading where
  row : Row := {}
  verbose : Bool := false
  frames : List Frame := []
  names : List String := []

namespace Reading

def add (r : Reading) (p : Pattern) : Reading := { r with row := r.row.add p }

def openGroup (r : Reading) (o : Options) : Reading :=
  { r with
    row := {}
    verbose := o.verbose?.getD r.verbose
    frames := { row := r.row, options := o, verbose := r.verbose } :: r.frames }

def closeGroup? (r : Reading) : Option Reading :=
  match r.frames with
  | f :: frames =>
    some { r with row := f.row.add (.group f.options r.row.content), verbose := f.verbose, frames }
  | [] => none

/-- Reads what follows an opening parenthesis. -/
def group? (r : Reading) (cs : List Char) : Option (Reading × List Char) :=
  match skip r.verbose cs with
  | '?' :: 'P' :: '<' :: cs | '?' :: '<' :: cs =>
    (name? r.names cs).map fun (name, cs) =>
      ({ r with names := name :: r.names }.openGroup {}, cs)
  | '?' :: cs =>
    (options? [] {} cs).map fun
      | (.group o, cs) => (r.openGroup o, cs)
      | (.options o, cs) => ({ r with verbose := o.verbose?.getD r.verbose }.add (.options o), cs)
  | cs => some (r.openGroup {}, cs)

/-- Reads the next part of the pattern, which begins with a character. -/
def step? (r : Reading) (c : Char) (cs : List Char) : Option (Reading × List Char) :=
  match c with
  | '(' => r.group? cs
  | ')' => r.closeGroup?.map (·, cs)
  | '|' => some ({ r with row := r.row.alternate }, cs)
  | '[' =>
    let (b, rest) := bracket r.verbose cs
    (set? r.verbose (cs.length + 1) [] b rest).map fun (p, cs) => (r.add p, cs)
  | '?' | '*' | '+' =>
    r.row.repeat?.map fun row =>
      ({ r with row }, if cs.head? = some '?' then cs.tail else cs)
  | '{' => none
  | '\\' => (escaped? r.verbose cs).map fun (p, cs) => (r.add p, cs)
  | '.' => some (r.add .any, cs)
  | '^' | '$' => some (r.add .anchor, cs)
  | c => some (r.add (.literal c false), cs)

/-- Reads a pattern to its end. Each step reads a character. -/
def run? : Nat → Reading → List Char → Option Pattern
  | 0, _, _ => none
  | fuel + 1, r, cs =>
    match skip r.verbose cs with
    | [] => if r.frames.isEmpty then some r.row.content else none
    | c :: cs => (r.step? c cs).bind fun (r, cs) => run? fuel r cs

end Reading

def read? (s : String) : Option Pattern := ({} : Reading).run? (s.length + 1) s.toList

/-- Whether a text is a pattern that can be used. -/
def isValid (s : String) : Bool := (read? s).any isUsable

end LinkTrust.Pattern
