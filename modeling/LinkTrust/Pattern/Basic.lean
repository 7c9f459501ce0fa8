/-! # Search patterns

A regular expression, as far as its form decides whether it can be used. There are no tables of
Unicode properties: while Unicode is on, letter case cannot be ignored, and neither word boundaries
nor shorthands such as `\d` are available. While it is off, a pattern must not match a part of a
character, so that it may only speak of ASCII where it speaks of single bytes.
-/

namespace LinkTrust.Pattern

/-- What some options switch on or off. -/
structure Options where
  ignoreCase? : Option Bool := none
  unicode? : Option Bool := none
  /-- Blanks and comments do not belong to the pattern. -/
  verbose? : Option Bool := none
deriving DecidableEq, Repr

/-- How a part of a pattern is meant. -/
structure Mode where
  ignoreCase : Bool := false
  unicode : Bool := true
deriving DecidableEq, Repr

namespace Mode

def set (m : Mode) (o : Options) : Mode :=
  { ignoreCase := o.ignoreCase?.getD m.ignoreCase, unicode := o.unicode?.getD m.unicode }

/-- Whether a set may contain a character in its own right. -/
def admits (m : Mode) (c : Char) : Bool := if m.unicode then !m.ignoreCase else c.toNat < 0x80

end Mode

/-- A set of characters between brackets. -/
inductive CharSet where
  | empty
  | literal (c : Char)
  | range (first last : Char)
  /-- A set with a name, such as `[:alpha:]`. -/
  | named (negated : Bool)
  /-- A shorthand, such as `\d`. -/
  | shorthand (negated : Bool)
  | bracket (negated : Bool) (s : CharSet)
  | union (ss : List CharSet)
  /-- What two sets have in common, or not in common. -/
  | combine (left right : CharSet)

namespace CharSet

mutual

/-- Whether the set can be used. The complement of a set of bytes contains parts of characters. -/
def isUsable (m : Mode) : CharSet → Bool
  | empty => true
  | literal c => m.admits c
  | range first last => m.admits first && m.admits last
  | named negated => if m.unicode then !m.ignoreCase else !negated
  | shorthand negated => !m.unicode && !negated
  | bracket negated s => (m.unicode || !negated) && s.isUsable m
  | union ss => areUsable m ss
  | combine left right => left.isUsable m && right.isUsable m

def areUsable (m : Mode) : List CharSet → Bool
  | [] => true
  | s :: ss => s.isUsable m && areUsable m ss

end

mutual

/-- How deep brackets, unions and combinations are nested. -/
def depth : CharSet → Nat
  | empty | literal _ | range _ _ | named _ | shorthand _ => 0
  | bracket _ s => s.depth + 1
  | union ss => depths ss + 1
  | combine left right => max left.depth right.depth + 1

def depths : List CharSet → Nat
  | [] => 0
  | s :: ss => max s.depth (depths ss)

end

/-- The union of some sets. -/
def ofList : List CharSet → CharSet
  | [] => empty
  | [s] => s
  | ss => union ss

end CharSet
end Pattern

inductive Pattern where
  | empty
  /-- A character; `isByte` says that it is written as the number of a byte. -/
  | literal (c : Char) (isByte : Bool)
  /-- Any character but the end of a line. -/
  | any
  /-- The beginning or the end of a line or of the text. -/
  | anchor
  | wordBoundary
  | shorthand (negated : Bool)
  | set (negated : Bool) (s : Pattern.CharSet)
  /-- Options for the rest of the group. -/
  | options (o : Pattern.Options)
  | group (o : Pattern.Options) (p : Pattern)
  | repetition (p : Pattern)
  | sequence (ps : List Pattern)
  | choice (ps : List Pattern)

namespace Pattern

mutual

/-- The mode behind a pattern, if the pattern can be used in a mode. -/
def modeAfter? (m : Mode) : Pattern → Option Mode
  | empty | anchor => some m
  | literal c isByte =>
    if if m.unicode then !m.ignoreCase else !isByte || c.toNat < 0x80 then some m else none
  | any => if m.unicode then some m else none
  | wordBoundary => if m.unicode then none else some m
  | shorthand negated => if (CharSet.shorthand negated).isUsable m then some m else none
  | set negated s => if (s.bracket negated).isUsable m then some m else none
  | options o => some (m.set o)
  | group o p => (p.modeAfter? (m.set o)).map fun _ => m
  | repetition p => p.modeAfter? m
  | sequence ps | choice ps => modeAfterAll? m ps

/-- The mode behind some patterns, each of which is used in the mode behind the one before. -/
def modeAfterAll? (m : Mode) : List Pattern → Option Mode
  | [] => some m
  | p :: ps => (p.modeAfter? m).bind (modeAfterAll? · ps)

end

mutual

/-- How deep the parts of a pattern are nested. -/
def depth : Pattern → Nat
  | empty | literal _ _ | any | anchor | wordBoundary | shorthand _ | options _ => 0
  | set _ s => s.depth + 1
  | group _ p | repetition p => p.depth + 1
  | sequence ps | choice ps => depths ps + 1

def depths : List Pattern → Nat
  | [] => 0
  | p :: ps => max p.depth (depths ps)

end

def maxDepth : Nat := 250

def isUsable (p : Pattern) : Bool := p.depth ≤ maxDepth && (p.modeAfter? {}).isSome

/-- Some patterns one after the other. -/
def ofList : List Pattern → Pattern
  | [] => empty
  | [p] => p
  | ps => sequence ps

/-- Whether the pattern may be repeated; options may not. -/
def isRepeatable : Pattern → Bool
  | options _ => false
  | _ => true

end Pattern
end LinkTrust
