import LinkTrust.Text.Hex

/-! # Identity tokens

A token names one package's live record. It is a universally unique identifier of 128 bits; the
nil token, all of whose bits are zero, stands for no token. Tokens are ordered as numbers.
`parse?_render` says that a written token reads back.
-/

namespace LinkTrust

structure Token where
  bits : BitVec 128
deriving DecidableEq, Repr

namespace Token

instance : Ord Token := ⟨compareOn bits⟩

instance : Std.TransOrd Token :=
  inferInstanceAs (Std.TransCmp (compareOn bits))

theorem eq_of_compare_bits {a b : BitVec 128} (h : compare a b = .eq) : a = b :=
  Std.LawfulEqCmp.eq_of_compare h

instance : Std.LawfulEqOrd Token where
  eq_of_compare {s t} h := by
    cases s
    cases t
    exact congrArg mk (eq_of_compare_bits h)

def nil : Token := ⟨0⟩

def isNil (t : Token) : Bool := t = nil

/-- The number of the kind of identifier; 4 marks a random one. -/
def version (t : Token) : Nat := (t.bits >>> 76).toNat % 16

/-- A random token: of the given bits all but the six that mark it as one. -/
def ofRandom (bits : BitVec 128) : Token :=
  ⟨bits &&& 0xFFFFFFFFFFFF0FFF3FFFFFFFFFFFFFFF#128 ||| 0x00000000000040008000000000000000#128⟩

/-- The 32 hexadecimal digits of a token. -/
def simple (t : Token) : List Char := (Hex.digits 32 t.bits.toNat).map Nat.digitChar

/-- Puts hyphens between the first 8 characters, the next three groups of 4, and the rest. -/
def hyphenate (cs : List Char) : List Char :=
  cs.take 8 ++ ['-'] ++ (cs.drop 8).take 4 ++ ['-'] ++ (cs.drop 12).take 4 ++ ['-'] ++
    (cs.drop 16).take 4 ++ ['-'] ++ cs.drop 20

def render (t : Token) : String := String.ofList (hyphenate t.simple)

def ofSimple? (cs : List Char) : Option Token :=
  if cs.length = 32 then (cs.mapM Hex.digit?).map fun ds => ⟨BitVec.ofNat 128 (Hex.ofDigits ds)⟩
  else none

def ofHyphenated? (cs : List Char) : Option Token :=
  if cs[8]? = some '-' ∧ cs[13]? = some '-' ∧ cs[18]? = some '-' ∧ cs[23]? = some '-' then
    ofSimple? (cs.take 8 ++ (cs.drop 9).take 4 ++ (cs.drop 14).take 4 ++ (cs.drop 19).take 4 ++
      cs.drop 24)
  else none

def ofBraced? : List Char → Option Token
  | '{' :: cs => if cs.getLast? = some '}' then ofHyphenated? cs.dropLast else none
  | _ => none

/-- A token after `urn:uuid:`, which is written in any letter case. -/
def ofUrn? (cs : List Char) : Option Token :=
  if (cs.take 9).map Char.toLower = "urn:uuid:".toList then ofHyphenated? (cs.drop 9) else none

/-- Reads the four ways to write a token: its digits alone or with hyphens, and the latter in
braces or as a URN. -/
def parse? (s : String) : Option Token :=
  ofSimple? s.toList <|> ofHyphenated? s.toList <|> ofBraced? s.toList <|> ofUrn? s.toList

@[simp] theorem length_simple (t : Token) : t.simple.length = 32 := by simp [simple]

theorem mapM_digit? {ds : List Nat} (h : ∀ d ∈ ds, d < 16) :
    (ds.map Nat.digitChar).mapM Hex.digit? = some ds := by
  induction ds with
  | nil => rfl
  | cons d ds ih =>
    simp [Hex.digit?_digitChar d (h d (by simp)), ih fun e he => h e (by simp [he])]

theorem ofSimple?_simple (t : Token) : ofSimple? t.simple = some t := by
  have ht : t.bits.toNat < Nat.pow 16 32 := t.bits.isLt
  simp [ofSimple?, simple, mapM_digit? fun _ => Hex.lt_of_mem_digits, Hex.ofDigits_digits ht]

theorem ofHyphenated?_groups {a b c d e : List Char} (ha : a.length = 8) (hb : b.length = 4)
    (hc : c.length = 4) (hd : d.length = 4) :
    ofHyphenated? (a ++ ['-'] ++ b ++ ['-'] ++ c ++ ['-'] ++ d ++ ['-'] ++ e) =
      ofSimple? (a ++ (b ++ (c ++ (d ++ e)))) := by
  simp [ofHyphenated?, List.getElem?_append, List.drop_append, List.drop_of_length_le, ha, hb, hc,
    hd]

theorem ofHyphenated?_hyphenate {cs : List Char} (h : cs.length = 32) :
    ofHyphenated? (hyphenate cs) = ofSimple? cs := by
  rw [hyphenate, ofHyphenated?_groups (by simp [h]) (by simp [h]) (by simp [h]) (by simp [h]),
    ← List.drop_drop (i := 4) (j := 16), List.take_append_drop,
    ← List.drop_drop (i := 4) (j := 12), List.take_append_drop,
    ← List.drop_drop (i := 4) (j := 8), List.take_append_drop, List.take_append_drop]

theorem length_hyphenate {cs : List Char} (h : cs.length = 32) : (hyphenate cs).length = 36 := by
  simp [hyphenate, h]

@[simp] theorem parse?_render (t : Token) : parse? t.render = some t := by
  have h : ofSimple? (hyphenate t.simple) = none := by
    simp [ofSimple?, length_hyphenate t.length_simple]
  simp only [parse?, render, String.toList_ofList, h, ofHyphenated?_hyphenate t.length_simple,
    ofSimple?_simple]
  rfl

end Token
end LinkTrust
