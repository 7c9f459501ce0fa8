import LinkTrust.Json.Value

/-! # Printing JSON

A value is written as a row of pieces, in the order in which they go to a sink. In a string only
quotes, backslashes and control characters are escaped; this is done byte by byte, since these
characters are single bytes that occur in no other character. Empty containers stay on one line.
-/

namespace LinkTrust.Json

/-- How containers are laid out: on one line, or with each item on a line of its own. -/
inductive Layout where
  | compact
  | indented
deriving DecidableEq, Repr

namespace Layout

/-- What stands before an item or a closing bracket at some depth. -/
def lineBreak (layout : Layout) (depth : Nat) : Bytes :=
  match layout with
  | compact => []
  | indented => Utf8.encode "\n" ++ List.replicate (2 * depth) ' '.toUInt8

def colon : Layout → Bytes
  | compact => Utf8.encode ":"
  | indented => Utf8.encode ": "

end Layout

def escapeByte (b : UInt8) : Bytes :=
  match Char.ofUInt8 b with
  | '\"' => Utf8.encode "\\\""
  | '\\' => Utf8.encode "\\\\"
  | '\x08' => Utf8.encode "\\b"
  | '\x0C' => Utf8.encode "\\f"
  | '\n' => Utf8.encode "\\n"
  | '\r' => Utf8.encode "\\r"
  | '\t' => Utf8.encode "\\t"
  | c =>
    if c < ' ' then
      Utf8.encode "\\u00" ++ (Hex.digits 2 b.toNat).map (·.digitChar.toUInt8)
    else [b]

/-- A string literal with the given content. -/
def quote (content : Bytes) : Bytes :=
  '\"'.toUInt8 :: content.flatMap escapeByte ++ ['\"'.toUInt8]

namespace Value

mutual

/-- The pieces of a value that begins at some depth. -/
def pieces (layout : Layout) (depth : Nat) : Value → List Bytes
  | null => [Utf8.encode "null"]
  | boolean b => [Utf8.encode (if b then "true" else "false")]
  | number literal => [literal]
  | string content => [quote content]
  | array [] => [Utf8.encode "[]"]
  | array (v :: vs) =>
    Utf8.encode "[" :: layout.lineBreak (depth + 1) :: v.pieces layout (depth + 1) ++
      itemPieces layout (depth + 1) vs ++ [layout.lineBreak depth, Utf8.encode "]"]
  | object [] => [Utf8.encode "\x7b\x7d"]
  | object ((k, v) :: ms) =>
    Utf8.encode "\x7b" :: layout.lineBreak (depth + 1) :: quote k :: layout.colon ::
      v.pieces layout (depth + 1) ++ memberPieces layout (depth + 1) ms ++
      [layout.lineBreak depth, Utf8.encode "\x7d"]

/-- The pieces of the items after the first. -/
def itemPieces (layout : Layout) (depth : Nat) : List Value → List Bytes
  | [] => []
  | v :: vs =>
    Utf8.encode "," :: layout.lineBreak depth :: v.pieces layout depth ++
      itemPieces layout depth vs

/-- The pieces of the members after the first. -/
def memberPieces (layout : Layout) (depth : Nat) : List (Bytes × Value) → List Bytes
  | [] => []
  | (k, v) :: ms =>
    Utf8.encode "," :: layout.lineBreak depth :: quote k :: layout.colon ::
      v.pieces layout depth ++ memberPieces layout depth ms

end

def render (layout : Layout) (v : Value) : Bytes := (v.pieces layout 0).flatten

def ofText (s : String) : Value := string (Utf8.encode s)

def ofInteger (n : Int) : Value := number (Decimal.signed n)

def ofFields (fields : List (String × Value)) : Value :=
  object (fields.map fun (k, v) => (Utf8.encode k, v))

end Value
end LinkTrust.Json
