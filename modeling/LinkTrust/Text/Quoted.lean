import LinkTrust.Text.Hidden

/-! # Quoted text

Text between double quotes, as it stands in messages. Quotes and backslashes get a backslash,
characters that are not shown get a letter or their number, and single quotes stay as they are.
-/

namespace LinkTrust.Text

def quotedChar (c : Char) : List Char :=
  match c with
  | '\"' | '\\' => ['\\', c]
  | '\n' => ['\\', 'n']
  | '\r' => ['\\', 'r']
  | '\t' => ['\\', 't']
  | '\x00' => ['\\', '0']
  | _ =>
    if isHidden c then "\\u\x7b".toList ++ Nat.toDigits 16 c.toNat ++ ['\x7d'] else [c]

def quoted (s : String) : String :=
  String.ofList ('\"' :: s.toList.flatMap quotedChar ++ ['\"'])

end LinkTrust.Text
