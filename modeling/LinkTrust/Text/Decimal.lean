import LinkTrust.Text.Utf8

/-! # Decimal numbers

`digits` writes a number in decimal digits and `read?` takes any non-empty row of decimal digits,
leading zeros included. `read?_digits` says that a written number reads back.
-/

namespace LinkTrust.Decimal

def isDigit (b : UInt8) : Bool := 0x30 ≤ b && b ≤ 0x39

/-- The number that a row of digits spells. -/
def value (ds : Bytes) : Nat := ds.foldl (fun n d => 10 * n + (d.toNat - 0x30)) 0

def read? (b : Bytes) : Option Nat :=
  if b ≠ [] ∧ b.all isDigit then some (value b) else none

/-- Reads a text of digits, with or without a plus sign before them. -/
def ofText? (s : String) : Option Nat :=
  match s.toList with
  | '+' :: cs => read? (Utf8.encode (String.ofList cs))
  | _ => read? (Utf8.encode s)

/-- The digits of a number, without leading zeros. -/
def digits (n : Nat) : Bytes := (Nat.toDigits 10 n).map Char.toUInt8

/-- An integer, with a minus sign before the digits of a negative one. -/
def signed (n : Int) : Bytes :=
  if n < 0 then 0x2D :: digits n.natAbs else digits n.natAbs

theorem value_append_singleton (ds : Bytes) (d : UInt8) :
    value (ds ++ [d]) = 10 * value ds + (d.toNat - 0x30) := by
  simp [value, List.foldl_append]

theorem digits_of_lt {n : Nat} (h : n < 10) : digits n = [n.digitChar.toUInt8] := by
  simp [digits, Nat.toDigits_of_lt_base h]

theorem digits_of_le {n : Nat} (h : 10 ≤ n) :
    digits n = digits (n / 10) ++ [(n % 10).digitChar.toUInt8] := by
  simp [digits, Nat.toDigits_of_base_le (by decide) h]

theorem digitChar_toNat : ∀ d < 10, d.digitChar.toUInt8.toNat = 0x30 + d := by decide

theorem isDigit_digitChar : ∀ d < 10, isDigit d.digitChar.toUInt8 = true := by decide

theorem digits_ne_nil (n : Nat) : digits n ≠ [] := by
  by_cases h : n < 10
  · simp [digits_of_lt h]
  · simp [digits_of_le (Nat.le_of_not_lt h)]

theorem all_isDigit_digits (n : Nat) : (digits n).all isDigit = true := by
  induction n using Nat.strongRecOn with
  | ind n ih =>
    by_cases h : n < 10
    · simp [digits_of_lt h, isDigit_digitChar n h]
    · have hn : 10 ≤ n := Nat.le_of_not_lt h
      simp only [digits_of_le hn, List.all_append, ih (n / 10) (by omega), Bool.true_and,
        List.all_cons, List.all_nil, Bool.and_true]
      exact isDigit_digitChar _ (Nat.mod_lt _ (by decide))

theorem value_digits (n : Nat) : value (digits n) = n := by
  induction n using Nat.strongRecOn with
  | ind n ih =>
    by_cases h : n < 10
    · have := digitChar_toNat n h
      simp [digits_of_lt h, value, this]
    · have hn : 10 ≤ n := Nat.le_of_not_lt h
      rw [digits_of_le hn, value_append_singleton, ih (n / 10) (by omega),
        digitChar_toNat _ (Nat.mod_lt _ (by decide))]
      omega

@[simp] theorem read?_digits (n : Nat) : read? (digits n) = some n := by
  simp [read?, digits_ne_nil, all_isDigit_digits, value_digits]

end LinkTrust.Decimal
