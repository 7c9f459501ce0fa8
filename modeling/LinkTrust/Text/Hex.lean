/-! # Hexadecimal digits

Digits are read in either case and written in lower case. `ofDigits_digits` says that a number
written with a fixed number of digits reads back if it fits.
-/

namespace LinkTrust.Hex

def digit? (c : Char) : Option Nat :=
  if '0' ≤ c ∧ c ≤ '9' then some (c.toNat - '0'.toNat)
  else if 'a' ≤ c ∧ c ≤ 'f' then some (c.toNat - 'a'.toNat + 10)
  else if 'A' ≤ c ∧ c ≤ 'F' then some (c.toNat - 'A'.toNat + 10)
  else none

/-- The number that a row of digits denotes, the most significant digit first. -/
def ofDigits (ds : List Nat) : Nat := ds.foldl (fun n d => 16 * n + d) 0

/-- The last `width` digits of a number, the most significant digit first. -/
def digits : Nat → Nat → List Nat
  | 0, _ => []
  | width + 1, n => digits width (n / 16) ++ [n % 16]

theorem digit?_digitChar : ∀ d < 16, digit? d.digitChar = some d := by decide

@[simp] theorem length_digits (width n : Nat) : (digits width n).length = width := by
  induction width generalizing n with
  | zero => rfl
  | succ width ih => simp [digits, ih]

theorem lt_of_mem_digits {width n d : Nat} (h : d ∈ digits width n) : d < 16 := by
  induction width generalizing n with
  | zero => simp [digits] at h
  | succ width ih =>
    rcases List.mem_append.1 h with h | h
    · exact ih h
    · simp only [List.mem_singleton] at h
      exact h ▸ Nat.mod_lt _ (by decide)

theorem ofDigits_append_singleton (ds : List Nat) (d : Nat) :
    ofDigits (ds ++ [d]) = 16 * ofDigits ds + d := by
  simp [ofDigits, List.foldl_append]

theorem ofDigits_digits {width n : Nat} (h : n < Nat.pow 16 width) :
    ofDigits (digits width n) = n := by
  induction width generalizing n with
  | zero => simp at h; simp [digits, ofDigits, h]
  | succ width ih =>
    have hn : n / 16 < Nat.pow 16 width := by
      have : n < Nat.pow 16 width * 16 := h
      omega
    rw [digits, ofDigits_append_singleton, ih hn]
    omega

end LinkTrust.Hex
