import LinkTrust.Text.Decimal
import Mathlib.Data.List.Induction

/-! # Reading decimal numbers

A row of digits is read as a number exactly if it is zeros and then the digits of the number. A text
is read as the number that its characters spell, with or without a plus sign.
-/

namespace LinkTrust

namespace Utf8

/-- A text with one byte for each character. -/
theorem encode_ofList {cs : List Char} (h : ∀ c ∈ cs, c.utf8Size = 1) :
    encode (String.ofList cs) = cs.map Char.toUInt8 := by
  rw [encode, String.toUTF8, String.toByteArray_ofList]
  induction cs with
  | nil => rfl
  | cons c cs ih =>
    obtain ⟨hc, hcs⟩ := List.forall_mem_cons.mp h
    have hs : [c].utf8Encode.data.toList = [c.toUInt8] := by
      rw [List.utf8Encode_singleton, String.utf8EncodeChar_eq_singleton hc]
      rfl
    rw [List.utf8Encode_cons, ByteArray.data_append, Array.toList_append, hs, ih hcs]
    rfl

end Utf8

namespace Decimal

variable {b ds : Bytes} {d : UInt8} {n k : Nat} {s : String}

section Rows

theorem digitChar_of_isDigit (h : isDigit d = true) :
    d.toNat - 0x30 < 10 ∧ (d.toNat - 0x30).digitChar.toUInt8 = d := by
  have hd : 0x30 ≤ d.toNat ∧ d.toNat ≤ 0x39 := by
    simpa [isDigit, UInt8.le_iff_toNat_le] using h
  have hlt : d.toNat - 0x30 < 10 := by omega
  refine ⟨hlt, UInt8.toNat_inj.mp ?_⟩
  rw [digitChar_toNat _ hlt]
  omega

/-- A row of digits is zeros and then the digits of the number that it spells. -/
theorem exists_eq_replicate_append_digits (hb : b ≠ []) (hd : b.all isDigit = true) :
    ∃ k : Nat, b = List.replicate k 0x30 ++ digits (value b) := by
  induction b using List.reverseRecOn with
  | nil => exact absurd rfl hb
  | append_singleton ds d ih =>
    rw [List.all_append, Bool.and_eq_true] at hd
    obtain ⟨hds, hd⟩ := hd
    obtain ⟨hlt, hchar⟩ := digitChar_of_isDigit (by simpa using hd)
    have hone : digits (d.toNat - 0x30) = [d] := by rw [digits_of_lt hlt, hchar]
    rw [value_append_singleton]
    rcases eq_or_ne ds [] with rfl | hne
    · exact ⟨0, by simpa [value] using hone.symm⟩
    · obtain ⟨k, hk⟩ := ih hne hds
      rcases Nat.eq_zero_or_pos (value ds) with h0 | hpos
      · have hz : digits 0 = [0x30] := rfl
        rw [h0, hz, ← List.replicate_succ'] at hk
        exact ⟨k + 1, by rw [h0, Nat.mul_zero, Nat.zero_add, hone, ← hk]⟩
      · have hlast : digits (10 * value ds + (d.toNat - 0x30)) = digits (value ds) ++ [d] := by
          rw [digits_of_le (by omega), Nat.mul_add_div (by decide), Nat.mul_add_mod,
            Nat.div_eq_of_lt hlt, Nat.mod_eq_of_lt hlt, hchar, Nat.add_zero]
        exact ⟨k, by rw [hlast, ← List.append_assoc, ← hk]⟩

theorem value_replicate_append (k : Nat) (ds : Bytes) :
    value (List.replicate k 0x30 ++ ds) = value ds := by
  induction k with
  | zero => rfl
  | succ k ih =>
    rw [List.replicate_succ, List.cons_append, value, List.foldl_cons]
    exact ih

theorem read?_eq_some_iff :
    read? b = some n ↔ ∃ k : Nat, b = List.replicate k 0x30 ++ digits n := by
  rw [read?, Option.ite_none_right_eq_some, Option.some.injEq]
  constructor
  · rintro ⟨⟨hb, hd⟩, rfl⟩
    exact exists_eq_replicate_append_digits hb hd
  · rintro ⟨k, rfl⟩
    have hz : isDigit 0x30 = true := rfl
    refine ⟨⟨?_, ?_⟩, ?_⟩
    · simp [digits_ne_nil]
    · simp [all_isDigit_digits, hz]
    · rw [value_replicate_append, value_digits]

end Rows

section Texts

/-- The characters of a number in decimal digits, with zeros before them. -/
def spelling (zeros n : Nat) : List Char := List.replicate zeros '0' ++ Nat.toDigits 10 n

theorem isDigit_of_mem_spelling {c : Char} (h : c ∈ spelling k n) : c.isDigit = true := by
  rcases List.mem_append.mp h with h | h
  · rw [List.eq_of_mem_replicate h]
    rfl
  · exact Nat.isDigit_of_mem_toDigits (by decide) (by decide) h

theorem utf8Size_of_isDigit {c : Char} (h : c.isDigit = true) : c.utf8Size = 1 := by
  rw [Char.isDigit, Bool.and_eq_true, decide_eq_true_eq, decide_eq_true_eq] at h
  exact Char.utf8Size_eq_one_iff.mpr (UInt32.le_trans h.2 (by decide))

theorem encode_spelling (k n : Nat) :
    Utf8.encode (String.ofList (spelling k n)) = List.replicate k 0x30 ++ digits n := by
  rw [Utf8.encode_ofList fun c hc => utf8Size_of_isDigit (isDigit_of_mem_spelling hc), spelling,
    List.map_append, List.map_replicate]
  rfl

theorem read?_encode_eq_some_iff :
    read? (Utf8.encode s) = some n ↔ ∃ k : Nat, s.toList = spelling k n := by
  rw [read?_eq_some_iff]
  refine exists_congr fun k => ?_
  rw [← encode_spelling]
  constructor
  · intro h
    rw [Utf8.encode_injective h, String.toList_ofList]
  · intro h
    rw [← h, String.ofList_toList]

/-- A text is read as the number that it spells, with or without a plus sign. -/
theorem ofText?_eq_some_iff : ofText? s = some n ↔
    ∃ (sign : List Char) (k : Nat), (sign = [] ∨ sign = ['+']) ∧
      s.toList = sign ++ spelling k n := by
  unfold ofText?
  split
  · rename_i cs hs
    rw [read?_encode_eq_some_iff, String.toList_ofList, hs]
    constructor
    · rintro ⟨k, rfl⟩
      exact ⟨['+'], k, .inr rfl, rfl⟩
    · rintro ⟨sign, k, rfl | rfl, he⟩
      · -- A plus sign is no digit.
        have hm : '+' ∈ spelling k n := by
          rw [← List.nil_append (spelling k n), ← he]
          exact List.mem_cons_self
        exact absurd (isDigit_of_mem_spelling hm) (by decide)
      · exact ⟨k, (List.cons.inj he).2⟩
  · rename_i hs
    rw [read?_encode_eq_some_iff]
    constructor
    · rintro ⟨k, hk⟩
      exact ⟨[], k, .inl rfl, hk⟩
    · rintro ⟨sign, k, rfl | rfl, he⟩
      · exact ⟨k, he⟩
      · exact (hs _ he).elim

end Texts
end Decimal
end LinkTrust
