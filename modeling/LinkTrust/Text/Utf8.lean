/-! # UTF-8

Bytes as they are read and written, and the text they spell. `decode?` accepts exactly the byte
sequences that `encode` produces.
-/

namespace LinkTrust

/-- Raw bytes, as they come from a source or go to a sink. -/
abbrev Bytes := List UInt8

namespace Utf8

def encode (s : String) : Bytes := s.toUTF8.data.toList

/-- The text that the bytes spell, if they spell one. -/
def decode? (b : Bytes) : Option String := String.fromUTF8? ⟨b.toArray⟩

@[simp] theorem decode?_encode (s : String) : decode? (encode s) = some s := by
  have h : (⟨s.toUTF8.data.toList.toArray⟩ : ByteArray) = s.toUTF8 := by
    rw [Array.toArray_toList]
  simp only [decode?, encode, h]
  exact dif_pos s.isValidUTF8

theorem eq_encode_of_decode? {b : Bytes} {s : String} (h : decode? b = some s) : b = encode s := by
  simp only [decode?, String.fromUTF8?] at h
  split at h
  · cases h
    simp [encode, String.toUTF8, String.fromUTF8]
  · cases h

theorem decode?_eq_some_iff {b : Bytes} {s : String} : decode? b = some s ↔ b = encode s :=
  ⟨eq_encode_of_decode?, fun h => h ▸ decode?_encode s⟩

theorem encode_injective {s t : String} (h : encode s = encode t) : s = t := by
  simpa using congrArg decode? h

/-- The bytes of one code point. A surrogate gets the three bytes of its number, which no text
contains. -/
def encodePoint (n : Nat) : Bytes :=
  if n < 0x80 then [n.toUInt8]
  else if n < 0x800 then [(0xC0 + n / 0x40).toUInt8, (0x80 + n % 0x40).toUInt8]
  else if n < 0x10000 then
    [(0xE0 + n / 0x1000).toUInt8, (0x80 + n / 0x40 % 0x40).toUInt8, (0x80 + n % 0x40).toUInt8]
  else
    [(0xF0 + n / 0x40000).toUInt8, (0x80 + n / 0x1000 % 0x40).toUInt8,
      (0x80 + n / 0x40 % 0x40).toUInt8, (0x80 + n % 0x40).toUInt8]

end Utf8
end LinkTrust
