import LinkTrust.Document.Transfer
import LinkTrust.Proofs.Json.Reading
import LinkTrust.Proofs.Record

/-! # Documents read back

The text of a document reads back as the document with its verdicts made canonical. Each field is
found under its name, and what is written for it is what its reader expects. A source that gives all
its bytes is read as what its whole text holds, and one that fails before is not read.
-/

namespace LinkTrust

namespace Json.Value

section Scalars

@[simp] theorem text?_ofText (s : String) : (ofText s).text? = some s := by
  simp [ofText, text?]

theorem literalInteger?_digits (n : Nat) : literalInteger? (Decimal.digits n) = some (n : Int) := by
  obtain ⟨b, bs, hd⟩ := List.exists_cons_of_ne_nil (Decimal.digits_ne_nil n)
  have hb : b ≠ 0x2D := by
    have h := Decimal.all_isDigit_digits n
    rintro rfl
    simp [hd, Decimal.isDigit] at h
  have hr := Decimal.read?_digits n
  rw [hd] at hr ⊢
  unfold literalInteger?
  split
  · rename_i he
    exact absurd (List.cons.inj he).1 hb
  · rw [hr]
    rfl

@[simp] theorem integer?_ofInteger (n : Int) : (ofInteger n).integer? = some n := by
  simp only [ofInteger, integer?, Decimal.signed]
  split
  · have hn : n.natAbs ≠ 0 := by omega
    have hn' : -(n.natAbs : Int) = n := by omega
    rw [literalInteger?, Decimal.read?_digits, Option.bind_some, if_neg hn, hn']
  · rw [literalInteger?_digits]
    exact congrArg some (by omega)

@[simp] theorem uint32?_ofInteger (u : UInt32) : (ofInteger u.toNat).uint32? = some u := by
  have h := u.toNat_lt
  have h' : 0 ≤ (u.toNat : Int) ∧ (u.toNat : Int) < 0x100000000 := by omega
  rw [uint32?, integer?_ofInteger, Option.bind_some, if_pos h', Int.toNat_natCast,
    UInt32.ofNat_toNat]

@[simp] theorem int32?_ofInteger (c : Int32) : (ofInteger c.toInt).int32? = some c := by
  have h := c.le_toInt
  have h' := c.toInt_lt
  have hc : -0x80000000 ≤ c.toInt ∧ c.toInt < 0x80000000 := by omega
  rw [int32?, integer?_ofInteger, Option.bind_some, if_pos hc, Int32.ofInt_toInt]

end Scalars

variable {α β : Type} {read : Value → Option β} {write : α → Value} {f : α → β}

section Containers

theorem list?_array {l : List α} (h : ∀ a ∈ l, read (write a) = some (f a)) :
    (array (l.map write)).list? read = some (l.map f) :=
  Collections.mapM_map_eq_some h

theorem members?_ofFields {l : List α} {key : α → String} {fields : List (String × Value)}
    (hf : fields = l.map fun a => (key a, write a))
    (h : ∀ a ∈ l, read (write a) = some (f a)) :
    (ofFields fields).members? read = some (l.map fun a => (key a, f a)) := by
  simp only [hf, ofFields, members?, List.map_map]
  refine Collections.mapM_map_eq_some fun a ha => ?_
  simp [h a ha]

/-- An object that is written with some fields has exactly these. -/
theorem fields?_ofFields {l : List (String × Value)} {names : List String}
    (hn : l.map Prod.fst = names) (h : names.Nodup) :
    (ofFields l).fields? names = some (l.map fun p => some p.2) := by
  subst hn
  have hm : (ofFields l).members? some = some l := by
    have hl : l = l.map fun p => (p.1, p.2) := (List.map_id l).symm
    simpa using members?_ofFields hl fun _ _ => rfl
  simp only [ofFields, fields?] at hm ⊢
  rw [hm, Option.bind_eq_bind, Option.bind_some]
  refine Collections.mapM_map_eq_some fun p hp => ?_
  rw [Collections.filter_eq_singleton h hp]

end Containers

section Numerals

theorem numeric_ofInteger (n : Int) : (ofInteger n).Numeric := .number (isNumeral_signed n)

theorem numeric_array {l : List α} (h : ∀ a ∈ l, (write a).Numeric) :
    (array (l.map write)).Numeric := by
  refine .array fun v hv => ?_
  obtain ⟨a, ha, rfl⟩ := List.mem_map.mp hv
  exact h a ha

theorem numeric_ofFields {l : List (String × Value)} (h : ∀ p ∈ l, p.2.Numeric) :
    (ofFields l).Numeric := by
  refine .object fun m hm => ?_
  obtain ⟨p, hp, rfl⟩ := List.mem_map.mp hm
  exact h p hp

end Numerals

end Json.Value

open Json

namespace UserEntry

@[simp] theorem ofValue?_toValue (u : UserEntry) : ofValue? u.toValue = some u := by
  have hh : (Value.array (u.hosts.toList.map .ofText)).list? Value.text? =
      some (u.hosts.toList.map id) := Value.list?_array fun s _ => Value.text?_ofText s
  rw [ofValue?, toValue, Value.fields?_ofFields (by rfl) (by decide)]
  simp [Value.required, Value.optional, Value.boolean?, hh, Collections.ofList_toList]

theorem numeric_toValue (u : UserEntry) : u.toValue.Numeric := by
  refine Value.numeric_ofFields fun p hp => ?_
  simp only [List.mem_cons, List.not_mem_nil, or_false] at hp
  rcases hp with rfl | rfl | rfl
  · exact Value.numeric_ofInteger _
  · exact Value.numeric_array fun _ _ => .string _
  · exact .boolean _

end UserEntry

namespace Verdict

@[simp] theorem ofValue?_toValue (v : Verdict) : ofValue? v.toValue = some v.normalized := by
  simp [ofValue?, toValue, normalized]

end Verdict

namespace Token

@[simp] theorem ofValue?_toValue (t : Token) : ofValue? t.toValue = some t := by
  simp [ofValue?, toValue]

end Token

namespace Verdicts

/-- The same verdicts in their canonical form. -/
def normalized (m : Verdicts) : Verdicts := m.map fun _ v => v.normalized

theorem Canonical.normalized_eq {m : Verdicts} (h : m.Canonical) : m.normalized = m := by
  apply Std.ExtTreeMap.ext_getElem?
  intro d
  rw [normalized, Std.ExtTreeMap.getElem?_map]
  cases hd : m[d]? with
  | none => rfl
  | some v => exact congrArg some (h d v hd)

end Verdicts

namespace Entry

def normalized (e : Entry) : Entry := { e with verdicts := e.verdicts.normalized }

@[simp] theorem ofValue?_toValue (e : Entry) : ofValue? e.toValue = some e.normalized := by
  have hv (fields : List (String × Value))
      (hf : fields = e.verdicts.toList.map fun p => (p.1, p.2.toValue)) :
      (Value.ofFields fields).members? Verdict.ofValue? =
        some (e.verdicts.toList.map fun p => (p.1, p.2.normalized)) :=
    Value.members?_ofFields hf fun p _ => p.2.ofValue?_toValue
  have hu : (Value.array (e.users.map UserEntry.toValue)).list? UserEntry.ofValue? =
      some (e.users.map id) := Value.list?_array fun u _ => u.ofValue?_toValue
  rw [ofValue?, toValue, Value.fields?_ofFields (by rfl) (by decide)]
  simp only [List.map_cons, List.map_nil, Value.optional, Option.bind_eq_bind, Option.bind_some]
  rw [hv _ (by rfl), hu]
  simp [Value.required, Value.boolean?, Collections.ofList_map_toList, normalized,
    Verdicts.normalized]

theorem numeric_toValue (e : Entry) : e.toValue.Numeric := by
  refine Value.numeric_ofFields fun p hp => ?_
  simp only [List.mem_cons, List.not_mem_nil, or_false] at hp
  rcases hp with rfl | rfl | rfl | rfl | rfl
  · exact .string _
  · exact .string _
  · exact .boolean _
  · refine Value.numeric_ofFields fun q hq => ?_
    obtain ⟨d, -, rfl⟩ := List.mem_map.mp hq
    exact Value.numeric_ofInteger _
  · exact Value.numeric_array fun u _ => u.numeric_toValue

end Entry

namespace Document

variable {d : Document}

def normalized (d : Document) : Document :=
  { active := d.active.map Entry.normalized, restored := d.restored.map Entry.normalized }

theorem ofValue?_toValue (d : Document) : ofValue? d.toValue = some d.normalized := by
  have h (l : List Entry) : (Value.array (l.map Entry.toValue)).list? Entry.ofValue? =
      some (l.map Entry.normalized) := Value.list?_array fun e _ => e.ofValue?_toValue
  rw [ofValue?, toValue, Value.fields?_ofFields (by rfl) (by decide)]
  simp [Value.optional, h, normalized]

theorem numeric_toValue (d : Document) : d.toValue.Numeric := by
  refine Value.numeric_ofFields fun p hp => ?_
  simp only [List.mem_cons, List.not_mem_nil, or_false] at hp
  rcases hp with rfl | rfl
  · exact Value.numeric_array fun e _ => e.numeric_toValue
  · exact Value.numeric_array fun e _ => e.numeric_toValue

/-- What is read from the text of a document is the document with canonical verdicts. -/
theorem decode?_encode (d : Document) : decode? d.encode = some d.normalized := by
  have h : Value.parse? d.encode = some d.toValue := Value.parse?_render d.numeric_toValue
  rw [decode?, h, Option.bind_some, ofValue?_toValue]

theorem normalized_eq (h : ∀ e ∈ d.entries, e.verdicts.Canonical) : d.normalized = d := by
  have he (l : List Entry) (hl : ∀ e ∈ l, e.verdicts.Canonical) : l.map Entry.normalized = l := by
    have hc : ∀ e ∈ l, e.normalized = id e := fun e hm => by
      rw [Entry.normalized, (hl e hm).normalized_eq, id]
    rw [List.map_congr_left hc, List.map_id]
  rw [normalized, he _ fun e hm => h e (List.mem_append_left _ hm),
    he _ fun e hm => h e (List.mem_append_right _ hm)]

end Document

namespace Source

/-- All bytes, if they can be read to the end. -/
def contents? (s : Source) : Option Bytes :=
  match s.failsAfter with
  | some n => if n ≤ s.bytes.length then none else some s.bytes
  | none => some s.bytes

/-- A source gives all its bytes and then its end, or it fails. -/
theorem stream_cases (s : Source) :
    s.contents? = some s.bytes ∧ s.stream = ⟨s.bytes, .over⟩ ∨
      s.contents? = none ∧ s.stream.ending = .fault := by
  cases h : s.failsAfter with
  | none => exact .inl (by simp only [contents?, stream, h, and_self])
  | some n =>
    simp only [contents?, stream, h, Json.Stream.failingAfter_eq]
    by_cases hn : n ≤ s.bytes.length
    · exact .inr ⟨if_pos hn, if_pos hn⟩
    · exact .inl ⟨if_neg hn, by rw [if_neg hn, List.take_of_length_le (by omega)]⟩

/-- What is read from a source is what its whole text holds, if that can be had. -/
theorem ofStream?_stream (s : Source) :
    Value.ofStream? s.stream = s.contents?.bind Value.parse? := by
  rcases s.stream_cases with ⟨hc, hs⟩ | ⟨hc, hf⟩
  · rw [hc, hs, Value.ofStream?_over, Option.bind_some]
  · rw [hc, Value.ofStream?_of_fault hf, Option.bind_none]

end Source

namespace Document

theorem readFrom_eq (source : Source) : readFrom source =
    match source.contents?.bind decode? with
    | some d => .ok d
    | none => .error .decode := by
  rw [readFrom, source.ofStream?_stream, Option.bind_assoc]
  rfl

theorem readFrom_encode (h : ∀ e ∈ d.entries, e.verdicts.Canonical) :
    readFrom { bytes := d.encode } = .ok d := by
  simp [readFrom_eq, Source.contents?, decode?_encode, normalized_eq h]

end Document

namespace Sink

/-- A sink that refuses nothing takes all pieces. -/
theorem offer_of_accepts {s : Sink} (h : ∀ n, s.refusal n = none) (taken : Bytes)
    (ps : List Bytes) : s.offer taken ps = ⟨taken ++ ps.flatten, s.flushRefusal⟩ := by
  induction ps generalizing taken with
  | nil => simp [offer]
  | cons p ps ih => simp [offer, h, ih]

end Sink

theorem Document.writeTo_default (d : Document) : d.writeTo {} = .ok d.encode := by
  simp [writeTo, deliver, Sink.offer_of_accepts, encode]

end LinkTrust
