import LinkTrust.Document.Transfer
import LinkTrust.Proofs.Record

/-! # Documents that were read

A verdict is read by its code, so every verdict in a document that was read is canonical and every
entry of it gives a sound record.
-/

namespace LinkTrust

open Json

theorem Verdict.isCanonical_of_ofValue? {x : Value} {v : Verdict} (h : ofValue? x = some v) :
    v.IsCanonical := by
  obtain ⟨c, -, rfl⟩ := Option.map_eq_some_iff.mp h
  exact isCanonical_ofCode c

/-- The members of an object are read one by one. -/
theorem Json.Value.exists_of_mem_members? {α : Type} {read : Value → Option α} {x : Value}
    {l : List (String × α)} (h : x.members? read = some l) {k : String} {a : α} (ha : (k, a) ∈ l) :
    ∃ y, read y = some a := by
  cases x with
  | object members =>
    obtain ⟨⟨key, y⟩, -, hy⟩ := Collections.exists_of_mapM_eq_some h _ ha
    obtain ⟨k', -, hy⟩ := Option.bind_eq_some_iff.mp hy
    obtain ⟨a', ha', hy⟩ := Option.bind_eq_some_iff.mp hy
    cases hy
    exact ⟨y, ha'⟩
  | _ => cases h

theorem Json.Value.exists_of_mem_list? {α : Type} {read : Value → Option α} {x : Value}
    {l : List α} (h : x.list? read = some l) {a : α} (ha : a ∈ l) : ∃ y, read y = some a := by
  cases x with
  | array items =>
    obtain ⟨y, -, hy⟩ := Collections.exists_of_mapM_eq_some h a ha
    exact ⟨y, hy⟩
  | _ => cases h

namespace Entry

theorem canonical_of_ofValue? {x : Value} {e : Entry} (h : ofValue? x = some e) :
    e.verdicts.Canonical := by
  obtain ⟨fields, -, h⟩ := Option.bind_eq_some_iff.mp h
  split at h
  · rename_i name token autoVerify verdicts users
    obtain ⟨n, -, h⟩ := Option.bind_eq_some_iff.mp h
    obtain ⟨t, -, h⟩ := Option.bind_eq_some_iff.mp h
    obtain ⟨b, -, h⟩ := Option.bind_eq_some_iff.mp h
    obtain ⟨vs, hvs, h⟩ := Option.bind_eq_some_iff.mp h
    obtain ⟨us, -, h⟩ := Option.bind_eq_some_iff.mp h
    cases h
    intro d v hv
    have hm := Collections.mem_of_getElem?_ofList hv
    cases verdicts with
    | none => cases hvs; simp at hm
    | some y =>
      obtain ⟨z, hz⟩ := Json.Value.exists_of_mem_members? hvs hm
      exact Verdict.isCanonical_of_ofValue? hz
  · cases h

end Entry

namespace Document

variable {d : Document} {source : Source}

theorem canonical_of_ofValue? {x : Value} (h : ofValue? x = some d) :
    ∀ e ∈ d.entries, e.verdicts.Canonical := by
  have optional : ∀ {x? : Option Value} {l : List Entry},
      Value.optional [] (Value.list? Entry.ofValue?) x? = some l →
        ∀ e ∈ l, e.verdicts.Canonical := by
    intro x? l hl e he
    cases x? with
    | none => cases hl; simp at he
    | some x =>
      obtain ⟨y, hy⟩ := Json.Value.exists_of_mem_list? hl he
      exact Entry.canonical_of_ofValue? hy
  obtain ⟨fields, -, h⟩ := Option.bind_eq_some_iff.mp h
  split at h
  · obtain ⟨active, ha, h⟩ := Option.bind_eq_some_iff.mp h
    obtain ⟨restored, hr, h⟩ := Option.bind_eq_some_iff.mp h
    cases h
    intro e he
    rcases List.mem_append.mp he with he | he
    · exact optional ha e he
    · exact optional hr e he
  · cases h

theorem canonical_of_readFrom (h : readFrom source = .ok d) :
    ∀ e ∈ d.entries, e.verdicts.Canonical := by
  unfold readFrom at h
  split at h
  · rename_i d' hd
    cases h
    obtain ⟨x, -, hx⟩ := Option.bind_eq_some_iff.mp hd
    exact canonical_of_ofValue? hx
  · cases h

theorem sound_of_readFrom (h : readFrom source = .ok d) {e : Entry} (he : e ∈ d.entries) :
    e.record.Sound :=
  Entry.sound_record (canonical_of_readFrom h e he)

end Document
end LinkTrust
