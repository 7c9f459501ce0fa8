import LinkTrust.Proofs.Document.Codec
import Mathlib.Data.List.Forall2

/-! # Documents that agree

Two documents agree if they are equal field by field, with verdicts compared by their codes. The
text of a document does not tell it from one that it agrees with, and what is read from the text
agrees with the document that was written.
-/

namespace LinkTrust

namespace Verdicts

variable {m m' : Verdicts}

/-- The same domains have a verdict, and with the same code. -/
def Agrees (m m' : Verdicts) : Prop :=
  ∀ d : String, m[d]?.map Verdict.code = m'[d]?.map Verdict.code

/-- The codes of the verdicts. -/
def codes (m : Verdicts) : Std.ExtTreeMap String Int32 := m.map fun _ v => v.code

theorem agrees_iff_codes_eq : m.Agrees m' ↔ m.codes = m'.codes := by
  have hc (m : Verdicts) (d : String) : m.codes[d]? = m[d]?.map Verdict.code := by
    rw [codes, Std.ExtTreeMap.getElem?_map]
  constructor
  · intro h
    apply Std.ExtTreeMap.ext_getElem?
    intro d
    rw [hc, hc, h d]
  · intro h d
    rw [← hc, ← hc, h]

theorem agrees_normalized (m : Verdicts) : m.Agrees m.normalized := by
  intro d
  simp only [normalized, Std.ExtTreeMap.getElem?_map, Option.map_map]
  congr 1
  funext v
  exact v.code_normalized.symm

theorem canonical_normalized (m : Verdicts) : m.normalized.Canonical := by
  intro d v hv
  rw [normalized, Std.ExtTreeMap.getElem?_map] at hv
  obtain ⟨w, -, rfl⟩ := Option.map_eq_some_iff.mp hv
  exact Verdict.isCanonical_ofCode w.code

/-- Verdicts are written by their codes. -/
theorem map_toValue_eq (m : Verdicts) : (m.toList.map fun p => (p.1, p.2.toValue)) =
    m.codes.toList.map fun p => (p.1, Json.Value.ofInteger p.2.toInt) := by
  rw [codes, Std.ExtTreeMap.toList_map, List.map_map]
  rfl

end Verdicts

namespace Entry

variable {e e' : Entry}

structure Agrees (e e' : Entry) : Prop where
  name_eq : e.name = e'.name
  token_eq : e.token = e'.token
  autoVerify_eq : e.autoVerify = e'.autoVerify
  verdicts : e.verdicts.Agrees e'.verdicts
  users_eq : e.users = e'.users

theorem agrees_normalized (e : Entry) : e.Agrees e.normalized :=
  ⟨rfl, rfl, rfl, e.verdicts.agrees_normalized, rfl⟩

/-- A written entry shows the codes of its verdicts and nothing else of them. -/
theorem Agrees.toValue_eq (h : e.Agrees e') : e.toValue = e'.toValue := by
  have hv : (e.verdicts.toList.map fun p => (p.1, p.2.toValue)) =
      e'.verdicts.toList.map fun p => (p.1, p.2.toValue) := by
    rw [Verdicts.map_toValue_eq, Verdicts.map_toValue_eq,
      Verdicts.agrees_iff_codes_eq.mp h.verdicts]
  simp only [toValue, h.name_eq, h.token_eq, h.autoVerify_eq, h.users_eq, hv]

end Entry

namespace Document

variable {d d' : Document}

/-- The documents have the same lists of entries, up to how a verdict is labelled. -/
structure Agrees (d d' : Document) : Prop where
  active : List.Forall₂ Entry.Agrees d.active d'.active
  restored : List.Forall₂ Entry.Agrees d.restored d'.restored

theorem Agrees.toValue_eq (h : d.Agrees d') : d.toValue = d'.toValue := by
  have hl {l l' : List Entry} (hl : List.Forall₂ Entry.Agrees l l') :
      l.map Entry.toValue = l'.map Entry.toValue := by
    induction hl with
    | nil => rfl
    | cons he _ ih => rw [List.map_cons, List.map_cons, he.toValue_eq, ih]
  rw [toValue, toValue, hl h.active, hl h.restored]

/-- Documents that agree are written alike to any sink. -/
theorem Agrees.writeTo_eq (h : d.Agrees d') (sink : Sink) : d.writeTo sink = d'.writeTo sink := by
  have hp : d.pieces = d'.pieces := by
    rw [pieces, pieces, h.toValue_eq]
  rw [writeTo, writeTo, deliver, deliver, hp]

theorem agrees_normalized (d : Document) : d.Agrees d.normalized := by
  have hl (l : List Entry) : List.Forall₂ Entry.Agrees l (l.map Entry.normalized) := by
    rw [List.forall₂_map_right_iff, List.forall₂_same]
    exact fun e _ => e.agrees_normalized
  exact ⟨hl d.active, hl d.restored⟩

theorem canonical_normalized (d : Document) : ∀ e ∈ d.normalized.entries, e.verdicts.Canonical := by
  intro e he
  rw [entries, normalized, ← List.map_append] at he
  obtain ⟨e, -, rfl⟩ := List.mem_map.mp he
  exact e.verdicts.canonical_normalized

end Document

/-- A sink that has refused nothing holds all that it was offered. -/
theorem Sink.taken_of_refusal_eq_none {s : Sink} {taken : Bytes} {ps : List Bytes}
    (h : (s.offer taken ps).refusal = none) : (s.offer taken ps).taken = taken ++ ps.flatten := by
  induction ps generalizing taken with
  | nil => simp [offer]
  | cons p ps ih =>
    unfold offer at h ⊢
    split at h
    · cases h
    · rw [ih h, List.append_assoc, List.flatten_cons]

namespace Document

theorem eq_encode_of_writeTo {d : Document} {sink : Sink} {text : Bytes}
    (h : d.writeTo sink = .ok text) : text = d.encode := by
  unfold writeTo at h
  split at h
  · cases h
  · rename_i hr
    cases h
    exact Sink.taken_of_refusal_eq_none hr

/-- Whatever the document, it can be written, and what is read from its text agrees with it, has
canonical verdicts only, and is written as the same text again. -/
theorem written_document_reads_back (d : Document) : ∃ d' : Document,
    d.Agrees d' ∧ (∀ e ∈ d'.entries, e.verdicts.Canonical) ∧
    (∃ text : Bytes, d.writeTo {} = .ok text) ∧
    (∀ (sink : Sink) (text : Bytes) (source : Source), d.writeTo sink = .ok text →
      source.contents? = some text → readFrom source = .ok d') ∧
    ∀ sink : Sink, d'.writeTo sink = d.writeTo sink := by
  refine ⟨d.normalized, d.agrees_normalized, d.canonical_normalized, ⟨_, d.writeTo_default⟩, ?_,
    fun sink => (d.agrees_normalized.writeTo_eq sink).symm⟩
  intro sink text source hw hs
  obtain rfl := eq_encode_of_writeTo hw
  rw [readFrom_eq, hs, Option.bind_some, decode?_encode]

end Document
end LinkTrust
