import LinkTrust.Proofs.Document.Codec
import LinkTrust.Proofs.Json.Beginnings
import LinkTrust.Proofs.Registry.Outcome

/-! # Torn documents

Of a document whose writing was refused halfway the sink holds a beginning that nothing accepts, no
matter how the text was cut for writing. What cannot be read to its end is not accepted either, and
a registry that is given any of this stays as it is.
-/

namespace LinkTrust

namespace Document

variable {d : Document} {bytes : Bytes} {source : Source}

/-- Some of the text of a document, from its beginning on, but not all of it. -/
structure Torn (d : Document) (bytes : Bytes) : Prop where
  begins : bytes <+: d.encode
  short : bytes ≠ d.encode

theorem Torn.parse?_eq_none (h : d.Torn bytes) : Json.Value.parse? bytes = none :=
  Json.Value.parse?_eq_none_of_prefix d.numeric_toValue h.begins h.short

theorem readFrom_of_ofStream?_eq_none (h : Json.Value.ofStream? source.stream = none) :
    readFrom source = .error .decode := by
  rw [readFrom, h, Option.bind_none]

theorem Torn.readFrom_eq (h : d.Torn source.bytes) : readFrom source = .error .decode := by
  apply readFrom_of_ofStream?_eq_none
  rcases source.stream_cases with ⟨-, hs⟩ | ⟨-, hf⟩
  · rw [hs, Json.Value.ofStream?_over, h.parse?_eq_none]
  · exact Json.Value.ofStream?_of_fault hf

/-- A source that fails is not accepted, even if it has given all bytes of a document. -/
theorem readFrom_of_failsAfter {n : Nat} (h : source.failsAfter = some n)
    (hn : n ≤ source.bytes.length) : readFrom source = .error .decode := by
  apply readFrom_of_ofStream?_eq_none
  apply Json.Value.ofStream?_of_fault
  simp only [Source.stream, h, Json.Stream.failingAfter_eq, if_pos hn]

end Document

namespace Sink

variable {s : Sink} {pieces before : List Bytes} {p : Bytes}

/-- The sink refuses a piece while it does not hold the whole text yet. -/
def RefusesEarly (s : Sink) (pieces : List Bytes) : Prop :=
  ∃ before p after, pieces = before ++ p :: after ∧ before.flatten ≠ pieces.flatten ∧
    (s.refusal (before.flatten.length + p.length)).isSome

theorem exists_piece_across {n : Nat} (h : n < pieces.flatten.length) :
    ∃ before p after, pieces = before ++ p :: after ∧ before.flatten.length ≤ n ∧
      n < before.flatten.length + p.length := by
  induction pieces generalizing n with
  | nil => simp at h
  | cons q pieces ih =>
    by_cases hq : n < q.length
    · exact ⟨[], q, pieces, rfl, Nat.zero_le n, by simpa using hq⟩
    · rw [List.flatten_cons, List.length_append] at h
      obtain ⟨before, p, after, rfl, hb, hp⟩ := ih (n := n - q.length) (by omega)
      refine ⟨q :: before, p, after, rfl, ?_⟩
      rw [List.flatten_cons, List.length_append]
      omega

/-- A sink with less room than the text needs refuses early, however the text is cut. -/
theorem refusesEarly_of_room {n : Nat} (hn : n < pieces.flatten.length)
    (h : ∀ total, n < total → (s.refusal total).isSome) : s.RefusesEarly pieces := by
  obtain ⟨before, p, after, rfl, hb, hp⟩ := exists_piece_across hn
  refine ⟨before, p, after, rfl, fun he => ?_, h _ hp⟩
  rw [← he] at hn
  omega

/-- If a piece is refused, then no more is taken than what was offered before it. -/
theorem exists_offer_of_refusal (taken : Bytes) (after : List Bytes)
    (h : (s.refusal (taken.length + before.flatten.length + p.length)).isSome) :
    ∃ reason, (s.offer taken (before ++ p :: after)).refusal = some reason ∧
      (∃ n, s.refusal n = some reason) ∧
      (s.offer taken (before ++ p :: after)).taken <+: taken ++ before.flatten := by
  induction before generalizing taken with
  | nil =>
    obtain ⟨reason, h⟩ := Option.isSome_iff_exists.mp h
    simp only [List.flatten_nil, List.length_nil, Nat.add_zero] at h
    simp only [List.nil_append, offer, h, List.flatten_nil, List.append_nil]
    exact ⟨reason, rfl, ⟨_, h⟩, List.prefix_rfl⟩
  | cons b before ih =>
    simp only [List.cons_append, offer]
    split
    · rename_i reason hb
      exact ⟨reason, rfl, ⟨_, hb⟩, List.prefix_append ..⟩
    · have hl : (taken ++ b).length + before.flatten.length + p.length =
          taken.length + (b :: before).flatten.length + p.length := by
        simp only [List.length_append, List.flatten_cons]
        omega
      rw [List.flatten_cons, ← List.append_assoc]
      exact ih _ (hl ▸ h)

/-- A sink that refuses early reports its reason and holds a proper beginning of the text. -/
theorem RefusesEarly.exists_offer (h : s.RefusesEarly pieces) :
    ∃ reason, (s.offer [] pieces).refusal = some reason ∧ (∃ n, s.refusal n = some reason) ∧
      (s.offer [] pieces).taken <+: pieces.flatten ∧
      (s.offer [] pieces).taken ≠ pieces.flatten := by
  obtain ⟨before, p, after, rfl, hne, hs⟩ := h
  obtain ⟨reason, hr, hn, ht⟩ := exists_offer_of_refusal [] after (by simpa using hs)
  rw [List.nil_append] at ht
  have hb : before.flatten <+: (before ++ p :: after).flatten := by simp
  exact ⟨reason, hr, hn, ht.trans hb, fun he => hne (hb.eq_of_length_le (he ▸ ht.length_le))⟩

end Sink

namespace Registry

variable {s : Registry} {source : Source}

/-- What cannot be read is rejected, and nothing changes. -/
theorem perform_of_readFrom_eq_error (h : Document.readFrom source = .error .decode) {call : Call}
    (hc : call = .readState source ∨ call = .restoreState source) :
    (s.perform call).result = .rejected (.transfer .decode) ∧ (s.perform call).registry = s := by
  have hr : (s.perform call).result = .rejected (.transfer .decode) := by
    rcases hc with rfl | rfl
    · rw [perform, readState, h]
      rfl
    · rw [perform, restoreState, h]
      rfl
  exact ⟨hr, registry_eq_of_rejected hr⟩

end Registry

/-- A sink that refuses some of a document's text is left with a proper beginning of it, however
the text is cut into pieces, and the writer says that it was refused. No reader accepts a proper
beginning, nor anything from a source that fails before its end is seen, and a registry that is to
read either rejects it without a change. -/
theorem Document.torn_never_accepted (d : Document) :
    (∀ (sink : Sink) (pieces : List Bytes), pieces.flatten = d.encode → sink.RefusesEarly pieces →
      (sink.offer [] pieces).refusal.isSome ∧ d.Torn (sink.offer [] pieces).taken) ∧
    (∀ sink : Sink, sink.RefusesEarly d.pieces →
      ∃ reason, d.writeTo sink = .error (.encode reason) ∧ ∃ n, sink.refusal n = some reason) ∧
    (∀ source : Source, d.Torn source.bytes → readFrom source = .error .decode) ∧
    ∀ (s : Registry) (source : Source) (call : Call),
      (d.Torn source.bytes ∨ ∃ n ≤ source.bytes.length, source.failsAfter = some n) →
      (call = .readState source ∨ call = .restoreState source) →
      (s.perform call).result = .rejected (.transfer .decode) ∧ (s.perform call).registry = s := by
  refine ⟨fun sink pieces hp hs => ?_, fun sink hs => ?_, fun source => Torn.readFrom_eq,
    fun s source call hsource hcall => ?_⟩
  · obtain ⟨reason, hr, -, hb, hne⟩ := hs.exists_offer
    rw [hp] at hb hne
    exact ⟨Option.isSome_of_eq_some hr, hb, hne⟩
  · obtain ⟨reason, hr, hn, -, -⟩ := hs.exists_offer
    exact ⟨reason, by rw [writeTo, deliver, hr], hn⟩
  · refine Registry.perform_of_readFrom_eq_error ?_ hcall
    rcases hsource with ht | ⟨n, hn, hf⟩
    · exact ht.readFrom_eq
    · exact readFrom_of_failsAfter hf hn

/-- A name cut inside a character, and a sink that has no room for the rest. -/
theorem Document.torn_never_accepted_inside_character :
    let d : Document := { active := [{ name := "né", token := ⟨1⟩ }] }
    let sink : Sink := { refusal := fun total => if 46 < total then some "sink full" else none }
    let source : Source := { bytes := d.encode.take 46 }
    source.bytes.getLast? = some 0xC3 ∧ d.writeTo sink = .error (.encode "sink full") ∧
      d.Torn (d.deliver sink).taken ∧ readFrom source = .error .decode := by
  intro d sink source
  obtain ⟨hcut, hwrite, hread, -⟩ := torn_never_accepted d
  have hfull : sink.RefusesEarly d.pieces :=
    Sink.refusesEarly_of_room (n := 46) (by decide +kernel) fun total h => by
      rw [show sink.refusal total = _ from if_pos h]
      rfl
  have htorn : d.Torn source.bytes := ⟨List.take_prefix .., by decide +kernel⟩
  obtain ⟨reason, hw, n, hn⟩ := hwrite sink hfull
  obtain ⟨-, hr⟩ : 46 < n ∧ "sink full" = reason := by simpa [sink] using hn
  refine ⟨by decide +kernel, hr ▸ hw, (hcut sink _ rfl hfull).2, hread source htorn⟩

end LinkTrust
