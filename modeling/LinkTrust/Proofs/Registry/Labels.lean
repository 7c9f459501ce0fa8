import LinkTrust.Proofs.Backup
import LinkTrust.Proofs.Document.Agreement
import LinkTrust.Registry.Call

/-! # Labels of verdicts

A verdict may be labelled in several ways, with one code. Two records agree if they are equal but
for the labels of their verdicts. Records that agree have the same domains left to decide, they give
records that agree again in an upgrade and in a backup, and they are written alike. A report does
the same however its verdict is labelled.
-/

namespace LinkTrust

namespace Verdict

variable {v w : Verdict}

theorem isModifiable_eq (h : v.code = w.code) : v.isModifiable = w.isModifiable := by
  rw [isModifiable, isModifiable, normalized_eq_iff.mpr h]

theorem survivesUpgrade_eq (h : v.code = w.code) : v.survivesUpgrade = w.survivesUpgrade := by
  rw [survivesUpgrade, survivesUpgrade, normalized_eq_iff.mpr h]

theorem isRestorable_eq (h : v.code = w.code) : v.isRestorable = w.isRestorable := by
  rw [isRestorable, isRestorable, normalized_eq_iff.mpr h]

theorem isSettable_eq (h : v.code = w.code) : v.isSettable = w.isSettable := by
  rw [isSettable, isSettable, h]

theorem render_eq (h : v.code = w.code) : v.render = w.render := by
  rw [render, render, normalized_eq_iff.mpr h]

end Verdict

namespace Verdicts

variable {m m' : Verdicts}

/-- A domain has no verdict on either side, or one on each, with one code. -/
theorem Agrees.none_or_some (h : m.Agrees m') (d : String) : m[d]? = none ∧ m'[d]? = none ∨
    ∃ v w : Verdict, m[d]? = some v ∧ m'[d]? = some w ∧ v.code = w.code := by
  have hd := h d
  cases hv : m[d]? with
  | none =>
    rw [hv, Option.map_none, eq_comm, Option.map_eq_none_iff] at hd
    exact .inl ⟨rfl, hd⟩
  | some v =>
    rw [hv, Option.map_some, eq_comm, Option.map_eq_some_iff] at hd
    obtain ⟨w, hw, hc⟩ := hd
    exact .inr ⟨v, w, rfl, hw, hc.symm⟩

theorem Agrees.code_get (h : m.Agrees m') (d : String) : (m.get d).code = (m'.get d).code := by
  rw [get, get]
  obtain ⟨hn, hn'⟩ | ⟨v, w, hv, hw, hc⟩ := h.none_or_some d
  · rw [hn, hn']
  · rwa [hv, hw]

theorem Agrees.any_eq (h : m.Agrees m') {p : Verdict → Bool}
    (hp : ∀ v w : Verdict, v.code = w.code → p v = p w) (d : String) :
    m[d]?.any p = m'[d]?.any p := by
  obtain ⟨hn, hn'⟩ | ⟨v, w, hv, hw, hc⟩ := h.none_or_some d
  · rw [hn, hn']
  · rw [hv, hw]
    exact hp v w hc

/-- What is kept under a condition that looks at codes only. -/
theorem Agrees.filter (h : m.Agrees m') {p : String → Verdict → Bool}
    (hp : ∀ (d : String) (v w : Verdict), v.code = w.code → p d v = p d w) :
    Verdicts.Agrees (m.filter p) (m'.filter p) := by
  intro d
  rw [Std.ExtTreeMap.getElem?_filter', Std.ExtTreeMap.getElem?_filter']
  obtain ⟨hn, hn'⟩ | ⟨v, w, hv, hw, hc⟩ := h.none_or_some d
  · rw [hn, hn']
  · rw [hv, hw, Option.filter_some, Option.filter_some, hp d v w hc]
    split
    · exact congrArg some hc
    · rfl

theorem keys_codes (m : Verdicts) : m.codes.keys = m.keys := Std.ExtTreeMap.keys_map

theorem Agrees.keys_eq (h : m.Agrees m') : m.keys = m'.keys := by
  rw [← keys_codes m, agrees_iff_codes_eq.mp h, keys_codes]

theorem Agrees.carryVerdicts (h : m.Agrees m') (ds : Domains) :
    (Upgrade.carryVerdicts m ds).Agrees (Upgrade.carryVerdicts m' ds) :=
  h.filter fun d _ _ hc => by rw [Verdict.survivesUpgrade_eq hc]

end Verdicts

namespace Record

variable {r r' e e' : Record}

/-- The records are equal, up to how a verdict is labelled. -/
structure Agrees (r r' : Record) : Prop where
  name_eq : r.name = r'.name
  token_eq : r.token = r'.token
  autoVerify_eq : r.autoVerify = r'.autoVerify
  verdicts : r.verdicts.Agrees r'.verdicts
  selections_eq : r.selections = r'.selections

theorem Agrees.modifiableDomains_eq (h : r.Agrees r') :
    r.modifiableDomains = r'.modifiableDomains :=
  (h.verdicts.filter fun _ _ _ hc => Verdict.isModifiable_eq hc).keys_eq

theorem Agrees.trusts_eq (h : r.Agrees r') (d : String) : r.trusts d = r'.trusts d :=
  h.verdicts.any_eq (fun _ _ hc => Verdict.isRestorable_eq hc) d

theorem Agrees.merge (h : r.Agrees r') (h' : e.Agrees e') :
    (Backup.merge r e).Agrees (Backup.merge r' e') := by
  refine ⟨h.name_eq, h.token_eq, h.autoVerify_eq, fun d => ?_, ?_⟩
  · rw [Backup.getElem?_verdicts_merge, Backup.getElem?_verdicts_merge, h.verdicts.code_get,
      h'.trusts_eq]
    split
    · rfl
    · exact h.verdicts d
  · rw [Backup.merge, Backup.merge, h.selections_eq, h'.selections_eq]

theorem Agrees.cleared_eq (h : r.Agrees r') : r.cleared = r'.cleared := by
  rw [cleared, cleared, h.name_eq, h.token_eq, h.autoVerify_eq]

theorem agrees_refl (r : Record) : r.Agrees r := ⟨rfl, rfl, rfl, fun _ => rfl, rfl⟩

theorem agrees_normalized (r : Record) : r.Agrees { r with verdicts := r.verdicts.normalized } :=
  ⟨rfl, rfl, rfl, r.verdicts.agrees_normalized, rfl⟩

theorem Agrees.coerce (h : r.Agrees r') : (Backup.coerce r).Agrees (Backup.coerce r') := by
  rw [Backup.coerce_eq_merge, Backup.coerce_eq_merge, h.cleared_eq]
  exact (agrees_refl _).merge h

theorem Agrees.ofRecord (h : r.Agrees r') : (Entry.ofRecord r).Agrees (Entry.ofRecord r') :=
  ⟨h.name_eq, h.token_eq, h.autoVerify_eq, h.verdicts,
    by rw [Entry.ofRecord, Entry.ofRecord, h.selections_eq]⟩

end Record

section Sorting

variable {α β : Type} {R : α → β → Prop} {le : α → α → Bool} {le' : β → β → Bool}
  {l : List α} {l' : List β}

/-- Lists that are related item by item are still so when they are sorted, if the items of a pair
are sorted alike. -/
theorem forall₂_mergeSort (hle : ∀ a b a' b', R a b → R a' b' → le a a' = le' b b')
    (h : List.Forall₂ R l l') : List.Forall₂ R (l.mergeSort le) (l'.mergeSort le') := by
  obtain ⟨hl, hz⟩ := List.forall₂_iff_zip.mp h
  -- Both sides come from the list of pairs, sorted by the items on the left.
  have h₁ : ((l.zip l').mergeSort fun p q => le p.1 q.1).map Prod.fst = l.mergeSort le := by
    rw [List.map_mergeSort (s := le) fun _ _ _ _ => rfl, List.map_fst_zip (Nat.le_of_eq hl)]
  have h₂ : ((l.zip l').mergeSort fun p q => le p.1 q.1).map Prod.snd = l'.mergeSort le' := by
    rw [List.map_mergeSort (s := le') fun p hp q hq => hle _ _ _ _ (hz hp) (hz hq),
      List.map_snd_zip (Nat.le_of_eq hl.symm)]
  rw [← h₁, ← h₂, List.forall₂_map_left_iff, List.forall₂_map_right_iff, List.forall₂_same]
  exact fun p hp => hz ((List.mergeSort_perm ..).mem_iff.mp hp)

end Sorting

namespace Stores

variable {t t' : Stores}

/-- The stores have the same lists of records, up to how a verdict is labelled. -/
structure Agrees (t t' : Stores) : Prop where
  attached : List.Forall₂ Record.Agrees t.attached.values t'.attached.values
  pending : List.Forall₂ Record.Agrees t.pending.values t'.pending.values
  restored : List.Forall₂ Record.Agrees t.restored.values t'.restored.values

theorem Agrees.snapshot (h : t.Agrees t') : t.snapshot.Agrees t'.snapshot := by
  have hl {l l' : List Record} (h : List.Forall₂ Record.Agrees l l') :
      List.Forall₂ Entry.Agrees (l.map Entry.ofRecord) (l'.map Entry.ofRecord) := by
    rw [List.forall₂_map_left_iff, List.forall₂_map_right_iff]
    exact h.imp fun _ _ hr => hr.ofRecord
  refine ⟨forall₂_mergeSort (fun e e' f f' he hf => ?_) (hl ?_), hl h.restored⟩
  · rw [he.name_eq, hf.name_eq]
  · exact List.rel_append h.attached h.pending

end Stores

/-- What is logged of an event. -/
def Event.shown (e : Event) : Level × String × List (String × String) :=
  (e.level, e.message, e.fields)

/-- The replies have one result, leave one registry and log the same. -/
structure Reply.Alike {α : Type} (a b : Reply α) : Prop where
  result_eq : a.result = b.result
  registry_eq : a.registry = b.registry
  shown_eq : a.events.map Event.shown = b.events.map Event.shown

theorem Reply.Alike.map {α β : Type} {a b : Reply α} (h : a.Alike b) (f : α → β) :
    (a.map f).Alike (b.map f) :=
  ⟨congrArg f h.result_eq, h.registry_eq, h.shown_eq⟩

namespace Registry

variable {s : Registry} {t : Stores} {token : Token} {ds : Domains} {v w : Verdict}

theorem shown_verdictRejected (h : v.code = w.code) :
    (Event.verdictRejected v).shown = (Event.verdictRejected w).shown := by
  simp only [Event.shown, Event.level, Event.message, Event.fields, Verdict.render_eq h]

theorem unsettable_eq (h : v.code = w.code) : Error.unsettable v = Error.unsettable w := by
  rw [Error.unsettable, Error.unsettable, h]

theorem alike_setVerdict (h : v.code = w.code) :
    (s.setVerdict token ds v).Alike (s.setVerdict token ds w) := by
  unfold setVerdict reportable checkSettable
  rw [Verdict.isSettable_eq h, unsettable_eq h, Verdict.normalized_eq_iff.mpr h]
  cases s.authorize .verifier with
  | error r => exact ⟨rfl, rfl, rfl⟩
  | ok =>
    cases w.isSettable with
    | false => exact ⟨rfl, rfl, congrArg (fun e => [e]) (shown_verdictRejected h)⟩
    | true => exact ⟨rfl, rfl, rfl⟩

theorem result_writeState (s : Registry) (sink : Sink) :
    (s.writeState sink).result = (s.stores.snapshot.writeTo sink).mapError .transfer := by
  unfold writeState
  dsimp only
  cases s.stores.snapshot.writeTo sink <;> rfl

/-- Of a verdict only the code matters. Records that agree have the same domains left to decide;
what an upgrade keeps of their verdicts agrees, and so do what comes of merging them, on either
side, what is kept of them from a backup, and their entries. Stores that agree are written as the
same text. A report of any verdict does the same as one of the canonical verdict with its code. -/
theorem only_codes_matter :
    (∀ r r' : Record, r.Agrees r' →
      r.modifiableDomains = r'.modifiableDomains ∧
      (∀ ds : Domains,
        (Upgrade.carryVerdicts r.verdicts ds).Agrees (Upgrade.carryVerdicts r'.verdicts ds)) ∧
      (∀ e e' : Record, e.Agrees e' → (Backup.merge r e).Agrees (Backup.merge r' e')) ∧
      (Backup.coerce r).Agrees (Backup.coerce r') ∧
      (Entry.ofRecord r).Agrees (Entry.ofRecord r')) ∧
    (∀ (s : Registry) (t : Stores) (sink : Sink), s.stores.Agrees t →
      ({ s with stores := t }.perform (.writeState sink)).result =
        (s.perform (.writeState sink)).result) ∧
    ∀ (s : Registry) (token : Token) (ds : Domains) (v : Verdict),
      (s.perform (.setVerdict token ds v)).Alike
        (s.perform (.setVerdict token ds v.normalized)) := by
  refine ⟨fun r r' h => ?_, fun s t sink h => ?_, fun s token ds v => ?_⟩
  · exact ⟨h.modifiableDomains_eq, h.verdicts.carryVerdicts, fun e e' => h.merge, h.coerce,
      h.ofRecord⟩
  · refine congrArg (Answer.ofExcept Answer.text) ?_
    rw [result_writeState, result_writeState, h.snapshot.writeTo_eq sink]
  · exact (alike_setVerdict v.code_normalized.symm).map _

/-- A record whose verdicts are not labelled as their codes are. -/
def mislabelled : Record where
  name := "app"
  token := ⟨1⟩
  autoVerify := true
  verdicts := .ofList
    [("a.org", Verdict.reserved 1), ("b.org", .verifierDefined 0), ("c.org", .reserved 1500)]

theorem only_codes_matter_mislabelled :
    let r := mislabelled
    let r' := { r with verdicts := r.verdicts.normalized }
    let s := create .default .openToAll
    let t : Stores := { pending := .ofList [("app", r)] }
    let t' : Stores := { pending := .ofList [("app", r')] }
    r.Agrees r' ∧ r ≠ r' ∧
    r.modifiableDomains = ["b.org", "c.org"] ∧ r'.modifiableDomains = ["b.org", "c.org"] ∧
    (Backup.merge r r).Agrees (Backup.merge r' r') ∧
    ({ s with stores := t' }.perform (.writeState {})).result =
      ({ s with stores := t }.perform (.writeState {})).result := by
  intro r r' s t t'
  have h : r.Agrees r' := r.agrees_normalized
  have hm : r.modifiableDomains = ["b.org", "c.org"] := by decide +kernel
  obtain ⟨hmodifiable, -, hmerge, -⟩ := only_codes_matter.1 r r' h
  have ht : t.Agrees t' := ⟨.nil, .cons h .nil, .nil⟩
  exact ⟨h, by decide +kernel, hm, hmodifiable ▸ hm, hmerge r r' h,
    only_codes_matter.2.1 { s with stores := t } t' {} ht⟩

end Registry
end LinkTrust
