import LinkTrust.Proofs.Manifest
import LinkTrust.Proofs.Registry.Coherence
import LinkTrust.Proofs.Registry.Outcome

/-! # Faults of a call

What can be wrong with a call that names a token and some domains, in the order in which it is
looked for. A call that may be made at all is rejected for the first fault that it has, whatever
else is wrong with it, and it is accepted if it has none.
-/

namespace LinkTrust.Registry

variable {s : Registry} {token : Token} {ds : Domains} {kind : DomainKind} {v : Verdict}
  {v? : Option Verdict} {r : Record} {i : Nat} {e e' : Error} {user : UserId}

/-- A fault of a call about some domains of the package with a token, with its place in the order of
the checks and the error that reports it. A report can also be at fault for its verdict. -/
inductive Fault (s : Registry) (token : Token) (ds : Domains) (kind : DomainKind)
    (v? : Option Verdict) : Nat → Error → Prop where
  | unsettable {v : Verdict} (reported : v? = some v)
      (code : v.code ≠ 1 ∧ ¬Verdict.firstVerifierDefined ≤ v.code) :
      Fault s token ds kind v? 0 (.unsettable v)
  | noToken (isNil : token.isNil = true) :
      Fault s token ds kind v? 1 (.invalidSet none none .noToken)
  | unknownToken
      (unbound : ∀ (name : String) (r : Record),
        s.stores.attached.byName[name]? ≠ some (token, r)) :
      Fault s token ds kind v? 2 (.invalidSet (some token) none .unknownToken)
  | unavailable {name : String} {r : Record}
      (bound : s.stores.attached.byName[name]? = some (token, r))
      (unresolved : s.host.manifest? name = none) :
      Fault s token ds kind v? 3 (.packageUnavailable name)
  | noDomains {name : String} {r : Record}
      (bound : s.stores.attached.byName[name]? = some (token, r)) (empty : ds = ∅) :
      Fault s token ds kind v? 4 (.invalidSet (some token) (some name) .noDomains)
  | undeclared {name : String} {r : Record} {m : Manifest} {d : String}
      (bound : s.stores.attached.byName[name]? = some (token, r))
      (resolved : s.host.manifest? name = some m) (member : d ∈ ds)
      (foreign : d ∉ m.declared kind) :
      Fault s token ds kind v? 5 (.invalidSet (some token) (some name) .undeclared)

/-- The error reports the first fault that there is. -/
def FirstFault (s : Registry) (token : Token) (ds : Domains) (kind : DomainKind)
    (v? : Option Verdict) (e : Error) : Prop :=
  ∃ i : Nat, s.Fault token ds kind v? i e ∧
    ∀ (j : Nat) (e' : Error), s.Fault token ds kind v? j e' → i ≤ j

section Faults

theorem byName_of_getByToken? (hs : s.stores.Sound)
    (hr : s.stores.attached.getByToken? token = some r) :
    s.stores.attached.byName[r.name]? = some (token, r) := by
  obtain ⟨name, hb⟩ := hs.coherent.getByToken?_eq_some_iff.mp hr
  rwa [(hs.each.attached hb).name_eq]

theorem name_unique (hs : s.stores.Sound) {name name' : String} {r r' : Record}
    (h : s.stores.attached.byName[name]? = some (token, r))
    (h' : s.stores.attached.byName[name']? = some (token, r')) : name = name' :=
  Option.some.inj ((hs.coherent.nameOf_of_byName h).symm.trans (hs.coherent.nameOf_of_byName h'))

theorem FirstFault.unique (hs : s.stores.Sound) (h : s.FirstFault token ds kind v? e)
    (h' : s.FirstFault token ds kind v? e') : e = e' := by
  obtain ⟨i, hi, hfirst⟩ := h
  obtain ⟨j, hj, hfirst'⟩ := h'
  obtain rfl : i = j := Nat.le_antisymm (hfirst j e' hj) (hfirst' i e hi)
  cases hi with
  | unsettable hv =>
    cases hj with
    | unsettable hv' => rw [Option.some.inj (hv.symm.trans hv')]
  | noToken => cases hj; rfl
  | unknownToken => cases hj; rfl
  | unavailable hb =>
    cases hj with
    | unavailable hb' => rw [name_unique hs hb hb']
  | noDomains hb =>
    cases hj with
    | noDomains hb' => rw [name_unique hs hb hb']
  | undeclared hb =>
    cases hj with
    | undeclared hb' => rw [name_unique hs hb hb']

end Faults

section Resolution

variable (hs : s.stores.Sound) (hv : ∀ v : Verdict, v? = some v → v.isSettable = true)

include hv

/-- A verdict that may be reported is no fault. -/
theorem Fault.pos (h : s.Fault token ds kind v? i e) : 0 < i := by
  cases h with
  | unsettable reported code =>
    exact absurd (Verdict.isSettable_iff.mp (hv _ reported)) (not_or.mpr code)
  | _ => decide

include hs

/-- What is left to look for once the package is known. -/
theorem Fault.of_attached (hn : token.isNil = false)
    (hr : s.stores.attached.getByToken? token = some r) (h : s.Fault token ds kind v? i e) :
    i = 3 ∧ s.host.manifest? r.name = none ∨ i = 4 ∧ ds = ∅ ∨
      i = 5 ∧ ∃ m : Manifest, s.host.manifest? r.name = some m ∧
        ds.subset (m.declared kind) = false := by
  have hpos := h.pos hv
  have hb := byName_of_getByToken? hs hr
  have hname {name : String} {r' : Record}
      (hb' : s.stores.attached.byName[name]? = some (token, r')) : name = r.name :=
    name_unique hs hb' hb
  cases h with
  | unsettable => contradiction
  | noToken isNil => exact absurd isNil (by simp [hn])
  | unknownToken unbound => exact absurd hb (unbound r.name r)
  | unavailable bound unresolved => exact .inl ⟨rfl, hname bound ▸ unresolved⟩
  | noDomains bound empty => exact .inr (.inl ⟨rfl, empty⟩)
  | undeclared bound resolved member foreign =>
    refine .inr (.inr ⟨rfl, _, hname bound ▸ resolved, Bool.eq_false_iff.mpr fun hsub => ?_⟩)
    exact foreign (Domains.subset_iff.mp hsub _ member)

theorem firstFault_of_attached (hn : token.isNil = false)
    (hr : s.stores.attached.getByToken? token = some r) {x : Rejection}
    (h : s.resolve token ds kind = .error x) : s.FirstFault token ds kind v? x.error := by
  have hb := byName_of_getByToken? hs hr
  have hleft {j : Nat} {e' : Error} (hj : s.Fault token ds kind v? j e') :=
    hj.of_attached hs hv hn hr
  simp only [resolve, Host.bind_installation?, hn, hr, Bool.false_eq_true, if_false] at h
  cases hm : s.host.manifest? r.name with
  | none =>
    simp only [hm, Except.error.injEq] at h
    subst h
    refine ⟨3, .unavailable hb hm, fun j e' hj => ?_⟩
    have := hleft hj
    omega
  | some m =>
    simp only [hm, Std.ExtTreeSet.isEmpty_iff, Option.some.injEq, reduceCtorEq, and_false,
      false_or, exists_eq_left'] at h hleft
    by_cases he : ds = ∅
    · rw [if_pos he, Except.error.injEq] at h
      subst h
      refine ⟨4, .noDomains hb he, fun j e' hj => ?_⟩
      have := hleft hj
      omega
    · rw [if_neg he] at h
      split at h
      · cases h
      · rename_i hsub
        obtain ⟨d, hd, hdm⟩ : ∃ d ∈ ds, d ∉ m.declared kind := by
          simpa [Domains.subset_iff] using hsub
        cases h
        refine ⟨5, .undeclared hb hm hd hdm, fun j e' hj => ?_⟩
        simp only [he, and_false, false_or] at hleft
        exact Nat.le_of_eq (hleft hj).1.symm

/-- What `resolve` reports is the first fault. -/
theorem firstFault_of_resolve {x : Rejection} (h : s.resolve token ds kind = .error x) :
    s.FirstFault token ds kind v? x.error := by
  cases hn : token.isNil with
  | true =>
    simp only [resolve, hn, if_true, Except.error.injEq] at h
    subst h
    exact ⟨1, .noToken hn, fun j e' hj => hj.pos hv⟩
  | false =>
    cases hr : s.stores.attached.getByToken? token with
    | some r => exact firstFault_of_attached hs hv hn hr h
    | none =>
      simp only [resolve, hn, hr, Bool.false_eq_true, if_false, Except.error.injEq] at h
      subst h
      refine ⟨2, .unknownToken fun name r hb => ?_, fun j e' hj => ?_⟩
      · exact absurd (hs.coherent.getByToken?_eq_some_iff.mpr ⟨name, hb⟩) (by simp [hr])
      · have hpos := hj.pos hv
        cases hj with
        | noToken isNil => exact absurd isNil (by simp [hn])
        | _ => first | contradiction | decide

theorem not_fault_of_resolve (h : s.resolve token ds kind = .ok r) :
    ¬s.Fault token ds kind v? i e := by
  intro hf
  obtain ⟨hn, hr, m, hm, he, hsub⟩ := resolve_eq_ok_iff.mp h
  rcases hf.of_attached hs hv hn hr with ⟨-, hm'⟩ | ⟨-, rfl⟩ | ⟨-, m', hm', hsub'⟩
  · rw [hm] at hm'
    cases hm'
  · simp at he
  · obtain rfl : m = m' := Option.some.inj (hm.symm.trans hm')
    rw [hsub] at hsub'
    cases hsub'

end Resolution

section Outcomes

variable (hs : s.stores.Sound)

include hs

/-- A check that fails with the first fault, and passes only if there is none. -/
theorem error_iff_and_ok_iff {x : Except Rejection Record}
    (herror : ∀ y : Rejection, x = .error y → s.FirstFault token ds kind v? y.error)
    (hok : ∀ r : Record, x = .ok r → ∀ (i : Nat) (e : Error), ¬s.Fault token ds kind v? i e) :
    (∀ e : Error, (∃ y : Rejection, x = .error y ∧ y.error = e) ↔ s.FirstFault token ds kind v? e) ∧
    ((∃ r : Record, x = .ok r) ↔ ∀ (i : Nat) (e : Error), ¬s.Fault token ds kind v? i e) := by
  cases x with
  | error y =>
    have hy := herror y rfl
    refine ⟨fun e => ⟨?_, fun he => ⟨y, rfl, hy.unique hs he⟩⟩, ?_, fun hn => ?_⟩
    · rintro ⟨y', h, rfl⟩
      cases h
      exact hy
    · rintro ⟨r, h⟩
      cases h
    · obtain ⟨i, hi, -⟩ := hy
      exact absurd hi (hn i _)
  | ok r =>
    have hr := hok r rfl
    refine ⟨fun e => ⟨?_, fun ⟨i, hi, _⟩ => absurd hi (hr i e)⟩, fun _ => hr, fun _ => ⟨r, rfl⟩⟩
    rintro ⟨_, h, -⟩
    cases h

theorem firstFault_of_reportable (ha : s.authorize .verifier = .ok ()) {x : Rejection}
    (h : s.reportable token ds v = .error x) :
    s.FirstFault token ds .autoVerify (some v) x.error := by
  by_cases hv : v.isSettable = true
  · have hr : s.resolve token ds .autoVerify = .error x := by
      simpa [reportable, ha, checkSettable, hv, bind, Except.bind] using h
    exact firstFault_of_resolve hs (fun w hw => Option.some.inj hw ▸ hv) hr
  · have hx : checkSettable v = .error x := by
      simpa [reportable, ha, checkSettable, hv, bind, Except.bind] using h
    rw [checkSettable_eq_error hx]
    exact ⟨0, .unsettable rfl (not_or.mp (mt Verdict.isSettable_iff.mpr hv)),
      fun j _ _ => Nat.zero_le j⟩

theorem not_fault_of_reportable (h : s.reportable token ds v = .ok r) :
    ¬s.Fault token ds .autoVerify (some v) i e := by
  obtain ⟨-, hv, hr⟩ := reportable_eq_ok_iff.mp h
  exact not_fault_of_resolve hs (fun w hw => Option.some.inj hw ▸ hv) hr

theorem firstFault_of_selectable (ha : s.authorize (.selectorFor user) = .ok ()) {x : Rejection}
    (h : s.selectable token ds user = .error x) : s.FirstFault token ds .web none x.error := by
  have hr : s.resolve token ds .web = .error x := by
    simpa [selectable, ha, bind, Except.bind] using h
  exact firstFault_of_resolve hs (by simp) hr

theorem not_fault_of_selectable (h : s.selectable token ds user = .ok r) :
    ¬s.Fault token ds .web none i e :=
  not_fault_of_resolve hs (by simp) (selectable_eq_ok_iff.mp h).2

end Outcomes

/-- Domains to be verified are web domains, so what may be reported on may also be chosen. -/
theorem resolve_web_of_resolve_autoVerify (h : s.resolve token ds .autoVerify = .ok r) :
    s.resolve token ds .web = .ok r := by
  obtain ⟨hn, hr, m, hm, he, hsub⟩ := resolve_eq_ok_iff.mp h
  refine resolve_eq_ok_iff.mpr ⟨hn, hr, m, hm, he, Domains.subset_iff.mpr fun d hd => ?_⟩
  exact Manifest.mem_webDomains_of_mem_autoVerifyDomains (Domains.subset_iff.mp hsub d hd)

/-- After every row of calls, and whatever the host has come to hold since, a permitted report is
rejected for the first of its faults, and it is accepted if and only if it has none. The same goes
for a permitted choice of a user, which may be about any web domain. Where a report may be made, a
choice may be made as well. -/
theorem first_fault_is_reported (platform : Platform) (policy : Policy) (calls : List Call)
    (host : Host) (token : Token) (ds : Domains) :
    let s : Registry := { (create platform policy).after calls with host }
    (s.authorize .verifier = .ok () → ∀ v : Verdict,
      (∀ e : Error, (s.perform (.setVerdict token ds v)).result = .rejected e ↔
        s.FirstFault token ds .autoVerify (some v) e) ∧
      ((∃ k : Nat, (s.perform (.setVerdict token ds v)).result = .count k) ↔
        ∀ (i : Nat) (e : Error), ¬s.Fault token ds .autoVerify (some v) i e)) ∧
    (∀ (enabled : Bool) (user? : Option UserId),
      s.authorize (.selectorFor (s.userOr user?)) = .ok () →
      (∀ e : Error, (s.perform (.setSelection token ds enabled user?)).result = .rejected e ↔
        s.FirstFault token ds .web none e) ∧
      ((s.perform (.setSelection token ds enabled user?)).result = .done ↔
        ∀ (i : Nat) (e : Error), ¬s.Fault token ds .web none i e)) ∧
    ∀ r : Record, s.resolve token ds .autoVerify = .ok r → s.resolve token ds .web = .ok r := by
  intro s
  have hs : s.stores.Sound := sound_after (sound_create platform policy) calls
  refine ⟨fun ha v => ?_, fun enabled user? ha => ?_, fun r => resolve_web_of_resolve_autoVerify⟩
  · obtain ⟨herror, hok⟩ := error_iff_and_ok_iff hs
      (fun _ h => firstFault_of_reportable hs ha h)
      fun _ h _ _ => not_fault_of_reportable hs h
    exact ⟨fun e => result_setVerdict_eq_rejected_iff.trans (herror e),
      exists_result_setVerdict_eq_count_iff.trans hok⟩
  · obtain ⟨herror, hok⟩ := error_iff_and_ok_iff hs
      (fun _ h => firstFault_of_selectable hs ha h)
      fun _ h _ _ => not_fault_of_selectable hs h
    exact ⟨fun e => result_setSelection_eq_rejected_iff.trans (herror e),
      result_setSelection_eq_done_iff.trans hok⟩

/-- The host no longer knows a package that is attached. Calls on no domains at all are at fault for
that first, unless the verdict is not for the verifier to report. -/
theorem first_fault_is_reported_sample :
    let s : Registry :=
      { (create .default .openToAll).after [.install .sample, .addPackage .sample] with host := {} }
    (s.perform (.setVerdict ⟨1⟩ ∅ .approved)).result = .rejected (.unsettable .approved) ∧
    (s.perform (.setVerdict ⟨1⟩ ∅ .success)).result = .rejected (.packageUnavailable "app") ∧
    (s.perform (.setSelection ⟨1⟩ ∅ true none)).result = .rejected (.packageUnavailable "app") := by
  intro s
  obtain ⟨hreport, hselect, -⟩ := first_fault_is_reported .default .openToAll
    [.install .sample, .addPackage .sample] {} ⟨1⟩ ∅
  have hverifier : s.authorize .verifier = .ok () := authorize_eq_ok_iff.mpr rfl
  have hselector : s.authorize (.selectorFor (s.userOr none)) = .ok () :=
    authorize_eq_ok_iff.mpr rfl
  have hs : s.stores.Sound := sound_after (sound_create .default .openToAll) _
  have hr : (s.stores.attached.getByToken? ⟨1⟩).map (·.name) = some "app" := by decide +kernel
  obtain ⟨r, hr, hname⟩ := Option.map_eq_some_iff.mp hr
  have hb : s.stores.attached.byName["app"]? = some (⟨1⟩, r) := hname ▸ byName_of_getByToken? hs hr
  have hfirst {kind : DomainKind} {v? : Option Verdict}
      (hv : ∀ v : Verdict, v? = some v → v.isSettable = true) :
      s.FirstFault ⟨1⟩ ∅ kind v? (.packageUnavailable "app") := by
    refine ⟨3, .unavailable hb rfl, fun j e hj => ?_⟩
    have := hj.of_attached hs hv rfl hr
    omega
  exact ⟨((hreport hverifier _).1 _).mpr
      ⟨0, .unsettable rfl (by decide), fun j _ _ => Nat.zero_le j⟩,
    ((hreport hverifier _).1 _).mpr (hfirst fun v hv => Option.some.inj hv ▸ rfl),
    ((hselect true none hselector).1 _).mpr (hfirst (by simp))⟩

end LinkTrust.Registry
