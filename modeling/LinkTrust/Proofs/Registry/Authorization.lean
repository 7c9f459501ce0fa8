import LinkTrust.Proofs.Registry.Runs

/-! # Authorization

Whether a call from outside passes depends on its caller alone: on the trusted uids, on the verifier
of the agent that was connected last, and on the user for whom the caller acts. This is looked at
before anything else, so a caller that is refused gets the same answer whatever the registry holds,
and whatever the arguments of the call are.
-/

namespace LinkTrust

namespace Agent

/-- The uid of the agent, if it is known. -/
def verifier? : Agent → Option Uid
  | unavailable => none
  | connected i => i.verifier?

variable {a : Agent} {uid : Uid}

theorem isVerifier_iff : a.isVerifier uid = true ↔ a.verifier? = some uid := by
  cases a <;> simp [isVerifier, verifier?]

@[simp] theorem verifier?_send {names : Domains} : (a.send names).verifier? = a.verifier? := by
  cases a <;> rfl

@[simp] theorem verifier?_deliver {message : UInt32} :
    (a.deliver message).verifier? = a.verifier? := by
  cases a <;> rfl

end Agent

namespace Demand

/-- The caller has a trusted uid, or it is the verifier, or it acts for the user whose selections
the call is about. -/
def MetBy (demand : Demand) (uids : Std.ExtTreeSet Uid) (verifier? : Option Uid)
    (caller : Caller) : Prop :=
  caller.uid ∈ uids ∨
    match demand with
    | verifier => verifier? = some caller.uid
    | querent => verifier? = some caller.uid
    | selectorFor user => caller.user = user

theorem allows_trusting_iff {demand : Demand} {uids : Std.ExtTreeSet Uid} {agent : Agent}
    {caller : Caller} : (Policy.trusting uids).allows agent caller demand = true ↔
      demand.MetBy uids agent.verifier? caller := by
  cases demand <;> simp [Policy.allows, MetBy, Agent.isVerifier_iff]

instance {demand : Demand} {uids : Std.ExtTreeSet Uid} {verifier? : Option Uid} {caller : Caller} :
    Decidable (demand.MetBy uids verifier? caller) :=
  match demand with
  | verifier | querent | selectorFor _ => inferInstanceAs (Decidable (_ ∨ _))

end Demand

namespace Call

/-- What a call from outside demands of its caller. The package manager may make any call. -/
def demand? (caller : Caller) : Call → Option Demand
  | verifiedNames => some .verifier
  | verificationSet _ => some .querent
  | setVerdict .. => some .verifier
  | setLinkHandling _ _ user? => some (.selectorFor (user?.getD caller.user))
  | setSelection _ _ _ user? => some (.selectorFor (user?.getD caller.user))
  | selection _ user? => some (.selectorFor (user?.getD caller.user))
  | _ => none

/-- The verifier after a call: that of another agent if the call connects one. -/
def verifierAfter? (verifier? : Option Uid) : Call → Option Uid
  | setAgent agent => agent.verifier?
  | _ => verifier?

end Call

namespace Registry

variable {s t : Registry} {call : Call} {a : Answer} {demand : Demand}

section Runs

theorem policy_after (calls : List Call) : (s.after calls).policy = s.policy :=
  after_induction (P := fun t => t.policy = s.policy) calls rfl fun _ call h =>
    (outcome_perform call).policy_eq.trans h

theorem Outcome.verifier?_eq (h : s.Outcome call a t) (hc : ∀ agent, call ≠ .setAgent agent) :
    t.agent.verifier? = s.agent.verifier? := by
  cases h with
  | connected => exact absurd rfl (hc _)
  | messaged => exact Agent.verifier?_deliver
  | resent => exact Agent.verifier?_send
  | asked => exact Agent.verifier?_send
  | _ => rfl

theorem verifier?_perform (s : Registry) (call : Call) :
    (s.perform call).registry.agent.verifier? = call.verifierAfter? s.agent.verifier? := by
  cases call with
  | setAgent => rfl
  | _ => exact (outcome_perform _).verifier?_eq nofun

/-- The verifier of the agent that was connected last. -/
def lastVerifier? (calls : List Call) : Option Uid := calls.foldl Call.verifierAfter? none

theorem verifier?_after (calls : List Call) :
    (s.after calls).agent.verifier? = calls.foldl Call.verifierAfter? s.agent.verifier? := by
  induction calls generalizing s with
  | nil => rfl
  | cons call calls ih => rw [after_cons, ih, verifier?_perform, List.foldl_cons]

end Runs

section Refusals

variable {role : Role} {uid : Uid}

theorem authorize_of_not_allows (h : ¬s.policy.allows s.agent s.host.caller demand = true) :
    s.authorize demand = .error ⟨.notAuthorized demand.role s.host.caller.uid,
      some (.callerRejected demand.role s.host.caller.uid)⟩ := by
  simp [authorize, Policy.check, h]

/-- What a caller gets to whom a call is not open. -/
def refusal (s : Registry) (demand : Demand) : Reply Answer where
  result := .rejected (.notAuthorized demand.role s.host.caller.uid)
  registry := s
  events := [.callerRejected demand.role s.host.caller.uid]

/-- The caller is looked at first: a call that is refused for its caller does nothing else. -/
theorem perform_of_not_allows (hd : call.demand? s.host.caller = some demand)
    (h : ¬s.policy.allows s.agent s.host.caller demand = true) :
    s.perform call = s.refusal demand := by
  have ha := authorize_of_not_allows h
  cases call with
  | verifiedNames =>
    cases hd
    simp [perform, verifiedNames, ha, reject, Reply.map, Answer.ofExcept, refusal]
  | verificationSet =>
    cases hd
    simp [perform, verificationSet, ha, reject, Reply.map, Answer.ofExcept, refusal]
  | setVerdict =>
    cases hd
    simp [perform, setVerdict, reportable, ha, bind, Except.bind, reject, Reply.map,
      Answer.ofExcept, refusal]
  | setLinkHandling =>
    cases hd
    simp [perform, setLinkHandling, userOr, ha, reject, Reply.map, Answer.ofExcept, refusal]
  | setSelection =>
    cases hd
    simp [perform, setSelection, selectable, userOr, ha, bind, Except.bind, reject, Reply.map,
      Answer.ofExcept, refusal]
  | selection =>
    cases hd
    simp [perform, selection, userOr, ha, reject, Reply.map, Answer.ofExcept, refusal]
  | _ => cases hd

theorem resolve_ne_notAuthorized {token : Token} {ds : Domains} {kind : DomainKind} {e : Rejection}
    (h : s.resolve token ds kind = .error e) : e.error ≠ .notAuthorized role uid := by
  rcases resolve_eq_error h with ⟨-, he⟩ | ⟨-, he⟩ | ⟨r, -, he | he | he⟩ <;> simp [he]

/-- No other check blames the caller. -/
theorem result_ne_notAuthorized (hd : call.demand? s.host.caller = some demand)
    (ha : s.authorize demand = .ok ()) :
    (s.perform call).result ≠ .rejected (.notAuthorized role uid) := by
  cases call with
  | verifiedNames =>
    cases hd
    simp [perform, verifiedNames, ha, Reply.map, Answer.ofExcept]
  | verificationSet name =>
    cases hd
    simp only [perform, verificationSet, ha, Reply.map, verificationSet?]
    repeat' split
    all_goals simp [Answer.ofExcept]
  | setVerdict token ds v =>
    cases hd
    rw [ne_eq, result_setVerdict_eq_rejected_iff]
    rintro ⟨e, he, hn⟩
    rcases reportable_eq_error he with he | he | he
    · cases ha.symm.trans he
    · cases (checkSettable_eq_error he).symm.trans hn
    · exact resolve_ne_notAuthorized he hn
  | setLinkHandling name =>
    cases hd
    simp only [perform, setLinkHandling, userOr, ha, Reply.map]
    split <;> simp [reject, Answer.ofExcept]
  | setSelection token hosts =>
    cases hd
    rw [ne_eq, result_setSelection_eq_rejected_iff]
    rintro ⟨e, he, hn⟩
    rcases selectable_eq_error he with he | he
    · cases ha.symm.trans he
    · exact resolve_ne_notAuthorized he hn
  | selection name =>
    cases hd
    simp only [perform, selection, userOr, ha, Reply.map, selection?]
    repeat' split
    all_goals simp [Answer.ofExcept]
  | _ => cases hd

end Refusals

/-- Two registries that know the same of a caller. They may differ in all else, such as the packages
that are attached, those that are installed, and what the agent has received. -/
structure Alike (s t : Registry) : Prop where
  policy_eq : s.policy = t.policy
  verifier?_eq : s.agent.verifier? = t.agent.verifier?
  caller_eq : s.host.caller = t.host.caller

/-- A call from outside is refused for its caller exactly if the caller does not meet the demand,
which looks at the trusted uids, at the verifier that was connected last, and at the user of the
caller. Every call with this demand is then refused in the same way and changes nothing, and it is
also in every other registry that knows the same of the caller. -/
theorem refused_callers_learn_nothing (platform : Platform) (uids : Std.ExtTreeSet Uid)
    (calls : List Call) (call : Call) (demand : Demand)
    (hd : call.demand? ((create platform (.trusting uids)).after calls).host.caller =
      some demand) :
    let s := (create platform (.trusting uids)).after calls
    let met := demand.MetBy uids (lastVerifier? calls) s.host.caller
    ((∃ role uid, (s.perform call).result = .rejected (.notAuthorized role uid)) ↔ ¬met) ∧
    (¬met → ∀ (t : Registry) (call' : Call), s.Alike t →
      call'.demand? t.host.caller = some demand →
        t.perform call' =
          { result := .rejected (.notAuthorized demand.role s.host.caller.uid)
            registry := t
            events := [.callerRejected demand.role s.host.caller.uid] }) := by
  intro s met
  have hmet : ∀ t : Registry, s.Alike t →
      (t.policy.allows t.agent t.host.caller demand = true ↔ met) := by
    intro t h
    rw [← h.policy_eq, ← h.caller_eq, show s.policy = .trusting uids from policy_after calls,
      Demand.allows_trusting_iff, ← h.verifier?_eq,
      show s.agent.verifier? = lastVerifier? calls from verifier?_after calls]
  have hrefused : ¬met → ∀ (t : Registry) (call' : Call), s.Alike t →
      call'.demand? t.host.caller = some demand → t.perform call' = t.refusal demand :=
    fun hn t call' ht hd' => perform_of_not_allows hd' (mt (hmet t ht).mp hn)
  have hself : s.Alike s := ⟨rfl, rfl, rfl⟩
  constructor
  · constructor
    · rintro ⟨role, uid, hr⟩ hm
      exact result_ne_notAuthorized hd (authorize_eq_ok_iff.mpr ((hmet s hself).mpr hm)) hr
    · intro hn
      rw [hrefused hn s call hself hd]
      exact ⟨_, _, rfl⟩
  · intro hn t call' ht hd'
    rw [hrefused hn t call' ht hd', ht.caller_eq]
    rfl

/-- The verifier loses its rights when another agent is connected. It is told so before the verdict,
which no verifier may report, and the token, which is none, are looked at. -/
theorem refused_callers_learn_nothing_sample :
    let s := (create .default .default).after
      [.setAgent (.connect (some 10050)), .setCaller { uid := 10050 }, .setAgent (.connect none)]
    (s.perform (.setVerdict .nil ∅ .noResponse)).result =
      .rejected (.notAuthorized .verifier 10050) := by
  intro s
  have h := refused_callers_learn_nothing .default Platform.defaultUids
    [.setAgent (.connect (some 10050)), .setCaller { uid := 10050 }, .setAgent (.connect none)]
    (.setVerdict .nil ∅ .noResponse) .verifier rfl
  exact congrArg Reply.result (h.2 (by decide +kernel) s _ ⟨rfl, rfl, rfl⟩ rfl)

end Registry
end LinkTrust
