import LinkTrust.Proofs.Registry.Effect

/-! # The outcome of a call

What a call answers, and what it leaves of the registry beside the stores. A rejected call leaves
the registry as it was. A change of the stores ends with one request to write the settings, reading
a document excepted, and only calls by which a package arrives may then ask the agent about it.
-/

namespace LinkTrust

def Answer.isRejected : Answer → Bool
  | rejected _ => true
  | _ => false

namespace Call

/-- How often a call with some answer asks for the settings to be written: a change of packages or
users does so once, and a report, a choice or a backup once if it is accepted. -/
def writes : Call → Answer → Nat
  | setVerdict .., .rejected _ => 0
  | setLinkHandling .., .rejected _ => 0
  | setSelection .., .rejected _ => 0
  | restoreState _, .rejected _ => 0
  | addPackage i, _ => if i.token.isNil then 0 else 1
  | migratePackage .., _ => 1
  | removePackage _, _ => 1
  | removeUser _, _ => 1
  | setVerdict .., _ => 1
  | setLinkHandling .., _ => 1
  | setSelection .., _ => 1
  | restoreState _, _ => 1
  | _, _ => 0

/-- The package that arrives by a call. -/
def arrival? : Call → Option Installation
  | addPackage i => some i
  | migratePackage _ new => some new
  | _ => none

end Call

namespace Registry

variable {s t : Registry} {call : Call} {a : Answer}

/-- What a call answers, and the registry that it leaves. -/
inductive Outcome (s : Registry) : Call → Answer → Registry → Prop where
  | idle {call : Call} {a : Answer} (writes : call.writes a = 0) : Outcome s call a s
  | hosted {call : Call} {a : Answer} {h : Host} (writes : call.writes a = 0)
      (accepted : a.isRejected = false) (kept : h.writes = s.host.writes) :
      Outcome s call a { s with host := h }
  | connected {agent : Agent} : Outcome s (.setAgent agent) .done { s with agent }
  | messaged {message : UInt32} :
      Outcome s (.sendMessage message) (.flag s.agent.isAvailable)
        { s with agent := s.agent.deliver message }
  | resent {names : Domains} (nonempty : names.isEmpty = false) :
      Outcome s .resend (.batch names) { s with agent := s.agent.send names }
  | read {source : Source} {x : Stores} : Outcome s (.readState source) .done { s with stores := x }
  | concluded {call : Call} {a : Answer} {x : Stores} (writes : call.writes a = 1)
      (accepted : a.isRejected = false) :
      Outcome s call a { s with stores := x, host := s.host.scheduleWrite }
  | asked {call : Call} {i : Installation} {x : Stores} (writes : call.writes .done = 1)
      (arrival : call.arrival? = some i) :
      Outcome s call .done { s with
        stores := x, host := s.host.scheduleWrite, agent := s.agent.send (.ofList [i.name]) }

section Conclusions

variable {x : Stores} {events : List Event} {i : Installation} {p : Prop} [Decidable p]

theorem outcome_conclude (writes : call.writes .done = 1) :
    s.Outcome call .done (({ s with stores := x } : Registry).conclude events none).registry :=
  .concluded writes rfl

/-- A package that arrives may be asked about. -/
theorem outcome_conclude_arrival (writes : call.writes .done = 1)
    (arrival : call.arrival? = some i) :
    s.Outcome call .done (({ s with stores := x } : Registry).conclude events
      (if p then some i.name else none)).registry := by
  split
  · exact .asked writes arrival
  · exact outcome_conclude writes

theorem outcome_addPackage (i : Installation) :
    s.Outcome (.addPackage i) .done (s.addPackage i).registry := by
  unfold addPackage
  split
  · rename_i hn
    exact .idle (by simp [Call.writes, hn])
  · rename_i hn
    exact outcome_conclude_arrival (by simp [Call.writes, hn]) rfl

theorem outcome_migratePackage (old new : Installation) :
    s.Outcome (.migratePackage old new) .done (s.migratePackage old new).registry := by
  unfold migratePackage
  simp only
  split
  · exact outcome_conclude_arrival rfl rfl
  · exact outcome_conclude rfl

end Conclusions

theorem outcome_perform (call : Call) :
    s.Outcome call (s.perform call).result (s.perform call).registry := by
  cases call with
  | install | uninstall | makeUnavailable | setCaller => exact .hosted rfl rfl rfl
  | setAgent => exact .connected
  | sendMessage => exact .messaged
  | hasAgent | newToken => exact .idle rfl
  | addPackage i => exact outcome_addPackage i
  | migratePackage old new => exact outcome_migratePackage old new
  | removePackage | removeUser => exact .concluded rfl rfl
  | resend =>
    simp only [perform, resend]
    split
    · exact .idle rfl
    · rename_i hn
      exact .resent (Bool.eq_false_iff.mpr hn)
  | writeState sink =>
    simp only [perform, writeState]
    split <;> exact .idle rfl
  | readState source =>
    simp only [perform, readState]
    split
    · exact .idle rfl
    · exact .read
  | restoreState source =>
    simp only [perform, restoreState]
    split
    · exact .idle rfl
    · exact .concluded rfl rfl
  | verifiedNames =>
    simp only [perform, verifiedNames]
    split <;> exact .idle rfl
  | verificationSet name =>
    simp only [perform, verificationSet]
    split <;> exact .idle rfl
  | selection name user? =>
    simp only [perform, selection]
    split <;> exact .idle rfl
  | setVerdict token ds v =>
    simp only [perform, setVerdict]
    split
    · exact .idle rfl
    · exact .concluded rfl rfl
  | setLinkHandling name allowed user? =>
    simp only [perform, setLinkHandling]
    split
    · exact .idle rfl
    · split
      · exact .concluded rfl rfl
      · exact .idle rfl
  | setSelection token hosts enabled user? =>
    simp only [perform, setSelection]
    split
    · exact .idle rfl
    · exact .concluded rfl rfl

section Rejections

variable {token : Token} {ds : Domains} {v : Verdict} {enabled : Bool} {user? : Option UserId}
  {e : Error}

theorem Outcome.eq_of_rejected (h : s.Outcome call (.rejected e) t) : t = s := by
  cases h with
  | idle => rfl
  | hosted _ accepted => cases accepted
  | concluded _ accepted => cases accepted

theorem registry_eq_of_rejected (h : (s.perform call).result = .rejected e) :
    (s.perform call).registry = s :=
  (h ▸ outcome_perform call).eq_of_rejected

theorem result_setVerdict_eq_rejected_iff :
    (s.perform (.setVerdict token ds v)).result = .rejected e ↔
      ∃ r : Rejection, s.reportable token ds v = .error r ∧ r.error = e := by
  simp only [perform, setVerdict, Reply.map]
  cases s.reportable token ds v <;> simp [reject, Answer.ofExcept]

theorem result_setSelection_eq_rejected_iff :
    (s.perform (.setSelection token ds enabled user?)).result = .rejected e ↔
      ∃ r : Rejection, s.selectable token ds (s.userOr user?) = .error r ∧ r.error = e := by
  simp only [perform, setSelection, Reply.map]
  cases s.selectable token ds (s.userOr user?) <;> simp [reject, Answer.ofExcept]

end Rejections

section Acceptances

variable {token : Token} {ds : Domains} {v : Verdict} {k : Nat} {enabled : Bool}
  {user? : Option UserId}

theorem result_setVerdict_eq_count_iff :
    (s.perform (.setVerdict token ds v)).result = .count k ↔
      ∃ r : Record, s.reportable token ds v = .ok r ∧ (ds.filter r.isOpen).size = k := by
  simp only [perform, setVerdict, Reply.map]
  cases s.reportable token ds v <;> simp [reject, Answer.ofExcept]

theorem exists_result_setVerdict_eq_count_iff :
    (∃ k : Nat, (s.perform (.setVerdict token ds v)).result = .count k) ↔
      ∃ r : Record, s.reportable token ds v = .ok r := by
  simp only [result_setVerdict_eq_count_iff]
  constructor
  · rintro ⟨-, r, hr, -⟩
    exact ⟨r, hr⟩
  · rintro ⟨r, hr⟩
    exact ⟨_, r, hr, rfl⟩

theorem result_setSelection_eq_done_iff :
    (s.perform (.setSelection token ds enabled user?)).result = .done ↔
      ∃ r : Record, s.selectable token ds (s.userOr user?) = .ok r := by
  simp only [perform, setSelection, Reply.map]
  cases s.selectable token ds (s.userOr user?) <;> simp [reject, Answer.ofExcept]

end Acceptances

theorem Outcome.platform_eq (h : s.Outcome call a t) : t.platform = s.platform := by
  cases h <;> rfl

theorem Outcome.policy_eq (h : s.Outcome call a t) : t.policy = s.policy := by
  cases h <;> rfl

end Registry
end LinkTrust
