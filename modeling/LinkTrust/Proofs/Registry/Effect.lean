import LinkTrust.Proofs.Stores
import LinkTrust.Registry.Call

/-! # The effect of a call

What a call does to the stores, together with what the registry has found out about the call before
it does so. Every other statement about rows of calls starts from these few cases.
-/

namespace LinkTrust

/-- A package for concrete rows of calls. Its domain was approved before verification existed. -/
def Installation.sample : Installation where
  name := "app"
  token? := some ⟨1⟩
  manifest? := some { package := "app", filters := [.web true ["a.org"]] }
  legacyApproval? := some .always

namespace Registry

variable {s : Registry} {token : Token} {ds : Domains} {kind : DomainKind} {v : Verdict}
  {r : Record} {user : UserId}

section Runs

@[simp] theorem after_nil : s.after [] = s := rfl

@[simp] theorem after_cons (call : Call) (calls : List Call) :
    s.after (call :: calls) = (s.perform call).registry.after calls := rfl

theorem after_append (calls calls' : List Call) :
    s.after (calls ++ calls') = (s.after calls).after calls' :=
  List.foldl_append

/-- What every call keeps is kept by every row of calls. -/
theorem after_induction {P : Registry → Prop} (calls : List Call) (h : P s)
    (step : ∀ s call, P s → P (s.perform call).registry) : P (s.after calls) := by
  induction calls generalizing s with
  | nil => exact h
  | cons call calls ih => exact ih (step s call h)

end Runs

section Checks

theorem authorize_eq_ok_iff {demand : Demand} : s.authorize demand = .ok () ↔
    s.policy.allows s.agent s.host.caller demand = true := by
  by_cases h : s.policy.allows s.agent s.host.caller demand = true <;>
    simp [authorize, Policy.check, h]

theorem authorize_eq_error {demand : Demand} {e : Rejection} (h : s.authorize demand = .error e) :
    e.error = .notAuthorized demand.role s.host.caller.uid := by
  unfold authorize Policy.check at h
  split at h
  · cases h
  · rename_i he
    cases h
    split at he <;> cases he
    rfl

theorem checkSettable_eq_error {e : Rejection} (h : checkSettable v = .error e) :
    e.error = .unsettable v := by
  unfold checkSettable at h
  split at h <;> cases h
  rfl

theorem resolve_eq_ok_iff : s.resolve token ds kind = .ok r ↔
    token.isNil = false ∧ s.stores.attached.getByToken? token = some r ∧
      ∃ m, s.host.manifest? r.name = some m ∧ ds.isEmpty = false ∧
        ds.subset (m.declared kind) = true := by
  constructor
  · intro h
    simp only [resolve, Host.bind_installation?] at h
    split at h
    · cases h
    · rename_i hn
      split at h
      · cases h
      · rename_i hr
        split at h
        · cases h
        · rename_i m hm
          split at h
          · cases h
          · rename_i he
            split at h
            · rename_i hs
              cases h
              exact ⟨Bool.eq_false_iff.mpr hn, hr, m, hm,
                Bool.eq_false_iff.mpr he, hs⟩
            · cases h
  · rintro ⟨hn, hr, m, hm, he, hs⟩
    simp only [resolve, Host.bind_installation?, hn, hr, hm, he, hs, Bool.false_eq_true, if_false,
      if_true]

/-- Which error is reported: one about the token, or else one about the package that it stands
for. -/
theorem resolve_eq_error {e : Rejection} (h : s.resolve token ds kind = .error e) :
    (token.isNil = true ∧ e.error = .invalidSet none none .noToken) ∨
    (s.stores.attached.getByToken? token = none ∧
      e.error = .invalidSet (some token) none .unknownToken) ∨
    ∃ r, s.stores.attached.getByToken? token = some r ∧
      (e.error = .packageUnavailable r.name ∨
        e.error = .invalidSet (some token) (some r.name) .noDomains ∨
        e.error = .invalidSet (some token) (some r.name) .undeclared) := by
  unfold resolve at h
  split at h
  · cases h
    exact .inl ⟨‹_›, rfl⟩
  · split at h
    · cases h
      exact .inr (.inl ⟨‹_›, rfl⟩)
    · rename_i r hr
      refine .inr (.inr ⟨r, hr, ?_⟩)
      split at h
      · cases h
        exact .inl rfl
      · split at h
        · cases h
          exact .inr (.inl rfl)
        · split at h
          · cases h
          · cases h
            exact .inr (.inr rfl)

theorem reportable_eq_ok_iff : s.reportable token ds v = .ok r ↔
    s.authorize .verifier = .ok () ∧ v.isSettable = true ∧
      s.resolve token ds .autoVerify = .ok r := by
  unfold reportable checkSettable
  cases s.authorize .verifier with
  | error e => simp [bind, Except.bind]
  | ok u => by_cases hv : v.isSettable = true <;> simp [bind, Except.bind, hv]

theorem reportable_eq_error {e : Rejection} (h : s.reportable token ds v = .error e) :
    s.authorize .verifier = .error e ∨ checkSettable v = .error e ∨
      s.resolve token ds .autoVerify = .error e := by
  unfold reportable at h
  cases ha : s.authorize .verifier with
  | error => exact .inl (by simpa [ha, bind, Except.bind] using h)
  | ok =>
    cases hv : checkSettable v with
    | error => exact .inr (.inl (by simpa [ha, hv, bind, Except.bind] using h))
    | ok => exact .inr (.inr (by simpa [ha, hv, bind, Except.bind] using h))

theorem selectable_eq_ok_iff : s.selectable token ds user = .ok r ↔
    s.authorize (.selectorFor user) = .ok () ∧ s.resolve token ds .web = .ok r := by
  unfold selectable
  cases s.authorize (.selectorFor user) <;> simp [bind, Except.bind]

theorem selectable_eq_error {e : Rejection} (h : s.selectable token ds user = .error e) :
    s.authorize (.selectorFor user) = .error e ∨ s.resolve token ds .web = .error e := by
  unfold selectable at h
  cases ha : s.authorize (.selectorFor user) with
  | error => exact .inl (by simpa [ha, bind, Except.bind] using h)
  | ok => exact .inr (by simpa [ha, bind, Except.bind] using h)

end Checks

section Frames

@[simp] theorem registry_reject {α : Type} (e : Rejection) :
    (s.reject e : Reply (Except Error α)).registry = s := rfl

@[simp] theorem registry_map {α β : Type} (f : α → β) (reply : Reply α) :
    (reply.map f).registry = reply.registry := rfl

@[simp] theorem stores_mapAttached (f : Roster Record → Roster Record) :
    (s.mapAttached f).stores = s.stores.withAttached (f s.stores.attached) := rfl

@[simp] theorem stores_conclude (events : List Event) (asked? : Option String) :
    (s.conclude events asked?).registry.stores = s.stores := by
  cases asked? <;> rfl

@[simp] theorem platform_conclude (events : List Event) (asked? : Option String) :
    (s.conclude events asked?).registry.platform = s.platform := by
  cases asked? <;> rfl

end Frames

section Packages

variable {i : Installation}

theorem addPackage_of_nonnil (h : i.token.isNil = false) : s.addPackage i =
    ({ s with
      stores := (s.stores.settle i.name).attach i.name i.token (s.attachedRecord i) } :
        Registry).conclude (s.attachEvents i) (if s.isAskedAbout i then some i.name else none) := by
  rw [addPackage, if_neg (by simp [h])]

/-- A record that waits for a package is taken over with the token and the flag that the package has
now, and the agent is not asked. -/
theorem attachedRecord_of_awaited {r : Record}
    (ho : (s.stores.origin i.name).record? = some r) (hl : s.platform.isLinked r.name = false) :
    s.attachedRecord i = { r with token := i.token, autoVerify := !i.autoVerifyDomains.isEmpty } ∧
      s.isAskedAbout i = false := by
  have hf : (s.stores.origin i.name).isFresh = false := by
    cases h : s.stores.origin i.name with
    | fresh => simp [h, Origin.record?] at ho
    | pending => rfl
    | restored => rfl
  constructor
  · simp [attachedRecord, startingRecord, ho, hf, approve, hl]
  · simp [isAskedAbout, hf]

/-- An upgrade enters a record in place of the one that had the old token: a blank one, or one that
was carried over under the new manifest. -/
theorem exists_stores_migratePackage (old new : Installation) : ∃ r : Record,
    (s.migratePackage old new).registry.stores =
      s.stores.withAttached
        ((s.stores.attached.removeByToken old.token).2.enter new.name new.token r) ∧
    (r = blankRecord new ∨ ∃ (r₀ : Record) (m : Manifest), new.manifest? = some m ∧
      r = s.approve (carriedRecord r₀ new m) m.autoVerifyDomains) := by
  unfold migratePackage
  simp only
  split
  · rename_i hm
    exact ⟨_, by rw [stores_conclude, stores_mapAttached], .inr ⟨_, _, hm, rfl⟩⟩
  · exact ⟨_, by rw [stores_conclude, stores_mapAttached], .inl rfl⟩

theorem registry_readState {source : Source} {d : Document}
    (h : Document.readFrom source = .ok d) :
    (s.readState source).registry = { s with stores := s.stores.read d } := by
  simp only [readState, h]

@[simp] theorem autoVerify_approve : (s.approve r ds).autoVerify = r.autoVerify := by
  unfold approve
  split <;> rfl

theorem verdicts_adoptPreferences (r : Record) (i : Installation) :
    (adoptPreferences r i).verdicts =
      if i.isAlwaysApproved = true then r.verdicts.assign i.autoVerifyDomains .migrated
      else r.verdicts := by
  have hu : (i.usersAlways.foldl (fun r user => r.select user (·.enable i.webDomains)) r).verdicts =
      r.verdicts :=
    List.foldlRecOn (motive := fun r' : Record => r'.verdicts = r.verdicts) _ _ rfl
      fun _ hr _ _ => hr
  unfold adoptPreferences
  simp only
  split
  · rw [← hu]; rfl
  · exact hu

theorem autoVerify_adoptPreferences (r : Record) (i : Installation) :
    (adoptPreferences r i).autoVerify = r.autoVerify := by
  have hu : (i.usersAlways.foldl (fun r user => r.select user (·.enable i.webDomains))
      r).autoVerify = r.autoVerify :=
    List.foldlRecOn (motive := fun r' : Record => r'.autoVerify = r.autoVerify) _ _ rfl
      fun _ hr _ _ => hr
  unfold adoptPreferences
  split
  · exact hu
  · exact hu

/-- A package that is added is flagged if it asks for the verification of some domain, whatever it
starts with. -/
theorem autoVerify_attachedRecord :
    (s.attachedRecord i).autoVerify = !i.autoVerifyDomains.isEmpty := by
  have hs : (s.startingRecord i).autoVerify = !i.autoVerifyDomains.isEmpty := by
    unfold startingRecord
    split <;> rfl
  unfold attachedRecord
  simp only
  split
  · exact (autoVerify_adoptPreferences ..).trans hs
  · exact autoVerify_approve.trans hs

end Packages

/-- What a call leaves in the stores. -/
inductive Effect (s : Registry) : Call → Stores → Prop where
  | idle {call : Call} : Effect s call s.stores
  | added {i : Installation} (nonnil : i.token.isNil = false) :
      Effect s (.addPackage i)
        ((s.stores.settle i.name).attach i.name i.token (s.attachedRecord i))
  | upgraded {old new : Installation} {r : Record} {m₀ m : Manifest}
      (found : s.stores.attached.getByToken? old.token = some r)
      (resolvedOld : old.manifest? = some m₀) (resolved : new.manifest? = some m) :
      Effect s (.migratePackage old new)
        (s.stores.withAttached ((s.stores.attached.removeByToken old.token).2.enter new.name
          new.token (s.approve (carriedRecord r new m) m.autoVerifyDomains)))
  | restarted {old new : Installation}
      (inconsistent : s.stores.attached.getByToken? old.token = none ∨ old.manifest? = none ∨
        new.manifest? = none) :
      Effect s (.migratePackage old new)
        (s.stores.withAttached ((s.stores.attached.removeByToken old.token).2.enter new.name
          new.token (blankRecord new)))
  | removed {name : String} :
      Effect s (.removePackage name)
        (s.stores.withAttached (s.stores.attached.remove name).2)
  | userRemoved {user : UserId} : Effect s (.removeUser user) (s.stores.removeUser user)
  | read {source : Source} {d : Document} (decoded : Document.readFrom source = .ok d) :
      Effect s (.readState source) (s.stores.read d)
  | restored {source : Source} {d : Document} (decoded : Document.readFrom source = .ok d) :
      Effect s (.restoreState source) (s.stores.restore d)
  | reported {token : Token} {ds : Domains} {v : Verdict} {r : Record}
      (accepted : s.reportable token ds v = .ok r) :
      Effect s (.setVerdict token ds v)
        (s.stores.withAttached
          (s.stores.attached.modifyByToken token (·.assign (ds.filter r.isOpen) v.normalized)))
  | linkHandlingSet {name : String} {allowed : Bool} {user? : Option UserId}
      (permitted : s.authorize (.selectorFor (s.userOr user?)) = .ok ())
      (attached : s.stores.attached.contains name = true) :
      Effect s (.setLinkHandling name allowed user?)
        (s.stores.withAttached
          (s.stores.attached.modify name (·.select (s.userOr user?) (·.optOut !allowed))))
  | selected {token : Token} {hosts : Domains} {enabled : Bool} {user? : Option UserId} {r : Record}
      (accepted : s.selectable token hosts (s.userOr user?) = .ok r) :
      Effect s (.setSelection token hosts enabled user?)
        (s.stores.withAttached
          (s.stores.attached.modifyByToken token (·.select (s.userOr user?) fun selection =>
            if enabled then selection.enable hosts else selection.disable hosts)))

theorem effect_addPackage (i : Installation) :
    Effect s (.addPackage i) (s.addPackage i).registry.stores := by
  unfold addPackage
  by_cases hn : i.token.isNil = true
  · rw [if_pos hn]
    exact .idle
  · rw [if_neg hn, stores_conclude]
    exact .added (Bool.eq_false_iff.mpr hn)

theorem effect_migratePackage (old new : Installation) :
    Effect s (.migratePackage old new) (s.migratePackage old new).registry.stores := by
  unfold migratePackage
  simp only [Roster.fst_removeByToken]
  split
  · rename_i hr ho hn
    rw [stores_conclude, stores_mapAttached]
    exact .upgraded hr ho hn
  · rename_i hne
    rw [stores_conclude, stores_mapAttached]
    refine .restarted ?_
    cases hr : s.stores.attached.getByToken? old.token with
    | none => exact .inl rfl
    | some r =>
      cases ho : old.manifest? with
      | none => exact .inr (.inl rfl)
      | some m₀ =>
        cases hn : new.manifest? with
        | none => exact .inr (.inr rfl)
        | some m => exact absurd hn (hne r m₀ m hr ho)

theorem effect_perform (call : Call) : Effect s call (s.perform call).registry.stores := by
  cases call with
  | addPackage i => exact effect_addPackage i
  | migratePackage old new => exact effect_migratePackage old new
  | removePackage name =>
    simp only [perform, registry_map, removePackage, stores_conclude, stores_mapAttached]
    exact .removed
  | removeUser user =>
    simp only [perform, registry_map, removeUser, stores_conclude]
    exact .userRemoved
  | readState source =>
    simp only [perform, registry_map, readState]
    split
    · exact .idle
    · exact .read ‹_›
  | restoreState source =>
    simp only [perform, registry_map, restoreState]
    split
    · exact .idle
    · exact .restored ‹_›
  | setVerdict token ds v =>
    simp only [perform, registry_map, setVerdict]
    split
    · exact .idle
    · exact .reported ‹_›
  | setLinkHandling name allowed user? =>
    simp only [perform, registry_map, setLinkHandling]
    split
    · exact .idle
    · split
      · exact .linkHandlingSet ‹_› ‹_›
      · exact .idle
  | setSelection token hosts enabled user? =>
    simp only [perform, registry_map, setSelection]
    split
    · exact .idle
    · exact .selected ‹_›
  | resend =>
    simp only [perform, registry_map, resend]
    split <;> exact .idle
  | writeState sink =>
    simp only [perform, registry_map, writeState]
    split <;> exact .idle
  | verifiedNames =>
    simp only [perform, registry_map, verifiedNames]
    split <;> exact .idle
  | verificationSet name =>
    simp only [perform, registry_map, verificationSet]
    split <;> exact .idle
  | selection name user? =>
    simp only [perform, registry_map, selection]
    split <;> exact .idle
  | _ => exact .idle

end Registry
end LinkTrust
