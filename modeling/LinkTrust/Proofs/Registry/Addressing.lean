import LinkTrust.Proofs.Registry.Coherence
import LinkTrust.Proofs.Registry.Runs

/-! # Packages and their tokens

The verifier and the users address a package by its token. An attached package can be reached in
this way exactly if it has a token at all, which a package that is added always does. An upgrade
enters the package under whatever token the host names, and one without a token puts the package out
of reach.
-/

namespace LinkTrust

/-- The error says that the token of a call is none, or that no attached package has it. -/
def Error.blamesToken : Error → Bool
  | invalidSet _ _ .noToken => true
  | invalidSet _ _ .unknownToken => true
  | _ => false

/-- The token by which a call addresses a package. -/
def Call.addressee? : Call → Option Token
  | setVerdict token _ _ => some token
  | setSelection token _ _ _ => some token
  | _ => none

namespace Registry

variable {s : Registry} {call : Call} {token : Token} {name : String} {r : Record}

/-- Faults of the token are reported only if it is none or if no attached package has it. -/
theorem blamesToken_of_resolve {ds : Domains} {kind : DomainKind} {e : Rejection}
    (ht : token.isNil = false) (hr : s.stores.attached.getByToken? token = some r)
    (h : s.resolve token ds kind = .error e) : e.error.blamesToken = false := by
  rcases resolve_eq_error h with ⟨hn, -⟩ | ⟨hn, -⟩ | ⟨r', -, he | he | he⟩
  · simp [ht] at hn
  · simp [hr] at hn
  all_goals rw [he]; rfl

/-- The package of a record can be addressed by a token: the token is one, it is that of the record
and leads to it, and no call that names it is rejected for its sake. -/
structure Addresses (s : Registry) (token : Token) (r : Record) : Prop where
  nonnil : token.isNil = false
  token_eq : r.token = token
  found : s.stores.attached.getByToken? token = some r
  accepted : ∀ call : Call, call.addressee? = some token →
    ∀ e : Error, (s.perform call).result = .rejected e → e.blamesToken = false

/-- No call can reach the package that has a token: each one that names the token is rejected. -/
def OutOfReach (s : Registry) (token : Token) : Prop :=
  ∀ call : Call, call.addressee? = some token →
    ∃ e : Error, (s.perform call).result = .rejected e ∧ (s.perform call).registry = s

theorem addresses_of_byName (hs : s.stores.Sound) (ht : token.isNil = false)
    (hr : s.stores.attached.byName[name]? = some (token, r)) : s.Addresses token r := by
  have hf : s.stores.attached.getByToken? token = some r :=
    hs.coherent.getByToken?_eq_some_iff.mpr ⟨name, hr⟩
  refine ⟨ht, (hs.each.attached hr).token_eq, hf, fun call hc e he => ?_⟩
  cases call with
  | setVerdict token' ds v =>
    cases hc
    obtain ⟨e', h, rfl⟩ := result_setVerdict_eq_rejected_iff.mp he
    rcases reportable_eq_error h with h | h | h
    · rw [authorize_eq_error h]; rfl
    · rw [checkSettable_eq_error h]; rfl
    · exact blamesToken_of_resolve ht hf h
  | setSelection token' hosts enabled user? =>
    cases hc
    obtain ⟨e', h, rfl⟩ := result_setSelection_eq_rejected_iff.mp he
    rcases selectable_eq_error h with h | h
    · rw [authorize_eq_error h]; rfl
    · exact blamesToken_of_resolve ht hf h
  | _ => cases hc

theorem outOfReach_of_isNil (ht : token.isNil = true) : s.OutOfReach token := by
  have hr (ds : Domains) (kind : DomainKind) (r : Record) : s.resolve token ds kind ≠ .ok r := by
    intro h
    rw [(resolve_eq_ok_iff.mp h).1] at ht
    cases ht
  intro call hc
  have hrejected : ∃ e : Error, (s.perform call).result = .rejected e := by
    cases call with
    | setVerdict token' ds v =>
      cases hc
      cases h : s.reportable token ds v with
      | ok r => exact absurd (reportable_eq_ok_iff.mp h).2.2 (hr _ _ _)
      | error e => exact ⟨_, result_setVerdict_eq_rejected_iff.mpr ⟨e, h, rfl⟩⟩
    | setSelection token' hosts enabled user? =>
      cases hc
      cases h : s.selectable token hosts (s.userOr user?) with
      | ok r => exact absurd (selectable_eq_ok_iff.mp h).2 (hr _ _ _)
      | error e => exact ⟨_, result_setSelection_eq_rejected_iff.mpr ⟨e, h, rfl⟩⟩
    | _ => cases hc
  obtain ⟨e, he⟩ := hrejected
  exact ⟨e, he, registry_eq_of_rejected he⟩

/-- Every attached package has a token. -/
def Tokened (s : Registry) : Prop :=
  s.stores.Each (fun _ token _ => token.isNil = false) fun _ _ => True

/-- Among the calls only an upgrade can take the token of a package away. -/
theorem tokened_perform_iff (h : s.Tokened) :
    (s.perform call).registry.Tokened ↔
      ∀ old new : Installation, call = .migratePackage old new → new.token.isNil = false := by
  constructor
  · rintro ht old new rfl
    obtain ⟨r, hr, -⟩ := exists_stores_migratePackage (s := s) old new
    refine ht.attached (n := new.name) (r := r) ?_
    rw [perform, registry_map, hr]
    exact Roster.byName_enter.trans (if_pos rfl)
  · intro hc
    unfold Tokened at h ⊢
    have he := effect_perform (s := s) call
    generalize (s.perform call).registry.stores = x at he ⊢
    cases he with
    | idle => exact h
    | added nonnil => exact (h.settle _).enter nonnil
    | upgraded => exact h.removeByToken.enter (hc _ _ rfl)
    | restarted => exact h.removeByToken.enter (hc _ _ rfl)
    | removed => exact h.remove
    | userRemoved => exact h.removeUser (fun _ _ _ ht => ht) fun _ _ _ => trivial
    | read => exact h.read (fun _ _ _ _ ht => ht) fun _ _ => trivial
    | restored =>
      exact h.restore (fun _ _ _ _ ht => ht) (fun _ _ _ _ => trivial) fun _ _ => trivial
    | reported => exact h.modifyByToken fun _ _ _ _ hr => h.attached hr
    | linkHandlingSet => exact h.modify fun _ _ ht => ht
    | selected => exact h.modifyByToken fun _ _ _ _ hr => h.attached hr

theorem tokened_create (platform : Platform) (policy : Policy) :
    (create platform policy).Tokened :=
  ⟨fun hn => by simp [create] at hn, fun hn => by simp [create] at hn,
    fun hn => by simp [create] at hn⟩

theorem tokened_iff_addresses (hs : s.stores.Sound) : s.Tokened ↔
    ∀ (name : String) (token : Token) (r : Record),
      s.stores.attached.byName[name]? = some (token, r) → s.Addresses token r := by
  constructor
  · intro h name token r hr
    exact addresses_of_byName hs (h.attached hr) hr
  · intro h
    exact ⟨fun hr => (h _ _ _ hr).nonnil, fun _ => trivial, fun _ => trivial⟩

/-- All along a row of calls every attached package can be addressed by its token exactly if each
upgrade in the row is to a package with a token. A package that has none is out of reach. -/
theorem attached_tokens_address_iff (platform : Platform) (policy : Policy) (calls : List Call) :
    ((create platform policy).Always calls (fun s =>
        ∀ (name : String) (token : Token) (r : Record),
          s.stores.attached.byName[name]? = some (token, r) → s.Addresses token r) ↔
      ∀ old new : Installation, .migratePackage old new ∈ calls → new.token.isNil = false) ∧
    (create platform policy).Always calls fun s =>
      ∀ (name : String) (token : Token) (r : Record),
        s.stores.attached.byName[name]? = some (token, r) →
          (token.isNil = false → s.Addresses token r) ∧
            (token.isNil = true → s.OutOfReach token) := by
  have hs (calls : List Call) : ((create platform policy).after calls).stores.Sound :=
    sound_after (sound_create platform policy) calls
  constructor
  · have ha : (create platform policy).Always calls Tokened ↔ ∀ call ∈ calls,
        ∀ old new : Installation, call = .migratePackage old new → new.token.isNil = false := by
      rw [← throughout_iff_forall_mem]
      exact always_iff_throughout (tokened_create ..) fun _ _ h => tokened_perform_iff h
    simp only [Always, ← tokened_iff_addresses (hs _)]
    rw [← Always, ha]
    constructor
    · intro h old new hc
      exact h _ hc old new rfl
    · rintro h _ hc old new rfl
      exact h old new hc
  · intro earlier later _ name token r hr
    exact ⟨fun ht => addresses_of_byName (hs earlier) ht hr, outOfReach_of_isNil⟩

/-- An upgrade without a token leaves the package attached, but out of reach. -/
theorem upgrade_without_token :
    let s := (create .default .openToAll).after [.install .sample, .addPackage .sample,
      .migratePackage .sample { Installation.sample with token? := none }]
    s.stores.attached.byName["app"]?.map (·.1) = some .nil ∧
      (s.perform (.setVerdict .nil (.ofList ["a.org"]) .success)).result =
        .rejected (.invalidSet none none .noToken) := by
  constructor
  · decide +kernel
  · decide +kernel

end Registry
end LinkTrust
