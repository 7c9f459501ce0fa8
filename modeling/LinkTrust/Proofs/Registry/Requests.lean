import LinkTrust.Proofs.Registry.Waiting

/-! # What the agent hears

The requests that the agent receives, in the order of the calls: one about each package that arrives
fresh or as an upgrade and has something to verify that the platform does not vouch for, and one
about all packages that still wait for a verdict whenever it is asked once more. No other call sends
anything, and without an agent the requests are dropped.
-/

namespace LinkTrust

namespace Agent

variable {a : Agent} {names : Domains}

/-- The requests that an agent has received, the oldest first. -/
def broadcasts : Agent → List Domains
  | unavailable => []
  | connected i => i.broadcasts

/-- Sends a request if there is one. -/
def told (a : Agent) : Option Domains → Agent
  | some names => a.send names
  | none => a

@[simp] theorem isAvailable_send : (a.send names).isAvailable = a.isAvailable := by
  cases a <;> rfl

@[simp] theorem isAvailable_deliver {message : UInt32} :
    (a.deliver message).isAvailable = a.isAvailable := by
  cases a <;> rfl

@[simp] theorem broadcasts_deliver {message : UInt32} :
    (a.deliver message).broadcasts = a.broadcasts := by
  cases a <;> rfl

@[simp] theorem isAvailable_told {names? : Option Domains} :
    (a.told names?).isAvailable = a.isAvailable := by
  cases names? with
  | none => rfl
  | some => exact isAvailable_send

theorem broadcasts_told {names? : Option Domains} : (a.told names?).broadcasts =
    a.broadcasts ++ if a.isAvailable then names?.toList else [] := by
  cases names? with
  | none => simp [told]
  | some names =>
    cases a with
    | unavailable => rfl
    | connected i => rfl

theorem eq_unavailable_iff : a = .unavailable ↔ a.isAvailable = false := by
  cases a <;> simp [isAvailable]

end Agent

namespace Registry

variable {s t : Registry} {call : Call} {calls : List Call} {a : Answer} {i : Installation}

/-- The request that a call sends to the agent, if there is one. -/
def request? (s : Registry) : Call → Option Domains
  | .addPackage i =>
    if i.token.isNil = false ∧ i.autoVerifyDomains.isEmpty = false ∧
        s.stores.pending[i.name]? = none ∧ s.stores.restored[i.name]? = none ∧
        s.platform.isLinked i.name = false then some (.ofList [i.name])
    else none
  | .migratePackage old new =>
    if s.stores.attached.containsToken old.token = true ∧ old.manifest?.isSome = true ∧
        new.manifest?.isSome = true ∧ new.autoVerifyDomains.isEmpty = false ∧
        s.platform.isLinked new.name = false then some (.ofList [new.name])
    else none
  | .resend =>
    match (s.perform .resend).result with
    | .batch names => if names.isEmpty then none else some names
    | _ => none
  | _ => none

/-- The requests of a row of calls, in their order. -/
def requests (s : Registry) : List Call → List Domains
  | [] => []
  | call :: calls => (s.request? call).toList ++ (s.perform call).registry.requests calls

section Arrivals

theorem isAskedAbout_iff (hs : s.stores.Sound) : s.isAskedAbout i = true ↔
    i.autoVerifyDomains.isEmpty = false ∧ s.stores.Unawaited i.name ∧
      s.platform.isLinked i.name = false := by
  -- A record that waited bears the name of the package, so it is linked if the package is.
  have hn := (standsUnder_startingRecord (i := i) hs).name_eq
  have hf : (s.stores.origin i.name).isFresh = true ↔ s.stores.Unawaited i.name := by
    rw [← Stores.origin_eq_fresh_iff]
    cases s.stores.origin i.name <;> simp [Origin.isFresh]
  simp only [isAskedAbout, hn, Bool.and_eq_true, Bool.not_eq_true', hf, and_assoc]

theorem request?_addPackage (hs : s.stores.Sound) (hn : i.token.isNil = false) :
    s.request? (.addPackage i) = if s.isAskedAbout i then some (.ofList [i.name]) else none := by
  have hw : s.stores.Unawaited i.name ↔
      s.stores.pending[i.name]? = none ∧ s.stores.restored[i.name]? = none :=
    ⟨fun h => ⟨h.pending, h.restored⟩, fun h => ⟨h.1, h.2⟩⟩
  simp only [request?, isAskedAbout_iff hs, hw, hn, true_and, and_assoc]

theorem agent_addPackage (hs : s.stores.Sound) (i : Installation) :
    (s.addPackage i).registry.agent = s.agent.told (s.request? (.addPackage i)) := by
  by_cases hn : i.token.isNil = true
  · simp [addPackage, request?, hn, Agent.told]
  · have hn : i.token.isNil = false := Bool.eq_false_iff.mpr hn
    rw [addPackage_of_nonnil hn, agent_conclude, request?_addPackage hs hn]
    cases s.isAskedAbout i <;> rfl

theorem agent_migratePackage (hs : s.stores.Sound) (old new : Installation) :
    (s.migratePackage old new).registry.agent =
      s.agent.told (s.request? (.migratePackage old new)) := by
  have hc : s.stores.attached.containsToken old.token = true ↔
      ∃ r, s.stores.attached.getByToken? old.token = some r := hs.coherent.containsToken_iff
  unfold migratePackage
  simp only [Roster.fst_removeByToken]
  split
  · rename_i r m₀ m hr ho hm
    have hd : new.autoVerifyDomains = m.autoVerifyDomains := by
      simp [Installation.autoVerifyDomains, hm]
    have hq : s.request? (.migratePackage old new) =
        if !m.autoVerifyDomains.isEmpty && !s.platform.isLinked new.name then
          some (.ofList [new.name]) else none := by
      simp [request?, hc.mpr ⟨r, hr⟩, ho, hm, hd]
    rw [agent_conclude, hq]
    cases !m.autoVerifyDomains.isEmpty && !s.platform.isLinked new.name <;> rfl
  · rename_i hne
    have hq : s.request? (.migratePackage old new) = none := by
      apply if_neg
      rintro ⟨ht, ho, hm, -, -⟩
      obtain ⟨r, hr⟩ := hc.mp ht
      obtain ⟨m₀, ho⟩ := Option.isSome_iff_exists.mp ho
      obtain ⟨m, hm⟩ := Option.isSome_iff_exists.mp hm
      exact hne r m₀ m hr ho hm
    rw [agent_conclude, hq]
    rfl

end Arrivals

theorem agent_resend : s.resend.registry.agent = s.agent.told (s.request? .resend) := by
  simp only [request?, perform, Reply.map, resend]
  split
  · simp [Agent.told]
  · simp [Agent.told, broadcast]

/-- A call sends nothing if no package arrives by it and it does not ask once more. -/
theorem Outcome.agent_eq (h : s.Outcome call a t) (ha : call.arrival? = none)
    (hr : call ≠ .resend) (hc : ∀ agent, call ≠ .setAgent agent)
    (hm : ∀ message, call ≠ .sendMessage message) : t.agent = s.agent := by
  cases h with
  | connected => exact absurd rfl (hc _)
  | messaged => exact absurd rfl (hm _)
  | resent => exact absurd rfl hr
  | asked _ arrival => simp [ha] at arrival
  | _ => rfl

/-- What a call makes of the agent: the package manager connects another one, or it gets the request
of the call, or a message that is no request. -/
theorem agent_perform (hs : s.stores.Sound) (hc : ∀ agent, call ≠ .setAgent agent) :
    (s.perform call).registry.agent = s.agent.told (s.request? call) ∨
      s.request? call = none ∧
        ∃ message, (s.perform call).registry.agent = s.agent.deliver message := by
  cases call with
  | addPackage i => exact .inl (agent_addPackage hs i)
  | migratePackage old new => exact .inl (agent_migratePackage hs old new)
  | resend => exact .inl agent_resend
  | sendMessage message => exact .inr ⟨rfl, message, rfl⟩
  | setAgent agent => exact absurd rfl (hc agent)
  | _ => exact .inl ((outcome_perform _).agent_eq rfl nofun nofun nofun)

theorem agent_after (hs : s.stores.Sound) (hc : ∀ call ∈ calls, ∀ agent, call ≠ .setAgent agent) :
    (s.after calls).agent.isAvailable = s.agent.isAvailable ∧
      (s.after calls).agent.broadcasts =
        s.agent.broadcasts ++ if s.agent.isAvailable then s.requests calls else [] := by
  induction calls generalizing s with
  | nil => simp [requests]
  | cons call calls ih =>
    rw [List.forall_mem_cons] at hc
    obtain ⟨iha, ihb⟩ := ih ((effect_perform call).sound hs) hc.2
    rw [after_cons, iha, ihb, requests]
    rcases agent_perform hs hc.1 with h | ⟨hn, message, h⟩
    · rw [h, Agent.isAvailable_told, Agent.broadcasts_told]
      cases s.agent.isAvailable <;> simp
    · rw [h, hn, Agent.isAvailable_deliver, Agent.broadcasts_deliver]
      simp

/-- From the moment at which an agent is connected, and until another one is, it receives the
requests of the calls and nothing else, in their order; they are dropped if it is the one that
stands for no agent. Before any agent is connected there is none. -/
theorem agent_hears_requests (platform : Platform) (policy : Policy) (earlier later : List Call)
    (agent : Agent) (hl : ∀ call ∈ later, ∀ agent, call ≠ .setAgent agent) :
    let s := (create platform policy).after (earlier ++ [.setAgent agent])
    ((create platform policy).after (earlier ++ .setAgent agent :: later)).agent.broadcasts =
      agent.broadcasts ++ (if agent.isAvailable then s.requests later else []) ∧
    ((create platform policy).after later).agent = .unavailable := by
  intro s
  have hs : s.stores.Sound := sound_after (sound_create platform policy) _
  have hagent : s.agent = agent := by
    simp only [s, after_append, after_cons, after_nil]
    rfl
  constructor
  · have hsplit : earlier ++ .setAgent agent :: later =
        (earlier ++ [.setAgent agent]) ++ later := by simp
    rw [hsplit, after_append, (agent_after hs hl).2, hagent]
  · exact Agent.eq_unavailable_iff.mpr (agent_after (sound_create platform policy) hl).1

/-- The agent is asked when the package is added, once more while it waits, and when it is upgraded.
A message is no request, and the upgrade of a package that was removed is silent. -/
theorem agent_hears_requests_sample :
    let i : Installation := { Installation.sample with legacyApproval? := none }
    ((create .default .openToAll).after
      [.install i, .setAgent (.connect none), .addPackage i, .sendMessage 7, .resend,
        .migratePackage i i, .removePackage "app", .migratePackage i i]).agent.broadcasts =
      [.ofList ["app"], .ofList ["app"], .ofList ["app"]] := by
  intro i
  have h := agent_hears_requests .default .openToAll [.install i]
    [.addPackage i, .sendMessage 7, .resend, .migratePackage i i, .removePackage "app",
      .migratePackage i i] (.connect none) (by simp)
  exact h.1.trans (by decide +kernel)

end Registry
end LinkTrust
