import LinkTrust.Proofs.Registry.Finality
import LinkTrust.Proofs.Registry.Requests

/-! # Links that the platform approves

The domains of a package on the platform's list are approved when it is added, whatever it starts
with, and when it is upgraded, unless the registry and the package manager disagree about it. An
approval is final, so it stays until the package is touched again, and the agent is never asked.
-/

namespace LinkTrust

/-- A platform that vouches for the sample package. -/
def Platform.sample : Platform := { Platform.default with linkedApps := .ofList ["app"] }

namespace Registry

variable {s : Registry} {call : Call} {i old new : Installation} {name : String} {token : Token}
  {ds : Domains} {r : Record}

/-- The package is attached under the token, and the domains are approved. -/
def Approved (s : Registry) (name : String) (token : Token) (ds : Domains) : Prop :=
  ∃ r : Record, s.stores.attached.byName[name]? = some (token, r) ∧
    ∀ d ∈ ds, r.verdicts[d]? = some .approved

theorem approved_approve (hl : s.platform.isLinked r.name = true) {d : String} (hd : d ∈ ds) :
    (s.approve r ds).verdicts[d]? = some .approved := by
  simp [approve, hl, Record.assign, hd]

/-- An approval is final. -/
theorem Approved.after (h : s.Approved name token ds) (hs : s.stores.Sound) {later : List Call}
    (hl : ∀ call ∈ later, ¬call.Touches name token) : (s.after later).Approved name token ds := by
  obtain ⟨r, hr, ha⟩ := h
  obtain ⟨r', hr', hf, -⟩ := lasts_after hs hl hr
  refine ⟨r', hr', fun d hd => hf d .approved (ha d hd) ?_⟩
  rw [Verdict.isFinal_iff]
  rfl

section Arrivals

/-- The call adds the package, or it upgrades an attached one to it and both manifests are there. -/
inductive Admits (s : Registry) (i : Installation) : Call → Prop where
  | added (nonnil : i.token.isNil = false) : Admits s i (.addPackage i)
  | upgraded {old : Installation} {r : Record} {m₀ m : Manifest}
      (found : s.stores.attached.getByToken? old.token = some r)
      (resolvedOld : old.manifest? = some m₀) (resolved : i.manifest? = some m) :
      Admits s i (.migratePackage old i)

theorem migratePackage_of_found {m₀ m : Manifest}
    (hr : s.stores.attached.getByToken? old.token = some r) (ho : old.manifest? = some m₀)
    (hm : new.manifest? = some m) :
    (s.migratePackage old new).registry.stores = s.stores.withAttached
      ((s.stores.attached.removeByToken old.token).2.enter new.name new.token
        (s.approve (carriedRecord r new m) m.autoVerifyDomains)) := by
  have hf : (s.stores.attached.removeByToken old.token).1 = some r :=
    Roster.fst_removeByToken.trans hr
  simp only [migratePackage, hf, ho, hm, stores_conclude, stores_mapAttached]

/-- Without an old record or one of the manifests, an upgrade starts over with a blank record. -/
theorem byName_migratePackage_of_not_admits (h : ¬s.Admits new (.migratePackage old new)) :
    (s.migratePackage old new).registry.stores.attached.byName[new.name]? =
      some (new.token, blankRecord new) := by
  unfold migratePackage
  simp only [Roster.fst_removeByToken]
  split
  · rename_i hr ho hm
    exact absurd (.upgraded hr ho hm) h
  · rw [stores_conclude, stores_mapAttached]
    simp [Stores.withAttached, Roster.byName_enter]

theorem Admits.approved (h : s.Admits i call) (hs : s.stores.Sound)
    (hl : s.platform.isLinked i.name = true) :
    (s.perform call).registry.Approved i.name i.token i.autoVerifyDomains := by
  cases h with
  | added nonnil =>
    -- A record that waited may bear another token, but it bears the name, which decides approval.
    have hn := (standsUnder_startingRecord (i := i) hs).name_eq
    have ha : s.attachedRecord i = s.approve (s.startingRecord i) i.autoVerifyDomains := by
      simp [attachedRecord, hn, hl]
    refine ⟨s.attachedRecord i, ?_, fun d hd => ?_⟩
    · rw [perform, registry_map, addPackage_of_nonnil nonnil, stores_conclude]
      simp [Stores.attach, Roster.byName_enter]
    · rw [ha]
      exact approved_approve (hn ▸ hl) hd
  | @upgraded old r m₀ m found resolvedOld resolved =>
    refine ⟨s.approve (carriedRecord r i m) m.autoVerifyDomains, ?_, fun d hd => ?_⟩
    · rw [perform, registry_map, migratePackage_of_found found resolvedOld resolved]
      simp [Stores.withAttached, Roster.byName_enter]
    · have hm : i.autoVerifyDomains = m.autoVerifyDomains := by
        simp [Installation.autoVerifyDomains, resolved]
      exact approved_approve hl (hm ▸ hd)

end Arrivals

section Requests

/-- The agent has not been asked, or it has been asked about the package and the platform does not
vouch for it. -/
def AsksIfUnlinked (s : Registry) (name : String) (agent : Agent) : Prop :=
  agent = s.agent ∨ s.platform.isLinked name = false ∧ agent = s.agent.send (.ofList [name])

theorem asksIfUnlinked_addPackage (hs : s.stores.Sound) (i : Installation) :
    s.AsksIfUnlinked i.name (s.addPackage i).registry.agent := by
  rw [agent_addPackage hs, request?]
  split
  · rename_i h
    exact .inr ⟨h.2.2.2.2, rfl⟩
  · exact .inl rfl

theorem asksIfUnlinked_migratePackage (hs : s.stores.Sound) (old new : Installation) :
    s.AsksIfUnlinked new.name (s.migratePackage old new).registry.agent := by
  rw [agent_migratePackage hs, request?]
  split
  · rename_i h
    exact .inr ⟨h.2.2.2.2, rfl⟩
  · exact .inl rfl

end Requests

/-- In every row of calls, each call that admits a package on the platform's list approves all its
domains, and they stay approved under its token until a call touches the package. An upgrade that
does not find the old record or a manifest leaves a blank record. When packages are added or
upgraded, the agent is only asked about those that are not on the list. -/
theorem linked_packages_stay_approved (platform : Platform) (policy : Policy)
    (earlier later : List Call) (call : Call) (i : Installation)
    (hl : platform.isLinked i.name = true) :
    let s := (create platform policy).after earlier
    (s.Admits i call → (∀ call' ∈ later, ¬call'.Touches i.name i.token) →
      ((create platform policy).after (earlier ++ call :: later)).Approved i.name i.token
        i.autoVerifyDomains) ∧
    (∀ old : Installation, call = .migratePackage old i → ¬s.Admits i call →
      (s.perform call).registry.stores.attached.byName[i.name]? =
        some (i.token, blankRecord i)) ∧
    ∀ j : Installation, (call = .addPackage j ∨ ∃ old, call = .migratePackage old j) →
      (s.perform call).registry.agent = s.agent ∨ j.name ≠ i.name ∧
        (s.perform call).registry.agent = s.agent.send (.ofList [j.name]) := by
  intro s
  have hs : s.stores.Sound := sound_after (sound_create platform policy) earlier
  have hp : s.platform.isLinked i.name = true := (platform_after earlier).symm ▸ hl
  refine ⟨fun ha ht => ?_, ?_, fun j hj => ?_⟩
  · rw [after_append, after_cons]
    exact (ha.approved hs hp).after ((effect_perform call).sound hs) ht
  · rintro old rfl hn
    exact byName_migratePackage_of_not_admits hn
  · have hasks : s.AsksIfUnlinked j.name (s.perform call).registry.agent := by
      rcases hj with rfl | ⟨old, rfl⟩
      · exact asksIfUnlinked_addPackage hs j
      · exact asksIfUnlinked_migratePackage hs old j
    rcases hasks with h | ⟨hn, h⟩
    · exact .inl h
    · refine .inr ⟨fun he => ?_, h⟩
      rw [he, hp] at hn
      cases hn

/-- The verifier cannot replace the approval of the platform. -/
theorem linked_packages_stay_approved_sample :
    Platform.sample.isLinked "app" = true ∧
    ((create .sample .openToAll).after
      [.install .sample, .addPackage .sample,
        .setVerdict ⟨1⟩ (.ofList ["a.org"]) (.verifierDefined 1024)]).Approved "app" ⟨1⟩
      Installation.sample.autoVerifyDomains := by
  have hl : Platform.sample.isLinked "app" = true := by decide
  have h := linked_packages_stay_approved .sample .openToAll [.install .sample]
    [.setVerdict ⟨1⟩ (.ofList ["a.org"]) (.verifierDefined 1024)] (.addPackage .sample) .sample hl
  exact ⟨hl, h.1 (.added rfl) (by simp [Call.Touches])⟩

/-- An upgrade of a package that was never added leaves its domains without approval. -/
theorem restarted_upgrade_not_approved :
    Platform.sample.isLinked "app" = true ∧ "a.org" ∈ Installation.sample.autoVerifyDomains ∧
    ¬((create .sample .openToAll).after [.migratePackage .sample .sample]).Approved "app" ⟨1⟩
      Installation.sample.autoVerifyDomains := by
  have hd : "a.org" ∈ Installation.sample.autoVerifyDomains := by decide +kernel
  refine ⟨by decide, hd, ?_⟩
  rintro ⟨r, hr, ha⟩
  have hv : ((create .sample .openToAll).after
      [.migratePackage .sample .sample]).stores.attached.byName["app"]?.map
        (·.2.verdicts["a.org"]?) = some none := by decide +kernel
  rw [hr] at hv
  exact absurd ((ha "a.org" hd).symm.trans (Option.some.inj hv)) nofun

end Registry
end LinkTrust
