import LinkTrust.Proofs.Record
import LinkTrust.Proofs.Registry.Authorization

/-! # Users apart from each other

A caller that is neither trusted nor the verifier sees of the registry what is left of it without
the selections of other users: its calls answer from that alone, and change nothing but the
selections of its own user. So two registries that differ in other users' selections only cannot be
told apart by any row of such calls.
-/

namespace LinkTrust

namespace Record

variable {r : Record} {user : UserId} {f : Selection → Selection}

/-- The record without the selections of all other users. -/
def seenBy (r : Record) (user : UserId) : Record :=
  { r with selections := r.selections.filter fun u _ => u = user }

theorem selection_seenBy : (r.seenBy user).selection user = r.selection user := by
  simp only [selection, seenBy, Std.ExtTreeMap.getElem?_filter']
  cases r.selections[user]? with
  | none => rfl
  | some own => simp [Option.filter]

theorem seenBy_select : (r.select user f).seenBy user = (r.seenBy user).select user f := by
  have hs : ((r.select user f).seenBy user).selections =
      ((r.seenBy user).select user f).selections := by
    apply Std.ExtTreeMap.ext_getElem?
    intro u
    rw [getElem?_select, selection_seenBy]
    simp only [seenBy, Std.ExtTreeMap.getElem?_filter', getElem?_select]
    by_cases hu : u = user <;> simp [hu]
  exact congrArg (Record.mk r.name r.token r.autoVerify r.verdicts) hs

theorem removeUser_select : (r.select user f).removeUser user = r.removeUser user := by
  have hs : ((r.select user f).removeUser user).selections = (r.removeUser user).selections := by
    apply Std.ExtTreeMap.ext_getElem?
    intro u
    simp only [removeUser, Std.ExtTreeMap.getElem?_erase, getElem?_select,
      Std.LawfulEqCmp.compare_eq_iff_eq, eq_comm (a := user)]
    by_cases hu : u = user <;> simp [hu]
  exact congrArg (Record.mk r.name r.token r.autoVerify r.verdicts) hs

end Record

namespace Stores

variable {s : Stores} {attached : Roster Record} {user : UserId}

/-- The stores without the selections of all other users. -/
def seenBy (s : Stores) (user : UserId) : Stores where
  attached := s.attached.mapValues (·.seenBy user)
  pending := s.pending.map fun _ r => r.seenBy user
  restored := s.restored.map fun _ r => r.seenBy user

theorem removeUser_withAttached
    (h : attached.mapValues (·.removeUser user) = s.attached.mapValues (·.removeUser user)) :
    (s.withAttached attached).removeUser user = s.removeUser user := by
  simp only [removeUser, removeWaitingUser, withAttached, h]

end Stores

namespace Registry

variable {α : Type} {s t : Registry} {call : Call} {calls : List Call} {demand : Demand}
  {user : UserId}

/-- The registry without the selections of all other users. -/
def seenBy (s : Registry) (user : UserId) : Registry :=
  { s with stores := s.stores.seenBy user }

/-- What comes of a call, as it is seen without the selections of all other users. -/
def seen (reply : Reply α) (user : UserId) : Reply α :=
  { reply with registry := reply.registry.seenBy user }

/-- The caller has no trusted uid, and it is not the verifier. -/
structure Outsider (s : Registry) : Prop where
  untrusted : ∃ uids : Std.ExtTreeSet Uid, s.policy = .trusting uids ∧ s.host.caller.uid ∉ uids
  not_verifier : s.agent.verifier? ≠ some s.host.caller.uid

section Callers

theorem Outsider.allows_iff (h : s.Outsider) :
    s.policy.allows s.agent s.host.caller demand = true ↔
      demand = .selectorFor s.host.caller.user := by
  obtain ⟨uids, hp, hu⟩ := h.untrusted
  rw [hp, Demand.allows_trusting_iff]
  refine (or_iff_right hu).trans ?_
  cases demand with
  | verifier => exact iff_of_false h.not_verifier nofun
  | querent => exact iff_of_false h.not_verifier nofun
  | selectorFor target => simp [eq_comm]

theorem Outsider.authorize_eq_ok_iff (h : s.Outsider) :
    s.authorize demand = .ok () ↔ demand = .selectorFor s.host.caller.user :=
  Registry.authorize_eq_ok_iff.trans h.allows_iff

/-- A call from outside leaves the registry as it is, or changes attached records and asks for them
to be written. -/
theorem registry_perform_of_demand (hd : call.demand? s.host.caller = some demand) :
    (s.perform call).registry = s ∨
      ∃ f, (s.perform call).registry = (s.mapAttached f).scheduleWrite := by
  cases call with
  | verifiedNames =>
    simp only [perform, registry_map, verifiedNames]
    split <;> exact .inl rfl
  | verificationSet name =>
    simp only [perform, registry_map, verificationSet]
    split <;> exact .inl rfl
  | selection name user? =>
    simp only [perform, registry_map, selection]
    split <;> exact .inl rfl
  | setVerdict token ds v =>
    simp only [perform, registry_map, setVerdict]
    split
    · exact .inl rfl
    · exact .inr ⟨_, rfl⟩
  | setLinkHandling name allowed user? =>
    simp only [perform, registry_map, setLinkHandling]
    split
    · exact .inl rfl
    · split
      · exact .inr ⟨_, rfl⟩
      · exact .inl rfl
  | setSelection token hosts enabled user? =>
    simp only [perform, registry_map, setSelection]
    split
    · exact .inl rfl
    · exact .inr ⟨_, rfl⟩
  | _ => cases hd

theorem caller_perform_of_demand (hd : call.demand? s.host.caller = some demand) :
    (s.perform call).registry.host.caller = s.host.caller := by
  rcases registry_perform_of_demand hd with h | ⟨f, h⟩
  · rw [h]
  · rw [h]
    rfl

/-- A caller stays an outsider whatever it calls. -/
theorem Outsider.perform (h : s.Outsider) (hd : call.demand? s.host.caller = some demand) :
    (s.perform call).registry.Outsider := by
  rcases registry_perform_of_demand hd with he | ⟨f, he⟩
  · rw [he]; exact h
  · rw [he]; exact ⟨h.untrusted, h.not_verifier⟩

theorem outsider_seenBy : (s.seenBy user).Outsider ↔ s.Outsider :=
  ⟨fun h => ⟨h.untrusted, h.not_verifier⟩, fun h => ⟨h.untrusted, h.not_verifier⟩⟩

end Callers

section Step

theorem get?_seenBy {name : String} : (s.seenBy user).stores.attached.get? name =
    (s.stores.attached.get? name).map (·.seenBy user) := by
  simp only [seenBy, Stores.seenBy, Roster.get?, Roster.byName_mapValues, Option.map_map]
  rfl

theorem getByToken?_seenBy {token : Token} : (s.seenBy user).stores.attached.getByToken? token =
    (s.stores.attached.getByToken? token).map (·.seenBy user) := by
  have hi : (s.seenBy user).stores.attached.nameOf = s.stores.attached.nameOf := rfl
  simp only [Roster.getByToken?, hi]
  cases s.stores.attached.nameOf[token]? with
  | none => rfl
  | some name => exact get?_seenBy

theorem resolve_seenBy {token : Token} {ds : Domains} {kind : DomainKind} :
    (s.seenBy user).resolve token ds kind = (s.resolve token ds kind).map (·.seenBy user) := by
  have hh : (s.seenBy user).host = s.host := rfl
  simp only [resolve, getByToken?_seenBy, hh]
  split
  · rfl
  · cases s.stores.attached.getByToken? token with
    | none => rfl
    | some r =>
      have hn : (r.seenBy user).name = r.name := rfl
      simp only [Option.map_some, hn]
      repeat' split
      all_goals rfl

theorem selectable_seenBy {token : Token} {hosts : Domains} {target : UserId} :
    (s.seenBy user).selectable token hosts target =
      (s.selectable token hosts target).map (·.seenBy user) := by
  have ha : (s.seenBy user).authorize (.selectorFor target) =
      s.authorize (.selectorFor target) := rfl
  simp only [selectable, resolve_seenBy, ha]
  cases s.authorize (.selectorFor target) <;> rfl

theorem selection?_seenBy {name : String} :
    (s.seenBy user).selection? name user = s.selection? name user := by
  have hh : (s.seenBy user).host = s.host := rfl
  simp only [selection?, get?_seenBy, hh]
  cases s.stores.attached.get? name with
  | none => rfl
  | some r =>
    have ht : (r.seenBy user).token = r.token := rfl
    simp only [Option.map_some, Record.selection_seenBy, ht]

theorem seenBy_mapAttached {f g : Roster Record → Roster Record}
    (h : (f s.stores.attached).mapValues (·.seenBy user) =
      g (s.stores.attached.mapValues (·.seenBy user))) :
    (s.mapAttached f).scheduleWrite.seenBy user =
      ((s.seenBy user).mapAttached g).scheduleWrite := by
  simp only [mapAttached, scheduleWrite, seenBy, Stores.seenBy, h]

theorem setLinkHandling_seenBy {name : String} {allowed : Bool} :
    (s.seenBy user).setLinkHandling name allowed user =
      seen (s.setLinkHandling name allowed user) user := by
  have ha : (s.seenBy user).authorize (.selectorFor user) = s.authorize (.selectorFor user) := rfl
  have hc : (s.seenBy user).stores.attached.contains name = s.stores.attached.contains name :=
    Roster.contains_mapValues
  simp only [setLinkHandling, ha, hc]
  split
  · rfl
  · split
    · rw [seen, seenBy_mapAttached (g := (·.modify name (·.select user (·.optOut !allowed))))
        (Roster.mapValues_modify fun _ => Record.seenBy_select)]
    · rfl

theorem setSelection_seenBy {token : Token} {hosts : Domains} {enabled : Bool} :
    (s.seenBy user).setSelection token hosts enabled user =
      seen (s.setSelection token hosts enabled user) user := by
  simp only [setSelection, selectable_seenBy]
  cases s.selectable token hosts user with
  | error => rfl
  | ok r =>
    simp only [Except.map]
    rw [seen, seenBy_mapAttached (g := (·.modifyByToken token (·.select user fun selection =>
      if enabled then selection.enable hosts else selection.disable hosts)))
      (Roster.mapValues_modifyByToken fun _ => Record.seenBy_select)]
    rfl

theorem selection_seenBy {name : String} :
    (s.seenBy user).selection name user = seen (s.selection name user) user := by
  have ha : (s.seenBy user).authorize (.selectorFor user) = s.authorize (.selectorFor user) := rfl
  simp only [selection, ha, selection?_seenBy]
  split <;> rfl

/-- An outsider's calls answer from what is seen by its user, and do nothing but what is. -/
theorem perform_seenBy (h : s.Outsider) (hd : call.demand? s.host.caller = some demand) :
    (s.seenBy s.host.caller.user).perform call = seen (s.perform call) s.host.caller.user := by
  by_cases ha : s.policy.allows s.agent s.host.caller demand = true
  · obtain rfl := h.allows_iff.mp ha
    cases call with
    | setLinkHandling name allowed user? =>
      have hu : s.userOr user? = s.host.caller.user :=
        Demand.selectorFor.inj (Option.some.inj hd)
      have hu' : (s.seenBy s.host.caller.user).userOr user? = s.host.caller.user := hu
      simp only [perform, hu, hu', setLinkHandling_seenBy]
      rfl
    | setSelection token hosts enabled user? =>
      have hu : s.userOr user? = s.host.caller.user :=
        Demand.selectorFor.inj (Option.some.inj hd)
      have hu' : (s.seenBy s.host.caller.user).userOr user? = s.host.caller.user := hu
      simp only [perform, hu, hu', setSelection_seenBy]
      rfl
    | selection name user? =>
      have hu : s.userOr user? = s.host.caller.user :=
        Demand.selectorFor.inj (Option.some.inj hd)
      have hu' : (s.seenBy s.host.caller.user).userOr user? = s.host.caller.user := hu
      simp only [perform, hu, hu', selection_seenBy]
      rfl
    | _ => cases hd
  · rw [perform_of_not_allows hd ha, perform_of_not_allows (s := s.seenBy _) hd ha]
    rfl

/-- An outsider's calls change no selection of another user, and nothing else that is recorded. -/
theorem removeUser_perform (h : s.Outsider) (hd : call.demand? s.host.caller = some demand) :
    (s.perform call).registry.stores.removeUser s.host.caller.user =
      s.stores.removeUser s.host.caller.user := by
  generalize hx : (s.perform call).registry.stores = x
  have he : s.Effect call x := hx ▸ effect_perform call
  cases he with
  | idle => rfl
  | reported accepted =>
    exact absurd (h.authorize_eq_ok_iff.mp (reportable_eq_ok_iff.mp accepted).1) nofun
  | linkHandlingSet permitted =>
    rw [Demand.selectorFor.inj (h.authorize_eq_ok_iff.mp permitted)]
    exact Stores.removeUser_withAttached
      ((Roster.mapValues_modify (e := id) fun _ => Record.removeUser_select).trans Roster.modify_id)
  | selected accepted =>
    rw [Demand.selectorFor.inj (h.authorize_eq_ok_iff.mp (selectable_eq_ok_iff.mp accepted).1)]
    exact Stores.removeUser_withAttached
      ((Roster.mapValues_modifyByToken (e := id) fun _ => Record.removeUser_select).trans
        Roster.modifyByToken_id)
  | _ => cases hd

end Step

section Rows

/-- What one call of an outsider does, a row of them does. -/
theorem after_seenBy (h : s.Outsider) (hd : ∀ call ∈ calls, call.demand? s.host.caller ≠ none) :
    (s.seenBy s.host.caller.user).answers calls = s.answers calls ∧
    (s.seenBy s.host.caller.user).after calls = (s.after calls).seenBy s.host.caller.user ∧
    (s.after calls).stores.removeUser s.host.caller.user =
      s.stores.removeUser s.host.caller.user := by
  induction calls generalizing s with
  | nil => exact ⟨rfl, rfl, rfl⟩
  | cons call calls ih =>
    rw [List.forall_mem_cons] at hd
    obtain ⟨demand, hdemand⟩ := Option.ne_none_iff_exists'.mp hd.1
    have hp := perform_seenBy h hdemand
    have hc := caller_perform_of_demand hdemand
    obtain ⟨hans, hafter, hkept⟩ := ih (h.perform hdemand) (hc ▸ hd.2)
    rw [hc] at hans hafter hkept
    simp only [answers_cons, after_cons, hp, hkept, removeUser_perform h hdemand, seen, hans,
      hafter, and_self]

end Rows

/-- Two registries that differ in nothing but selections of other users cannot be told apart by a
caller who is neither trusted nor the verifier. Whatever it calls, and whomever it names, all calls
answer the same, the registries still differ in other users' selections only, and nothing has
changed in either of them but selections of its own user. -/
theorem users_are_isolated (s t : Registry) (uids : Std.ExtTreeSet Uid) (caller : Caller)
    (calls : List Call) (hcaller : s.host.caller = caller) (hpolicy : s.policy = .trusting uids)
    (huid : caller.uid ∉ uids) (hverifier : s.agent.verifier? ≠ some caller.uid)
    (hd : ∀ call ∈ calls, call.demand? caller ≠ none)
    (h : s.seenBy caller.user = t.seenBy caller.user) :
    s.answers calls = t.answers calls ∧
    (s.after calls).seenBy caller.user = (t.after calls).seenBy caller.user ∧
    (s.after calls).stores.removeUser caller.user = s.stores.removeUser caller.user ∧
    (t.after calls).stores.removeUser caller.user = t.stores.removeUser caller.user := by
  have hs : s.Outsider := ⟨⟨uids, hpolicy, hcaller ▸ huid⟩, hcaller ▸ hverifier⟩
  have ht : t.Outsider := outsider_seenBy.mp (h ▸ outsider_seenBy.mpr hs)
  have hc : s.host.caller = t.host.caller := by
    have hh : (s.seenBy caller.user).host = (t.seenBy caller.user).host := by rw [h]
    exact congrArg Host.caller hh
  subst hcaller
  obtain ⟨hans, hafter, hkept⟩ := after_seenBy hs hd
  obtain ⟨hans', hafter', hkept'⟩ := after_seenBy ht fun call hcall => hc ▸ hd call hcall
  rw [← hc] at hans' hafter' hkept'
  refine ⟨?_, ?_, hkept, hkept'⟩
  · rw [← hans, ← hans', h]
  · rw [← hafter, ← hafter', h]

/-- A registry in which some user has made a choice before a caller comes who acts for another. -/
def chosenBefore (choice : Call) : Registry :=
  (create .default .default).after
    [.install .sample, .addPackage .sample, choice, .setCaller { uid := 10100, user := 11 }]

theorem seenBy_chosenBefore : (chosenBefore (.setLinkHandling "app" false (some 10))).seenBy 11 =
    (chosenBefore (.setSelection ⟨1⟩ (.ofList ["a.org"]) true (some 10))).seenBy 11 := by
  simp only [seenBy, Stores.seenBy, Roster.mapValues, Registry.mk.injEq, Stores.mk.injEq,
    Roster.mk.injEq]
  decide +kernel

/-- The caller makes a choice of its own, looks at it, and tries to look at that of user 10 and to
overwrite it. -/
theorem users_are_isolated_sample :
    let s := chosenBefore (.setLinkHandling "app" false (some 10))
    let t := chosenBefore (.setSelection ⟨1⟩ (.ofList ["a.org"]) true (some 10))
    let calls : List Call := [.setSelection ⟨1⟩ (.ofList ["a.org"]) true none,
      .selection "app" none, .selection "app" (some 10), .setLinkHandling "app" true (some 10)]
    s.answers calls = t.answers calls ∧
    (s.after calls).seenBy 11 = (t.after calls).seenBy 11 ∧
    (s.after calls).stores.removeUser 11 = s.stores.removeUser 11 ∧
    (t.after calls).stores.removeUser 11 = t.stores.removeUser 11 := by
  refine users_are_isolated _ _ Platform.defaultUids { uid := 10100, user := 11 } _
    (by decide +kernel) (policy_after _) (by decide) (by decide +kernel) ?_ seenBy_chosenBefore
  simp [Call.demand?]

end Registry
end LinkTrust
