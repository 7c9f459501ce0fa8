import LinkTrust.Proofs.Holdings
import LinkTrust.Proofs.Registry.Arrivals
import LinkTrust.Proofs.Registry.Reinstall

/-! # Selections of declared hosts

Users select hosts that the package declares, and an upgrade keeps those that are still declared.
Entries of documents are not held against the manifest: neither when a package takes over the record
that waits for it, nor when an entry joins the record of an attached package. So the hosts that
users have enabled are declared all along a row of calls exactly if no such entry has an undeclared
one. Then what is reported of a user's selection is about the declared hosts and no others.
-/

namespace LinkTrust

namespace Installation

variable {i : Installation} {r r' : Record} {l : List Record} {user : UserId}
  {f : Selection → Selection}

/-- If there is a manifest, it declares all hosts that users have enabled. -/
def DeclaresHosts (i : Installation) (r : Record) : Prop :=
  ∀ m, i.manifest? = some m → ∀ (user : UserId), ∀ h ∈ (r.selection user).hosts, h ∈ m.webDomains

theorem declaresHosts_iff : i.DeclaresHosts r ↔ ∀ m ∈ i.manifest?, ∀ p ∈ r.selections.toList,
    ∀ h ∈ p.2.hosts.toList, h ∈ m.webDomains := by
  simp only [DeclaresHosts, Prod.forall, Std.ExtTreeMap.mem_toList_iff_getElem?_eq_some,
    Std.ExtTreeSet.mem_toList, Record.selection]
  constructor
  · intro h m hm user selection hs x hx
    exact h m hm user x (by rw [hs]; exact hx)
  · intro h m hm user x hx
    cases hs : r.selections[user]? with
    | none => simp [hs, Selection.empty] at hx
    | some selection =>
      rw [hs] at hx
      exact h m hm user selection hs x hx

instance : Decidable (i.DeclaresHosts r) := decidable_of_iff' _ declaresHosts_iff

theorem webDomains_eq {m : Manifest} (h : i.manifest? = some m) : i.webDomains = m.webDomains := by
  rw [webDomains, h]
  rfl

theorem declaresHosts_congr (h : r.selections = r'.selections) :
    i.DeclaresHosts r ↔ i.DeclaresHosts r' := by
  simp only [DeclaresHosts, Record.selection, h]

theorem declaresHosts_of_eq_empty (h : r.selections = ∅) : i.DeclaresHosts r := by
  intro m hm user x hx
  simp [Record.selection, h, Selection.empty] at hx

theorem DeclaresHosts.select (h : i.DeclaresHosts r)
    (hf : ∀ m, i.manifest? = some m → ∀ x ∈ (f (r.selection user)).hosts,
      x ∈ (r.selection user).hosts ∨ x ∈ m.webDomains) : i.DeclaresHosts (r.select user f) := by
  intro m hm w x hx
  rw [Record.selection_select] at hx
  split at hx
  · exact (hf m hm x hx).elim (h m hm user x) id
  · exact h m hm w x hx

theorem DeclaresHosts.removeUser (h : i.DeclaresHosts r) (user : UserId) :
    i.DeclaresHosts (r.removeUser user) := by
  intro m hm w x hx
  simp only [Record.selection, Record.removeUser, Std.ExtTreeMap.getElem?_erase] at hx
  split at hx
  · simp [Selection.empty] at hx
  · exact h m hm w x hx

/-- A record that others have joined has the hosts of all of them. -/
theorem declaresHosts_join_iff :
    i.DeclaresHosts (Backup.join r l) ↔ i.DeclaresHosts r ∧ ∀ e ∈ l, i.DeclaresHosts e := by
  simp only [DeclaresHosts, Backup.mem_hosts_join]
  constructor
  · intro h
    exact ⟨fun m hm user x hx => h m hm user x (.inl hx),
      fun e he m hm user x hx => h m hm user x (.inr ⟨e, he, hx⟩)⟩
  · rintro ⟨h, hl⟩ m hm user x (hx | ⟨e, he, hx⟩)
    · exact h m hm user x hx
    · exact hl e he m hm user x hx

end Installation

theorem Entry.mem_named_iff {name : String} {l : List Entry} {r : Record} :
    r ∈ Record.named name (l.map Entry.record) ↔ ∃ e ∈ l, e.record = r ∧ e.name = name := by
  simp only [Record.named, List.mem_filter, List.mem_map, decide_eq_true_eq]
  constructor
  · rintro ⟨⟨e, he, rfl⟩, hn⟩
    exact ⟨e, he, rfl, hn⟩
  · rintro ⟨e, he, rfl, hn⟩
    exact ⟨⟨e, he, rfl⟩, hn⟩

namespace Registry

variable {s : Registry} {call : Call} {calls : List Call} {i : Installation} {r : Record}
  {x : Stores} {d : Document} {source : Source}

section Records

theorem selections_approve (r : Record) (ds : Domains) :
    (s.approve r ds).selections = r.selections := by
  unfold approve
  split <;> rfl

/-- A record that waited brings its selections along. -/
theorem selections_attachedRecord (h : (s.stores.origin i.name).record? = some r) :
    (s.attachedRecord i).selections = r.selections := by
  have hf : (s.stores.origin i.name).isFresh = false := by
    cases ho : s.stores.origin i.name with
    | fresh => simp [ho, Origin.record?] at h
    | pending => rfl
    | restored => rfl
  simp [attachedRecord, hf, selections_approve, startingRecord, h]

/-- Without a record that waits, users who always opened links have all declared hosts. -/
theorem declaresHosts_attachedRecord (h : (s.stores.origin i.name).record? = none) :
    i.DeclaresHosts (s.attachedRecord i) := by
  have hw : s.stores.Unawaited i.name := by
    rw [Stores.record?_origin, Option.or_eq_none_iff] at h
    exact ⟨h.1, h.2⟩
  intro m hm user x hx
  rw [Record.selection, getElem?_selections_attachedRecord hw, freshSelection?] at hx
  split at hx
  · exact Installation.webDomains_eq hm ▸ hx
  · simp [Selection.empty] at hx

theorem declaresHosts_carried {m : Manifest} (hm : i.manifest? = some m) (r : Record) :
    i.DeclaresHosts (s.approve (carriedRecord r i m) m.autoVerifyDomains) := by
  rw [Installation.declaresHosts_congr (selections_approve _ _)]
  intro m' hm' user x hx
  obtain rfl : m = m' := Option.some.inj (hm.symm.trans hm')
  simp only [Record.selection, carriedRecord, Upgrade.carrySelections,
    Std.ExtTreeMap.getElem?_map] at hx
  cases hu : r.selections[user]? with
  | none => simp [hu, Selection.empty] at hx
  | some own =>
    simp only [hu, Option.map_some, Option.getD_some, Selection.retain,
      Std.ExtTreeSet.mem_inter_iff] at hx
    exact hx.2

end Records

/-- The call brings an attached package a host that is enabled but not declared: the package takes
over a record that waits with one, or an entry with one joins its record. -/
inductive Overreaches (s : Registry) (calls : List Call) : Call → Prop where
  | awaited {i : Installation} {r : Record} (nonnil : i.token.isNil = false)
      (waiting : (s.stores.origin i.name).record? = some r)
      (undeclared : ¬i.DeclaresHosts r) : Overreaches s calls (.addPackage i)
  | read {source : Source} {d : Document} {e : Entry} {r : Record} {i : Installation}
      (decoded : Document.readFrom source = .ok d) (listed : e ∈ d.active)
      (attached : s.stores.attached.get? e.name = some r) (token_ne : e.token ≠ r.token)
      (latest : Call.latest? calls e.name = some i)
      (undeclared : ¬i.DeclaresHosts e.record) : Overreaches s calls (.readState source)
  | restored {source : Source} {d : Document} {e : Entry} {i : Installation}
      (decoded : Document.readFrom source = .ok d) (listed : e ∈ d.entries)
      (attached : s.stores.attached.contains e.name = true)
      (latest : Call.latest? calls e.name = some i)
      (undeclared : ¬i.DeclaresHosts e.record) : Overreaches s calls (.restoreState source)

section Documents

/-- Where records join those of attached packages, they have to fit just as these do. -/
theorem each_declaresHosts_iff {l : String → Record → List Record}
    (hc : ∀ n, x.attached.contains n = s.stores.attached.contains n)
    (hx : ∀ n t r, s.stores.attached.byName[n]? = some (t, r) →
      x.attached.byName[n]? = some (t, Backup.join r (l n r)))
    (h : s.FitsLatest Installation.DeclaresHosts calls) :
    x.Each (fun name _ r => ∃ i, Call.latest? calls name = some i ∧ i.DeclaresHosts r)
      (fun _ _ => True) ↔
    ∀ n r i, s.stores.attached.get? n = some r → Call.latest? calls n = some i →
      ∀ e ∈ l n r, i.DeclaresHosts e := by
  constructor
  · intro he n r i hr hi
    obtain ⟨t, hr⟩ := Roster.get?_eq_some_iff.mp hr
    obtain ⟨i', hi', hj⟩ := he.attached (hx n t r hr)
    obtain rfl : i' = i := Option.some.inj (hi'.symm.trans hi)
    exact (Installation.declaresHosts_join_iff.mp hj).2
  · intro hl
    refine ⟨fun {n t r'} hr' => ?_, fun _ => trivial, fun _ => trivial⟩
    obtain ⟨t', r, hr⟩ := Roster.contains_iff.mp
      ((hc n).symm.trans (Roster.contains_iff.mpr ⟨t, r', hr'⟩))
    obtain ⟨-, rfl⟩ := Prod.mk.inj (Option.some.inj (hr'.symm.trans (hx n t' r hr)))
    obtain ⟨i, hi, hp⟩ := h.attached hr
    exact ⟨i, hi, Installation.declaresHosts_join_iff.mpr
      ⟨hp, hl n r i (Roster.get?_eq_some_iff.mpr ⟨t', hr⟩) hi⟩⟩

theorem declaresHosts_readState_iff (h : s.FitsLatest Installation.DeclaresHosts calls) :
    (s.perform (.readState source)).registry.FitsLatest Installation.DeclaresHosts calls ↔
      ¬s.Overreaches calls (.readState source) := by
  cases hd : Document.readFrom source with
  | error e =>
    refine iff_of_true ?_ fun ho => ?_
    · rw [perform, registry_map, readState, hd]
      exact h
    · cases ho with
      | read decoded => cases hd.symm.trans decoded
  | ok d =>
    rw [perform, registry_map, registry_readState hd]
    refine (each_declaresHosts_iff (fun n => Stores.contains_read ..)
      (fun n t r hr => Stores.byName_read hr) h).trans ?_
    constructor
    · intro hl ho
      cases ho with
      | @read _ d' e r i decoded listed attached token_ne latest undeclared =>
        cases hd.symm.trans decoded
        refine undeclared (hl e.name r i attached latest e.record ?_)
        exact List.mem_filter.mpr ⟨Entry.mem_named_iff.mpr ⟨e, listed, rfl, rfl⟩,
          decide_eq_true token_ne⟩
    · intro hn n r i hr hi e' he
      obtain ⟨hnamed, ht⟩ := List.mem_filter.mp he
      obtain ⟨e, hm, rfl, rfl⟩ := Entry.mem_named_iff.mp hnamed
      exact Classical.byContradiction fun hu => hn (.read hd hm hr (of_decide_eq_true ht) hi hu)

theorem declaresHosts_restoreState_iff (h : s.FitsLatest Installation.DeclaresHosts calls) :
    (s.perform (.restoreState source)).registry.FitsLatest Installation.DeclaresHosts calls ↔
      ¬s.Overreaches calls (.restoreState source) := by
  cases hd : Document.readFrom source with
  | error e =>
    refine iff_of_true ?_ fun ho => ?_
    · rw [perform, registry_map, restoreState, hd]
      exact h
    · cases ho with
      | restored decoded => cases hd.symm.trans decoded
  | ok d =>
    have hr : (s.perform (.restoreState source)).registry.stores = s.stores.restore d := by
      rw [perform, registry_map, restoreState, hd]
      rfl
    rw [FitsLatest, hr]
    refine (each_declaresHosts_iff (fun n => Stores.contains_restore ..)
      (fun n t r hr => Stores.byName_restore hr) h).trans ?_
    constructor
    · intro hl ho
      cases ho with
      | @restored _ d' e i decoded listed attached latest undeclared =>
        cases hd.symm.trans decoded
        obtain ⟨t, r, hr⟩ := Roster.contains_iff.mp attached
        exact undeclared (hl e.name r i (Roster.get?_eq_some_iff.mpr ⟨t, hr⟩) latest e.record
          (Entry.mem_named_iff.mpr ⟨e, listed, rfl, rfl⟩))
    · intro hn n r i hr hi e' he
      obtain ⟨e, hm, rfl, rfl⟩ := Entry.mem_named_iff.mp he
      obtain ⟨t, hr⟩ := Roster.get?_eq_some_iff.mp hr
      exact Classical.byContradiction fun hu =>
        hn (.restored hd hm (Roster.contains_iff.mpr ⟨t, r, hr⟩) hi hu)

end Documents

theorem respectsManifest_declaresHosts : RespectsManifest Installation.DeclaresHosts where
  removeUser user h := h.removeUser user
  assign _ h := h
  select hf h := h.select hf

theorem declaresHosts_addPackage_iff (hn : i.token.isNil = false)
    (h : s.FitsLatest Installation.DeclaresHosts calls) :
    (s.perform (.addPackage i)).registry.FitsLatest Installation.DeclaresHosts
      (calls ++ [.addPackage i]) ↔ ¬s.Overreaches calls (.addPackage i) := by
  rw [fitsLatest_addPackage_iff hn h]
  cases hw : (s.stores.origin i.name).record? with
  | none =>
    refine iff_of_true (declaresHosts_attachedRecord hw) fun ho => ?_
    cases ho with
    | awaited _ waiting => cases hw.symm.trans waiting
  | some r =>
    rw [Installation.declaresHosts_congr (selections_attachedRecord hw)]
    constructor
    · intro hr ho
      cases ho with
      | awaited _ waiting undeclared =>
        cases hw.symm.trans waiting
        exact undeclared hr
    · intro hnot
      exact Classical.byContradiction fun hr => hnot (.awaited hn hw hr)

/-- A call leaves undeclared hosts enabled exactly if it overreaches. -/
theorem declaresHosts_perform_iff (hs : s.stores.Sound)
    (hu : call.isExternal = true → s.UpToDate calls)
    (h : s.FitsLatest Installation.DeclaresHosts calls) :
    (s.perform call).registry.FitsLatest Installation.DeclaresHosts (calls ++ [call]) ↔
      ¬s.Overreaches calls call := by
  cases hc : call.attaches? with
  | none =>
    rw [fitsLatest_concat_of_none hc]
    cases hd : call.bringsDocument with
    | false =>
      refine iff_of_true ?_ fun ho => ?_
      · exact (effect_perform call).fitsLatest respectsManifest_declaresHosts hc hd hs hu h
      · cases ho with
        | awaited nonnil => simp [Call.attaches?, nonnil] at hc
        | read => cases hd
        | restored => cases hd
    | true =>
      cases call with
      | readState source => exact declaresHosts_readState_iff h
      | restoreState source => exact declaresHosts_restoreState_iff h
      | _ => cases hd
  | some i =>
    cases call with
    | addPackage j =>
      obtain ⟨hn, rfl⟩ : j.token.isNil = false ∧ j = i := by simpa [Call.attaches?] using hc
      exact declaresHosts_addPackage_iff hn h
    | migratePackage old j =>
      refine iff_of_true (h.migratePackage old ?_ fun r m hm => ?_) fun ho => ?_
      · exact Installation.declaresHosts_of_eq_empty rfl
      · exact declaresHosts_carried hm r
      · cases ho
    | _ => cases hc

section Answers

variable {name : String} {user? : Option UserId} {m : Manifest}
  (ha : s.authorize (.selectorFor (s.userOr user?)) = .ok ())
  (hr : s.stores.attached.get? name = some r) (hm : s.host.manifest? name = some m)

include ha hr hm

theorem result_selection :
    (s.perform (.selection name user?)).result = .selection (some {
      token := r.token, name, user := s.userOr user?
      openLinks := !(r.selection (s.userOr user?)).optedOut
      hosts := m.webDomains.mapTo false ∪ (r.selection (s.userOr user?)).hosts.mapTo true }) := by
  simp only [perform, selection, ha, selection?, hr, hm, Reply.map, Answer.ofExcept]

/-- What is reported of a selection of declared hosts. -/
theorem result_selection_of_declared (hu : s.UpToDate calls)
    (h : s.FitsLatest Installation.DeclaresHosts calls) :
    ∃ v : SelectionView, (s.perform (.selection name user?)).result = .selection (some v) ∧
      v.token = r.token ∧ v.name = name ∧ v.user = s.userOr user? ∧
      ∀ x : String, v.hosts[x]? = if x ∈ m.webDomains then
        some (decide (x ∈ (r.selection (s.userOr user?)).hosts)) else none := by
  have hin : ∀ x ∈ (r.selection (s.userOr user?)).hosts, x ∈ m.webDomains := by
    obtain ⟨token, hb⟩ := Roster.get?_eq_some_iff.mp hr
    obtain ⟨i, hi, him⟩ := hu.exists_latest (Roster.contains_iff.mpr ⟨token, r, hb⟩) hm
    exact h.of_get? hr hi m him (s.userOr user?)
  refine ⟨_, result_selection ha hr hm, rfl, rfl, rfl, fun x => ?_⟩
  rw [Std.ExtTreeMap.getElem?_union, Domains.getElem?_mapTo, Domains.getElem?_mapTo]
  by_cases hx : x ∈ (r.selection (s.userOr user?)).hosts
  · simp [hx, hin x hx]
  · simp [hx]

end Answers

/-- In a row of calls, with the manifests at the host those with which the packages were attached
last, the hosts that users have enabled for attached packages are declared all along, exactly if no
call overreaches. Whenever they are, what is reported of a user's selection is which of the declared
hosts are enabled, and nothing about others. -/
theorem selections_follow_manifest_iff (platform : Platform) (policy : Policy) (calls : List Call)
    (hi : (create platform policy).Informed calls) :
    ((∀ earlier later, calls = earlier ++ later →
        ((create platform policy).after earlier).FitsLatest Installation.DeclaresHosts earlier) ↔
      ∀ earlier call later, calls = earlier ++ call :: later →
        ¬((create platform policy).after earlier).Overreaches earlier call) ∧
    ∀ (earlier later : List Call) (name : String) (user? : Option UserId) (r : Record)
      (m : Manifest), calls = earlier ++ .selection name user? :: later →
      let s := (create platform policy).after earlier
      s.FitsLatest Installation.DeclaresHosts earlier →
      s.authorize (.selectorFor (s.userOr user?)) = .ok () →
      s.stores.attached.get? name = some r → s.host.manifest? name = some m →
      ∃ v : SelectionView, (s.perform (.selection name user?)).result = .selection (some v) ∧
        v.token = r.token ∧ v.name = name ∧ v.user = s.userOr user? ∧
        ∀ x : String, v.hosts[x]? = if x ∈ m.webDomains then
          some (decide (x ∈ (r.selection (s.userOr user?)).hosts)) else none := by
  constructor
  · refine forall_fitsLatest_iff platform policy calls
      (Q := fun s earlier call => ¬s.Overreaches earlier call) fun earlier call later he h => ?_
    exact declaresHosts_perform_iff (sound_after (sound_create platform policy) earlier)
      (hi earlier call later he) h
  · intro earlier later name user? r m he s h ha hr hm
    exact result_selection_of_declared ha hr hm (hi earlier _ later he rfl) h

section Samples

/-- A backup in which a user of the sample package has enabled a host. -/
def backup (user : UserId) (host : String) : Document :=
  { active := [{ name := "app", token := ⟨1⟩, users := [{ user, hosts := .ofList [host] }] }] }

/-- The sample package, attached and then restored from a backup. -/
def restoring (user : UserId) (host : String) : List Call :=
  [.install .sample, .addPackage .sample, .restoreState { bytes := (backup user host).encode }]

theorem after_restoring (user : UserId) (host : String) :
    let s := (create .default .openToAll).after [.install .sample, .addPackage .sample]
    (create .default .openToAll).after (restoring user host) =
      { s with stores := s.stores.restore (backup user host) }.scheduleWrite := by
  intro s
  refine registry_restoreState_encode (s := s) fun e he d v hv => ?_
  obtain rfl := List.mem_singleton.mp he
  simp at hv

theorem authorize_restoring (user : UserId) (host : String) (demand : Demand) :
    ((create .default .openToAll).after (restoring user host)).authorize demand = .ok () := by
  rw [authorize_eq_ok_iff, after_restoring]
  rfl

theorem manifest?_restoring (user : UserId) (host : String) :
    ((create .default .openToAll).after (restoring user host)).host.manifest? "app" =
      some { package := "app", filters := [.web true ["a.org"]] } := by
  have hm : ((create .default .openToAll).after
      [.install .sample, .addPackage .sample]).host.scheduleWrite.manifest? "app" =
        some { package := "app", filters := [.web true ["a.org"]] } := by decide +kernel
  rw [after_restoring]
  exact hm

theorem exists_enabled {name host : String} {user : UserId} (h : (s.stores.attached.get? name).map
    (fun r => (r.selection user).hosts.toList) = some [host]) :
    ∃ r, s.stores.attached.get? name = some r ∧ host ∈ (r.selection user).hosts := by
  obtain ⟨r, hr, he⟩ := Option.map_eq_some_iff.mp h
  refine ⟨r, hr, ?_⟩
  rw [← Std.ExtTreeSet.mem_toList, he]
  exact List.mem_singleton_self host

/-- A backup that enables a declared host. -/
theorem selections_follow_manifest_iff_sample :
    let s := (create .default .openToAll).after (restoring 7 "a.org")
    (create .default .openToAll).Informed (restoring 7 "a.org" ++ [.selection "app" (some 7)]) ∧
    s.FitsLatest Installation.DeclaresHosts (restoring 7 "a.org") ∧
    ∃ v : SelectionView, (s.perform (.selection "app" (some 7))).result = .selection (some v) ∧
      v.hosts["a.org"]? = some true ∧ v.hosts["b.org"]? = none := by
  intro s
  have hi : (create .default .openToAll).Informed
      (restoring 7 "a.org" ++ [.selection "app" (some 7)]) := by decide +kernel
  have hs : s = _ := after_restoring 7 "a.org"
  have hf : s.FitsLatest Installation.DeclaresHosts (restoring 7 "a.org") := by
    rw [hs]
    decide +kernel
  obtain ⟨r, hr, ho⟩ : ∃ r, s.stores.attached.get? "app" = some r ∧
      "a.org" ∈ (r.selection 7).hosts := by
    refine exists_enabled ?_
    rw [hs]
    decide +kernel
  obtain ⟨-, hviews⟩ := selections_follow_manifest_iff .default .openToAll
    (restoring 7 "a.org" ++ [.selection "app" (some 7)]) hi
  obtain ⟨v, hv, -, -, -, hd⟩ := hviews _ [] "app" (some 7) r _ rfl hf
    (authorize_restoring ..) hr (manifest?_restoring ..)
  refine ⟨hi, hf, v, hv, ?_, ?_⟩
  · rw [hd, if_pos (by decide +kernel)]
    exact congrArg some (decide_eq_true ho)
  · rw [hd, if_neg (by decide +kernel)]

/-- A backup that enables a host that the package does not declare. -/
theorem restored_entry_overreaches :
    let s := (create .default .openToAll).after (restoring 0 "x.org")
    (create .default .openToAll).Informed (restoring 0 "x.org" ++ [.selection "app" (some 0)]) ∧
    ¬s.FitsLatest Installation.DeclaresHosts (restoring 0 "x.org") ∧
    ∃ v : SelectionView, (s.perform (.selection "app" (some 0))).result = .selection (some v) ∧
      v.hosts["x.org"]? = some true ∧ "x.org" ∉ Installation.sample.webDomains := by
  intro s
  have hs : s = _ := after_restoring 0 "x.org"
  have hf : ¬s.FitsLatest Installation.DeclaresHosts (restoring 0 "x.org") := by
    rw [hs]
    decide +kernel
  obtain ⟨r, hr, ho⟩ : ∃ r, s.stores.attached.get? "app" = some r ∧
      "x.org" ∈ (r.selection 0).hosts := by
    refine exists_enabled ?_
    rw [hs]
    decide +kernel
  have hu : s.userOr (some 0) = 0 := rfl
  refine ⟨by decide +kernel, hf, _, result_selection (authorize_restoring ..) hr
    (manifest?_restoring ..), ?_, by decide +kernel⟩
  rw [Std.ExtTreeMap.getElem?_union, Domains.getElem?_mapTo, hu, if_pos ho]
  rfl

end Samples

end Registry
end LinkTrust
