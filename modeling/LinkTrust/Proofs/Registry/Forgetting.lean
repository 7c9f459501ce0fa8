import LinkTrust.Proofs.Document.Agreement
import LinkTrust.Proofs.Registry.ActiveEntries
import LinkTrust.Proofs.Registry.DeclaredHosts

/-! # Users who are forgotten

When a user is removed, no record keeps a selection of that user, and no document that is written
mentions it; all else in the stores stays. A selection comes to be by a choice of the user, from a
document that mentions the user, or from the old preferences of a package that starts fresh. So a
user who was removed stays unknown until one of these happens.
-/

namespace LinkTrust

namespace Record

variable {r r' e : Record} {user other : UserId} {f : Selection → Selection}

/-- The record has no selection of the user. -/
def Lacks (r : Record) (user : UserId) : Prop := r.selections[user]? = none

theorem lacks_blank (name : String) (token : Token) (b : Bool) :
    (blank name token b).Lacks user := by
  simp [Lacks, blank]

theorem lacks_removeUser (r : Record) (user : UserId) : (r.removeUser user).Lacks user := by
  simp [Lacks, removeUser]

theorem Lacks.removeUser (h : r.Lacks user) (other : UserId) :
    (r.removeUser other).Lacks user := by
  simp only [Lacks, Record.removeUser, Std.ExtTreeMap.getElem?_erase]
  split
  · rfl
  · exact h

theorem Lacks.select (h : r.Lacks user) (hne : other ≠ user) :
    (r.select other f).Lacks user := by
  rw [Lacks, getElem?_select, if_neg (Ne.symm hne)]
  exact h

theorem Lacks.assign (h : r.Lacks user) (ds : Domains) (v : Verdict) :
    (r.assign ds v).Lacks user :=
  h

theorem Lacks.merge (h : r.Lacks user) (he : e.Lacks user) : (Backup.merge r e).Lacks user := by
  rw [Lacks, Backup.merge, Backup.getElem?_mergeSelections, h, he]

/-- The second record is the first one without the selection of the user. -/
structure Forgets (user : UserId) (r r' : Record) : Prop where
  name_eq : r'.name = r.name
  token_eq : r'.token = r.token
  autoVerify_eq : r'.autoVerify = r.autoVerify
  verdicts_eq : r'.verdicts = r.verdicts
  selection_eq : ∀ other : UserId,
    r'.selections[other]? = if other = user then none else r.selections[other]?

theorem forgets_removeUser (r : Record) (user : UserId) : r.Forgets user (r.removeUser user) := by
  refine ⟨rfl, rfl, rfl, rfl, fun other => ?_⟩
  simp only [removeUser, Std.ExtTreeMap.getElem?_erase, Std.LawfulEqCmp.compare_eq_iff_eq,
    eq_comm (a := user)]

end Record

namespace Entry

variable {e : Entry} {r : Record} {user : UserId}

/-- The user is one of those of the entry. -/
def Mentions (e : Entry) (user : UserId) : Prop := ∃ u ∈ e.users, u.user = user

theorem lacks_record (h : ¬e.Mentions user) : e.record.Lacks user := by
  rw [Record.Lacks, Option.eq_none_iff_forall_ne_some]
  intro s hs
  obtain ⟨u, hu, he⟩ := List.mem_map.mp (Collections.mem_of_getElem?_ofList hs)
  exact h ⟨u, hu, congrArg Prod.fst he⟩

/-- The entry of a record mentions the users under whom selections stand. -/
theorem not_mentions_ofRecord (hk : r.selections.Keyed) (h : r.Lacks user) :
    ¬(ofRecord r).Mentions user := by
  rintro ⟨u, hu, rfl⟩
  obtain ⟨⟨k, s⟩, hs, rfl⟩ := List.mem_map.mp hu
  have hs := Std.ExtTreeMap.mem_toList_iff_getElem?_eq_some.mp hs
  rw [Record.Lacks, show (UserEntry.ofSelection s).user = k from hk k s hs, hs] at h
  cases h

end Entry

/-- Some entry of the document mentions the user. -/
def Document.Mentions (d : Document) (user : UserId) : Prop := ∃ e ∈ d.entries, e.Mentions user

namespace Stores

variable {s t : Stores} {user : UserId} {name : String} {token : Token} {r : Record}

/-- No record has a selection of the user. -/
def Lack (s : Stores) (user : UserId) : Prop :=
  s.Each (fun _ _ r => r.Lacks user) fun _ r => r.Lacks user

theorem Sound.not_mentions_snapshot (h : s.Sound) (hl : s.Lack user) :
    ¬s.snapshot.Mentions user := by
  rintro ⟨e, he, hm⟩
  obtain ⟨r, hr, rfl⟩ := h.exists_of_mem_snapshot he
  exact Entry.not_mentions_ofRecord (h.record hr).keyed (hl.holds hr) hm

/-- The second stores are the first ones without the selections of the user. -/
structure Forgets (user : UserId) (s t : Stores) : Prop where
  nameOf_eq : t.attached.nameOf = s.attached.nameOf
  attached : ∀ name : String, Option.Rel (fun p q => q.1 = p.1 ∧ p.2.Forgets user q.2)
    s.attached.byName[name]? t.attached.byName[name]?
  pending : ∀ name : String, Option.Rel (Record.Forgets user) s.pending[name]? t.pending[name]?
  restored : ∀ name : String, Option.Rel (Record.Forgets user) s.restored[name]? t.restored[name]?

theorem forgets_removeUser (s : Stores) (user : UserId) :
    s.Forgets user (s.removeUser user) := by
  refine ⟨rfl, fun name => ?_, fun name => ?_, fun name => ?_⟩
  · rw [removeUser, Roster.byName_mapValues]
    exact Collections.rel_map (fun p => ⟨rfl, p.2.forgets_removeUser user⟩) _
  · rw [removeUser, removeWaitingUser, Std.ExtTreeMap.getElem?_map]
    exact Collections.rel_map (fun r => r.forgets_removeUser user) _
  · rw [removeUser, removeWaitingUser, Std.ExtTreeMap.getElem?_map]
    exact Collections.rel_map (fun r => r.forgets_removeUser user) _

theorem Forgets.exists_attached (h : s.Forgets user t)
    (hr : s.attached.byName[name]? = some (token, r)) :
    ∃ r', t.attached.byName[name]? = some (token, r') ∧ r.Forgets user r' := by
  obtain ⟨⟨token', r'⟩, hr', ht, hf⟩ := Collections.exists_right_of_rel (h.attached name) hr
  obtain rfl : token' = token := ht
  exact ⟨r', hr', hf⟩

theorem Forgets.lack (h : s.Forgets user t) : t.Lack user := by
  have hl {r r' : Record} (hf : r.Forgets user r') : r'.Lacks user :=
    (hf.selection_eq user).trans (if_pos rfl)
  refine ⟨fun {n _ _} hr => ?_, fun {n _} hr => ?_, fun {n _} hr => ?_⟩
  · obtain ⟨p, -, -, hf⟩ := Collections.exists_left_of_rel (h.attached n) hr
    exact hl hf
  · obtain ⟨r, -, hf⟩ := Collections.exists_left_of_rel (h.pending n) hr
    exact hl hf
  · obtain ⟨r, -, hf⟩ := Collections.exists_left_of_rel (h.restored n) hr
    exact hl hf

end Stores

namespace Registry

variable {s : Registry} {call : Call} {calls : List Call} {i : Installation} {user : UserId}
  {x : Stores}

/-- The call may bring a selection of the user: it is a choice for the user, brings a document that
mentions the user, or adds a package afresh whose links the user always opened. -/
inductive Introduces (s : Registry) (user : UserId) : Call → Prop where
  | links {name : String} {allowed : Bool} {user? : Option UserId}
      (user_eq : s.userOr user? = user) : Introduces s user (.setLinkHandling name allowed user?)
  | hosts {token : Token} {hosts : Domains} {enabled : Bool} {user? : Option UserId}
      (user_eq : s.userOr user? = user) :
      Introduces s user (.setSelection token hosts enabled user?)
  | read {source : Source} {d : Document} (decoded : Document.readFrom source = .ok d)
      (mentioned : d.Mentions user) : Introduces s user (.readState source)
  | restored {source : Source} {d : Document} (decoded : Document.readFrom source = .ok d)
      (mentioned : d.Mentions user) : Introduces s user (.restoreState source)
  | added {i : Installation} (fresh : s.stores.Unawaited i.name)
      (always : i.preferences[user]? = some .always) : Introduces s user (.addPackage i)

theorem lacks_carriedRecord {r : Record} (h : r.Lacks user) (new : Installation) (m : Manifest) :
    (carriedRecord r new m).Lacks user := by
  rw [Record.Lacks, carriedRecord, Upgrade.carrySelections, Std.ExtTreeMap.getElem?_map, h]
  rfl

theorem lacks_attachedRecord (h : s.stores.Lack user) (hi : ¬s.Introduces user (.addPackage i)) :
    (s.attachedRecord i).Lacks user := by
  cases hr : (s.stores.origin i.name).record? with
  | some r =>
    rw [Record.Lacks, selections_attachedRecord hr]
    rw [Stores.record?_origin] at hr
    rcases Option.or_eq_some_iff.mp hr with hr | ⟨-, hr⟩
    · exact h.pending hr
    · exact h.restored hr
  | none =>
    rw [Stores.record?_origin, Option.or_eq_none_iff] at hr
    have hw : s.stores.Unawaited i.name := ⟨hr.1, hr.2⟩
    rw [Record.Lacks, getElem?_selections_attachedRecord hw, freshSelection?, if_neg]
    rintro ⟨-, ha⟩
    exact hi (.added hw ha)

/-- Other calls bring no selection of the user. -/
theorem Effect.lack (he : s.Effect call x) (h : s.stores.Lack user)
    (hi : ¬s.Introduces user call) : x.Lack user := by
  cases he with
  | idle => exact h
  | added => exact (h.settle _).enter (lacks_attachedRecord h hi)
  | @upgraded old new r m₀ m found =>
    obtain ⟨n, -, hn⟩ := Roster.getByToken?_eq_some_iff.mp found
    have hr : (carriedRecord r new m).Lacks user := lacks_carriedRecord (h.holds (.inl hn)) new m
    refine h.removeByToken.enter ?_
    rw [Record.Lacks, selections_approve]
    exact hr
  | restarted => exact h.removeByToken.enter (Record.lacks_blank ..)
  | removed => exact h.remove
  | userRemoved =>
    exact h.removeUser (fun _ _ _ hr => hr.removeUser _) fun _ _ hr => hr.removeUser _
  | @read source d decoded =>
    have hd : ∀ e ∈ d.entries, e.record.Lacks user := fun e he =>
      Entry.lacks_record fun hm => hi (.read decoded ⟨e, he, hm⟩)
    exact h.read (fun e he _ _ hr => hr.merge (hd e he)) hd
  | @restored source d decoded =>
    have hd : ∀ e ∈ d.entries, e.record.Lacks user := fun e he =>
      Entry.lacks_record fun hm => hi (.restored decoded ⟨e, he, hm⟩)
    exact h.restore (fun e he _ _ hr => hr.merge (hd e he)) (fun e he _ hr => hr.merge (hd e he)) hd
  | reported => exact Stores.Each.modifyByToken h fun _ _ _ _ hr => (h.attached hr).assign _ _
  | linkHandlingSet => exact h.modify fun _ _ hr => hr.select fun hu => hi (.links hu)
  | selected => exact Stores.Each.modifyByToken h fun _ _ _ _ hr =>
    (h.attached hr).select fun hu => hi (.hosts hu)

/-- Nothing in the registry is about the user: no record that some store holds has a selection of
the user, and no document that is written mentions it. -/
structure Unknown (s : Registry) (user : UserId) : Prop where
  held : ∀ (name : String) (r : Record), s.stores.Holds name r → r.selections[user]? = none
  writes : ∃ text : Bytes, (s.perform (.writeState {})).result = .text text
  written : ∀ (sink : Sink) (text : Bytes), (s.perform (.writeState sink)).result = .text text →
    ∃ d : Document, Document.readFrom { bytes := text } = .ok d ∧ ¬d.Mentions user

/-- What is written is the text of the snapshot, whatever the sink. -/
theorem eq_encode_of_result {sink : Sink} {text : Bytes}
    (h : (s.perform (.writeState sink)).result = .text text) : text = s.stores.snapshot.encode := by
  cases hw : s.stores.snapshot.writeTo sink with
  | error e => simp [perform, writeState, hw, reject, Reply.map, Answer.ofExcept] at h
  | ok text' =>
    obtain rfl : text' = text := by
      simpa [perform, writeState, hw, Reply.map, Answer.ofExcept] using h
    exact Document.eq_encode_of_writeTo hw

theorem unknown_of_lack (hs : s.stores.Sound) (h : s.stores.Lack user) : s.Unknown user where
  held _ _ hr := h.holds hr
  writes := ⟨s.stores.snapshot.encode, perform_writeState s⟩
  written sink text ht := by
    obtain rfl := eq_encode_of_result ht
    exact ⟨s.stores.snapshot, Document.readFrom_encode hs.canonical_snapshot,
      hs.not_mentions_snapshot h⟩

/-- When a user is removed, its selections vanish from all stores and from whatever is written, and
nothing else changes in the stores. The user stays unknown as long as no call introduces it. -/
theorem removed_user_stays_unknown (platform : Platform) (policy : Policy) (calls : List Call)
    (user : UserId) :
    let s := (create platform policy).after calls
    let t := (s.perform (.removeUser user)).registry
    t.Unknown user ∧ s.stores.Forgets user t.stores ∧
    ∀ later : List Call, t.Throughout later (fun s call => ¬s.Introduces user call) →
      t.Always later (·.Unknown user) := by
  intro s t
  have hs : t.stores.Sound :=
    (effect_perform (.removeUser user)).sound (sound_after (sound_create platform policy) calls)
  have hf : s.stores.Forgets user t.stores := s.stores.forgets_removeUser user
  refine ⟨unknown_of_lack hs hf.lack, hf, fun later hl earlier rest he => ?_⟩
  -- That records lack the user is what is kept; with soundness it says what documents mention.
  have ha : t.Always later fun s => s.stores.Sound ∧ s.stores.Lack user :=
    always_of_throughout ⟨hs, hf.lack⟩ hl fun s call h hi =>
      ⟨(effect_perform call).sound h.1, (effect_perform call).lack h.2 hi⟩
  exact unknown_of_lack (ha earlier rest he).1 (ha earlier rest he).2

/-- One of two users is removed. The other one makes a choice, and the package is removed and added
again while a restored entry waits for it. -/
theorem removed_user_stays_unknown_sample :
    let s := (create .default .openToAll).after [.install .sample, .addPackage .sample,
      .setSelection ⟨1⟩ (.ofList ["a.org"]) true (some 7), .setLinkHandling "app" false (some 8)]
    let t := (s.perform (.removeUser 7)).registry
    let later : List Call := [.setLinkHandling "app" true (some 8), .removePackage "app",
      .readState { bytes := ({ restored := [.sample] } : Document).encode }, .addPackage .sample]
    t.Throughout later (fun s call => ¬s.Introduces 7 call) ∧ (t.after later).Unknown 7 ∧
    ∃ r r' : Record, s.stores.attached.get? "app" = some r ∧
      t.stores.attached.get? "app" = some r' ∧
      r.selections[(7 : UserId)]? = some ⟨7, .ofList ["a.org"], false⟩ ∧
      r'.selections[(7 : UserId)]? = none ∧ r'.selections[(8 : UserId)]? = some ⟨8, ∅, true⟩ := by
  intro s t later
  have hl : t.Throughout later fun s call => ¬s.Introduces 7 call := by
    intro earlier call rest he hi
    have hc : call ∈ later := he ▸ List.mem_append_right _ List.mem_cons_self
    simp only [later, List.mem_cons, List.not_mem_nil, or_false] at hc
    rcases hc with rfl | rfl | rfl | rfl
    · cases hi with
      | links user_eq => exact absurd (show (8 : UserId) = 7 from user_eq) (by decide)
    · cases hi
    · cases hi with
      | read decoded mentioned =>
        rw [Document.readFrom_encode (d := { restored := [.sample] }) Entry.canonical_sample]
          at decoded
        cases decoded
        simp [Document.Mentions, Document.entries, Entry.Mentions, Entry.sample] at mentioned
    · cases hi with
      | added fresh always => simp [Installation.sample] at always
  obtain ⟨hu, hf, hlater⟩ := removed_user_stays_unknown .default .openToAll _ 7
  have hs : (s.stores.attached.get? "app").map (fun r => (r.selections[(7 : UserId)]?,
      r.selections[(8 : UserId)]?)) =
        some (some ⟨7, .ofList ["a.org"], false⟩, some ⟨8, ∅, true⟩) := by decide +kernel
  obtain ⟨r, hr, he⟩ := Option.map_eq_some_iff.mp hs
  obtain ⟨h₇, h₈⟩ := Prod.mk.inj he
  obtain ⟨token, hb⟩ := Roster.get?_eq_some_iff.mp hr
  obtain ⟨r', hb', hforgets⟩ := hf.exists_attached hb
  refine ⟨hl, hlater later hl later [] (List.append_nil _).symm, r, r', hr,
    Roster.get?_eq_some_iff.mpr ⟨token, hb'⟩, h₇, ?_, ?_⟩
  · rw [hforgets.selection_eq, if_pos rfl]
  · rw [hforgets.selection_eq, if_neg (by decide), h₈]

end Registry
end LinkTrust
