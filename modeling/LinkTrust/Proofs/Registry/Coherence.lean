import LinkTrust.Proofs.Backup
import LinkTrust.Proofs.Document.Decoded
import LinkTrust.Proofs.Registry.Effect

/-! # Coherent stores

The identity of a package is kept in several places: as the key of its record, in the token index,
and in the record itself. They agree after every row of calls, every selection stands under its own
user, and every verdict is canonical.
-/

namespace LinkTrust

namespace Record

variable {r e : Record} {name : String} {token : Token}

/-- A sound record that bears the name and the token under which it stands. -/
structure StandsUnder (r : Record) (name : String) (token : Token) : Prop where
  name_eq : r.name = name
  token_eq : r.token = token
  sound : r.Sound

theorem StandsUnder.assign (h : r.StandsUnder name token) {v : Verdict} (hv : v.IsCanonical)
    (ds : Domains) : (r.assign ds v).StandsUnder name token :=
  ⟨h.name_eq, h.token_eq, h.sound.assign hv ds⟩

theorem StandsUnder.select (h : r.StandsUnder name token) {user : UserId}
    {f : Selection → Selection} (hf : ∀ s, (f s).user = s.user) :
    (r.select user f).StandsUnder name token :=
  ⟨h.name_eq, h.token_eq, h.sound.select hf⟩

theorem StandsUnder.removeUser (h : r.StandsUnder name token) (user : UserId) :
    (r.removeUser user).StandsUnder name token :=
  ⟨h.name_eq, h.token_eq, h.sound.removeUser⟩

theorem StandsUnder.merge (h : r.StandsUnder name token) (he : e.Sound) :
    (Backup.merge r e).StandsUnder name token :=
  ⟨h.name_eq, h.token_eq, h.sound.merge he⟩

theorem Sound.standsUnder (h : r.Sound) : r.StandsUnder r.name r.token := ⟨rfl, rfl, h⟩

end Record

/-- The two indices of the attached records agree, and every record stands under its own name and
token; a record that waits has no token to agree with. -/
structure Stores.Sound (s : Stores) : Prop where
  coherent : s.attached.Coherent
  each : s.Each (fun name token r => r.StandsUnder name token)
    fun name r => r.StandsUnder name r.token

theorem Stores.Sound.record {s : Stores} {name : String} {r : Record} (h : s.Sound)
    (hr : s.Holds name r) : r.Sound := by
  rcases hr with hr | hr | hr
  · obtain ⟨t, ht⟩ := Roster.get?_eq_some_iff.mp hr
    exact (h.each.attached ht).sound
  · exact (h.each.pending hr).sound
  · exact (h.each.restored hr).sound

/-- Whatever a backup lists, it leaves sound stores sound. -/
theorem Stores.Sound.restore {s : Stores} (h : s.Sound) (d : Document) : (s.restore d).Sound := by
  have hc (e : Entry) : (Backup.coerce e.record).Sound :=
    Record.sound_coerce (Entry.keyed_ofList e.users)
  refine ⟨Stores.attached_restore h.coherent fun _ _ _ ha => ha.modify, h.each.restore ?_ ?_ ?_⟩
  · intro e _ t r hr
    rw [← Backup.merge_coerce]
    exact hr.merge (hc e)
  · intro e _ r hr
    rw [← Backup.merge_coerce]
    exact hr.merge (hc e)
  · intro e _
    exact (hc e).standsUnder

namespace Registry

variable {s : Registry} {i new : Installation} {r : Record} {m : Manifest} {name : String}
  {token : Token}

section Packages

theorem standsUnder_approve (h : r.StandsUnder name token) (ds : Domains) :
    (s.approve r ds).StandsUnder name token := by
  unfold approve
  split
  · exact h.assign (v := .approved) rfl ds
  · exact h

theorem standsUnder_adoptPreferences (h : r.StandsUnder name token) (i : Installation) :
    (adoptPreferences r i).StandsUnder name token := by
  have hu : (i.usersAlways.foldl (fun r user => r.select user (·.enable i.webDomains))
      r).StandsUnder name token :=
    List.foldlRecOn (motive := fun r : Record => r.StandsUnder name token) _ _ h
      fun _ hr _ _ => hr.select fun _ => rfl
  unfold adoptPreferences
  split
  · exact hu.assign (v := .migrated) rfl _
  · exact hu

/-- The record that a package starts with is its own, even if it waited under another token. -/
theorem standsUnder_startingRecord (h : s.stores.Sound) :
    (s.startingRecord i).StandsUnder i.name i.token := by
  unfold startingRecord
  split
  · rename_i r hr
    rw [Stores.record?_origin] at hr
    have hr : r.StandsUnder i.name r.token := by
      rcases Option.or_eq_some_iff.mp hr with hr | ⟨-, hr⟩
      · exact h.each.pending hr
      · exact h.each.restored hr
    exact ⟨hr.name_eq, rfl, hr.sound.keyed, hr.sound.canonical⟩
  · exact ⟨rfl, rfl, Record.sound_blank ..⟩

theorem standsUnder_attachedRecord (h : s.stores.Sound) :
    (s.attachedRecord i).StandsUnder i.name i.token := by
  unfold attachedRecord
  simp only
  split
  · exact standsUnder_adoptPreferences (standsUnder_startingRecord h) i
  · exact standsUnder_approve (standsUnder_startingRecord h) _

theorem standsUnder_carriedRecord (h : r.Sound) :
    (carriedRecord r new m).StandsUnder new.name new.token :=
  ⟨rfl, rfl, Upgrade.keyed_carrySelections h.keyed, Upgrade.canonical_carryVerdicts h.canonical⟩

theorem standsUnder_blankRecord : (blankRecord new).StandsUnder new.name new.token :=
  ⟨rfl, rfl, Record.sound_blank ..⟩

end Packages

/-- Every call leaves sound stores sound. -/
theorem Effect.sound {call : Call} {x : Stores} (he : s.Effect call x) (h : s.stores.Sound) :
    x.Sound := by
  cases he with
  | idle => exact h
  | added nonnil =>
    exact ⟨h.coherent.enter, (h.each.settle _).enter (standsUnder_attachedRecord h)⟩
  | upgraded found resolvedOld resolved =>
    obtain ⟨n, hn⟩ := h.coherent.getByToken?_eq_some_iff.mp found
    have hr := (h.each.attached hn).sound
    exact ⟨h.coherent.removeByToken.enter,
      h.each.removeByToken.enter (standsUnder_approve (standsUnder_carriedRecord hr) _)⟩
  | restarted =>
    exact ⟨h.coherent.removeByToken.enter, h.each.removeByToken.enter standsUnder_blankRecord⟩
  | removed => exact ⟨h.coherent.remove, h.each.remove⟩
  | userRemoved =>
    exact ⟨h.coherent.mapValues, h.each.removeUser (fun _ _ _ hr => hr.removeUser _)
      fun _ _ hr => hr.removeUser _⟩
  | read decoded =>
    have hd := fun e he => Document.sound_of_readFrom decoded (e := e) he
    exact ⟨Stores.attached_read h.coherent fun _ _ _ ha => ha.modify,
      h.each.read (fun e he _ _ hr => hr.merge (hd e he)) fun e he => (hd e he).standsUnder⟩
  | restored => exact h.restore _
  | reported accepted =>
    exact ⟨h.coherent.modifyByToken, h.each.modifyByToken fun _ _ _ _ hr =>
      (h.each.attached hr).assign (Verdict.isCanonical_ofCode _) _⟩
  | linkHandlingSet =>
    exact ⟨h.coherent.modify, h.each.modify fun _ _ hr => hr.select fun _ => rfl⟩
  | selected =>
    refine ⟨h.coherent.modifyByToken, h.each.modifyByToken fun _ _ _ _ hr =>
      (h.each.attached hr).select fun _ => ?_⟩
    split <;> rfl

theorem sound_create (platform : Platform) (policy : Policy) :
    (create platform policy).stores.Sound :=
  ⟨Roster.coherent_empty, fun hn => by simp [create] at hn, fun hn => by simp [create] at hn,
    fun hn => by simp [create] at hn⟩

theorem sound_after (h : s.stores.Sound) (calls : List Call) : (s.after calls).stores.Sound :=
  after_induction (P := fun s => s.stores.Sound) calls h fun _ call => (effect_perform call).sound

/-- After every row of calls the token index and the name index of the attached records are inverse
to each other, every record bears the name and, if it is attached, the token under which it stands,
every selection the user, and every verdict is canonical. -/
theorem stores_agree_after (platform : Platform) (policy : Policy) (calls : List Call) :
    let s := ((create platform policy).after calls).stores
    (∀ (token : Token) (name : String), s.attached.nameOf[token]? = some name ↔
      ∃ r : Record, s.attached.byName[name]? = some (token, r)) ∧
    (∀ (name : String) (token : Token) (r : Record), s.attached.byName[name]? = some (token, r) →
      r.name = name ∧ r.token = token) ∧
    (∀ (name : String) (r : Record), s.pending[name]? = some r ∨ s.restored[name]? = some r →
      r.name = name) ∧
    (∀ (name : String) (r : Record), s.Holds name r →
      (∀ (user : UserId) (selection : Selection), r.selections[user]? = some selection →
        selection.user = user) ∧
      ∀ (d : String) (v : Verdict), r.verdicts[d]? = some v → v = v.normalized) := by
  intro s
  have h : s.Sound := sound_after (sound_create platform policy) calls
  refine ⟨h.coherent, fun name token r hr => ?_, ?_, fun name r hr => ?_⟩
  · exact ⟨(h.each.attached hr).name_eq, (h.each.attached hr).token_eq⟩
  · rintro name r (hr | hr)
    · exact (h.each.pending hr).name_eq
    · exact (h.each.restored hr).name_eq
  · have hs := h.record hr
    exact ⟨hs.keyed, fun d v hv => (hs.canonical d v hv).symm⟩

end Registry
end LinkTrust
