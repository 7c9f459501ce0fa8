import LinkTrust.Proofs.Registry.Coherence

/-! # The provenance of verdicts

No verdict comes from nowhere: whatever a store holds about a domain of a package was said by a
document, by the verifier, by the platform or by the approval from before verification existed, in
some earlier call about that very package. A package must only be upgraded under its own name, since
an upgrade carries verdicts along with the token.
-/

namespace LinkTrust

/-- The document has an entry of the package that gives the domain a verdict with the code. -/
def Document.Lists (d : Document) (name domain : String) (c : Int32) : Prop :=
  ∃ e ∈ d.entries, e.name = name ∧ ∃ v : Verdict, e.verdicts[domain]? = some v ∧ v.code = c

namespace Record

variable {r e : Record} {V : String → Int32 → Prop}

/-- Every recorded verdict is vouched for. -/
def Grounded (r : Record) (V : String → Int32 → Prop) : Prop :=
  ∀ (d : String) (v : Verdict), r.verdicts[d]? = some v → V d v.code

theorem grounded_blank (name : String) (token : Token) (autoVerify : Bool) :
    (blank name token autoVerify).Grounded V := by
  intro d v hv
  simp [blank] at hv

theorem Grounded.of_verdicts_eq {r' : Record} (h : r.Grounded V) (he : r'.verdicts = r.verdicts) :
    r'.Grounded V :=
  fun d v hv => h d v (he ▸ hv)

theorem Grounded.assign (h : r.Grounded V) {ds : Domains} {v : Verdict}
    (hv : ∀ d ∈ ds, V d v.code) : (r.assign ds v).Grounded V := by
  intro d w hw
  simp only [Record.assign, Verdicts.getElem?_assign] at hw
  split at hw
  · rename_i hd
    cases hw
    exact hv d hd
  · exact h d w hw

/-- A merge adds nothing but restored verdicts, on domains that the backup trusted. -/
theorem Grounded.merge (h : r.Grounded V)
    (hv : ∀ (d : String) (v : Verdict), e.verdicts[d]? = some v → v.isRestorable = true → V d 5) :
    (Backup.merge r e).Grounded V := by
  intro d w hw
  simp only [Backup.merge, Backup.getElem?_mergeVerdicts] at hw
  split at hw
  · rename_i hd
    obtain ⟨-, v, hd, hr⟩ := hd
    cases hw
    exact hv d v hd hr
  · exact h d w hw

theorem grounded_coerce
    (hv : ∀ (d : String) (v : Verdict), e.verdicts[d]? = some v → v.isRestorable = true → V d 5) :
    (Backup.coerce e).Grounded V := by
  intro d w hw
  obtain ⟨rfl, v, hd, hr⟩ := Backup.getElem?_verdicts_coerce.mp hw
  exact hv d v hd hr

end Record

namespace Registry

variable {s : Registry} {i : Installation} {name domain : String} {c : Int32} {call : Call}

/-- A call that accounts for a verdict with the code on a domain of a package. -/
inductive Vouches (s : Registry) (name domain : String) (c : Int32) : Call → Prop where
  /-- A document that was read says so. -/
  | read {source : Source} {d : Document} (decoded : Document.readFrom source = .ok d)
      (listed : d.Lists name domain c) : Vouches s name domain c (.readState source)
  /-- The verifier has reported it under the token that the package had. -/
  | reported {token : Token} {ds : Domains} {v : Verdict} {k : Nat}
      (bound : s.stores.attached.nameOf[token]? = some name) (mem : domain ∈ ds)
      (code_eq : v.code = c) (settable : c = 1 ∨ Verdict.firstVerifierDefined ≤ c)
      (accepted : (s.setVerdict token ds v).result = .ok k) :
      Vouches s name domain c (.setVerdict token ds v)
  /-- The platform approves the links of the package. -/
  | approved {i : Installation} (linked : s.platform.isLinked name = true) (name_eq : i.name = name)
      (mem : domain ∈ i.autoVerifyDomains) (code_eq : c = 2) :
      Vouches s name domain c (.addPackage i)
  | approvedUpgrade {old new : Installation} (linked : s.platform.isLinked name = true)
      (name_eq : new.name = name) (mem : domain ∈ new.autoVerifyDomains) (code_eq : c = 2) :
      Vouches s name domain c (.migratePackage old new)
  /-- All domains of the package were approved before verification existed. -/
  | migrated {i : Installation} (unlinked : s.platform.isLinked name = false)
      (name_eq : i.name = name) (always : i.isAlwaysApproved = true)
      (mem : domain ∈ i.autoVerifyDomains) (code_eq : c = 4) :
      Vouches s name domain c (.addPackage i)
  /-- The domain was trusted where a document comes from. -/
  | restored {source : Source} {d : Document} (decoded : Document.readFrom source = .ok d)
      (listed : d.Lists name domain 1 ∨ d.Lists name domain 5) (code_eq : c = 5) :
      Vouches s name domain c (.restoreState source)
  | restoredLate {source : Source} {d : Document} (decoded : Document.readFrom source = .ok d)
      (listed : d.Lists name domain 1 ∨ d.Lists name domain 5) (code_eq : c = 5) :
      Vouches s name domain c (.readState source)

theorem lists_of_isRestorable {d : Document} {e : Entry} (he : e ∈ d.entries) {v : Verdict}
    (hv : e.verdicts[domain]? = some v) (hr : v.isRestorable = true) :
    d.Lists e.name domain 1 ∨ d.Lists e.name domain 5 := by
  rcases Verdict.isRestorable_iff.mp hr with hc | hc
  · exact .inl ⟨e, he, rfl, v, hv, hc⟩
  · exact .inr ⟨e, he, rfl, v, hv, hc⟩

variable {V : String → String → Int32 → Prop}

/-- All stored verdicts are vouched for under the names of their packages. -/
def Grounded (s : Stores) (V : String → String → Int32 → Prop) : Prop :=
  s.Each (fun name _ r => r.Grounded (V name)) fun name r => r.Grounded (V name)

section Packages

theorem grounded_startingRecord (h : Grounded s.stores V) :
    (s.startingRecord i).Grounded (V i.name) := by
  unfold startingRecord
  split
  · rename_i r hr
    rw [Stores.record?_origin] at hr
    rcases Option.or_eq_some_iff.mp hr with hr | ⟨-, hr⟩
    · exact (h.pending hr).of_verdicts_eq rfl
    · exact (h.restored hr).of_verdicts_eq rfl
  · exact Record.grounded_blank _ _ _

theorem grounded_attachedRecord (hs : s.stores.Sound) (h : Grounded s.stores V)
    (hV : ∀ d c, s.Vouches i.name d c (.addPackage i) → V i.name d c) :
    (s.attachedRecord i).Grounded (V i.name) := by
  have hr := grounded_startingRecord (i := i) h
  have hn := (standsUnder_startingRecord (i := i) hs).name_eq
  unfold attachedRecord
  simp only [hn]
  split
  · rename_i hf
    have hl : s.platform.isLinked i.name = false := by simp_all
    intro d v hv
    rw [verdicts_adoptPreferences] at hv
    split at hv
    · rename_i ha
      exact hr.assign (v := .migrated) (fun d hd => hV d 4 (.migrated hl rfl ha hd rfl)) d v hv
    · exact hr d v hv
  · unfold approve
    split
    · rename_i hl
      rw [hn] at hl
      exact hr.assign fun d hd => hV d 2 (.approved hl rfl hd rfl)
    · exact hr

end Packages

/-- A call leaves every verdict vouched for, by what was said before or by the call itself. -/
theorem Effect.grounded {x : Stores} (he : s.Effect call x) (hs : s.stores.Sound)
    (hm : ∀ old new name, call = .migratePackage old new →
      s.stores.attached.nameOf[old.token]? = some name → name = new.name)
    (h : Grounded s.stores V) (hV : ∀ name d c, s.Vouches name d c call → V name d c) :
    Grounded x V := by
  cases he with
  | idle => exact h
  | added nonnil => exact (h.settle _).enter (grounded_attachedRecord hs h (hV _))
  | @upgraded old new r m₀ m found resolvedOld resolved =>
    obtain ⟨n, hn⟩ := hs.coherent.getByToken?_eq_some_iff.mp found
    obtain rfl := hm old new n rfl (hs.coherent.nameOf_of_byName hn)
    have hr : (carriedRecord r new m).Grounded (V new.name) :=
      fun d v hv => h.attached hn d v (Upgrade.getElem?_carryVerdicts.mp hv).1
    refine Stores.Each.removeByToken h |>.enter ?_
    unfold approve
    split
    · rename_i hl
      have hd : new.autoVerifyDomains = m.autoVerifyDomains := by
        simp [Installation.autoVerifyDomains, resolved]
      exact hr.assign fun d hm => hV _ d 2 (.approvedUpgrade hl rfl (hd ▸ hm) rfl)
    · exact hr
  | restarted => exact Stores.Each.removeByToken h |>.enter (Record.grounded_blank _ _ _)
  | removed => exact Stores.Each.remove h
  | userRemoved => exact Stores.Each.removeUser h (fun _ _ _ hr => hr) fun _ _ hr => hr
  | read decoded =>
    exact Stores.Each.read h
      (fun e he _ _ hr => hr.merge fun d v hv hr =>
        hV _ d 5 (.restoredLate decoded (lists_of_isRestorable he hv hr) rfl))
      fun e he d v hv => hV _ d _ (.read decoded ⟨e, he, rfl, v, hv, rfl⟩)
  | restored decoded =>
    have hr := fun e he d v hv hr => hV _ d 5
      (.restored decoded (lists_of_isRestorable (e := e) he (v := v) hv hr) rfl)
    exact Stores.Each.restore h (fun e he _ _ h => h.merge (hr e he))
      (fun e he _ h => h.merge (hr e he)) fun e he => Record.grounded_coerce (hr e he)
  | @reported token ds v r accepted =>
    refine Stores.Each.modifyByToken h fun n t r' hn hr' => (h.attached hr').assign fun d hd => ?_
    obtain ⟨-, settable, -⟩ := reportable_eq_ok_iff.mp accepted
    have hd : d ∈ ds := by simp_all
    rw [Verdict.code_normalized]
    exact hV n d v.code (.reported (k := (ds.filter r.isOpen).size) hn hd rfl
      (by simpa [Verdict.isSettable] using settable) (by simp [setVerdict, accepted]))
  | linkHandlingSet => exact Stores.Each.modify h fun _ _ hr => hr
  | selected =>
    exact Stores.Each.modifyByToken h fun _ _ _ _ hr => (h.attached hr).of_verdicts_eq rfl

/-- The upgrades of a row of calls that starts in `s` each find their old token with the package
that they upgrade, or with none. -/
def UpgradesKeepNames (s : Registry) (calls : List Call) : Prop :=
  ∀ (earlier later : List Call) (old new : Installation) (name : String),
    calls = earlier ++ .migratePackage old new :: later →
    (s.after earlier).stores.attached.nameOf[old.token]? = some name → name = new.name

theorem UpgradesKeepNames.tail {calls : List Call} (h : s.UpgradesKeepNames (call :: calls)) :
    (s.perform call).registry.UpgradesKeepNames calls :=
  fun earlier later old new name he =>
    h (call :: earlier) later old new name (by rw [he, List.cons_append])

/-- Some call of a row that starts in `s` accounts for the verdict. -/
def VouchedIn (s : Registry) (calls : List Call) (name domain : String) (c : Int32) : Prop :=
  ∃ earlier call later, calls = earlier ++ call :: later ∧
    (s.after earlier).Vouches name domain c call

theorem VouchedIn.cons {calls : List Call}
    (h : (s.perform call).registry.VouchedIn calls name domain c) :
    s.VouchedIn (call :: calls) name domain c := by
  obtain ⟨earlier, call', later, rfl, hv⟩ := h
  exact ⟨call :: earlier, call', later, rfl, hv⟩

theorem grounded_after {calls : List Call} (hs : s.stores.Sound) (h : Grounded s.stores V)
    (hm : s.UpgradesKeepNames calls) (hV : ∀ name d c, s.VouchedIn calls name d c → V name d c) :
    Grounded (s.after calls).stores V := by
  induction calls generalizing s with
  | nil => exact h
  | cons call calls ih =>
    have he := effect_perform (s := s) call
    refine ih (he.sound hs) (he.grounded hs ?_ h ?_) hm.tail fun name d c hv => hV name d c hv.cons
    · rintro old new name rfl hn
      exact hm [] calls old new name rfl hn
    · exact fun name d c hv => hV name d c ⟨[], call, calls, rfl, hv⟩

theorem grounded_create (platform : Platform) (policy : Policy) :
    Grounded (create platform policy).stores V :=
  ⟨fun hn => by simp [create] at hn, fun hn => by simp [create] at hn,
    fun hn => by simp [create] at hn⟩

/-- Whatever a store holds about a domain of a package was said in an earlier call about that
package. A code that neither the verifier nor the registry itself gives was read from a document. -/
theorem verdict_has_source (platform : Platform) (policy : Policy) (calls : List Call)
    (hm : (create platform policy).UpgradesKeepNames calls) (name domain : String) (r : Record)
    (v : Verdict) (hr : ((create platform policy).after calls).stores.Holds name r)
    (hv : r.verdicts[domain]? = some v) :
    (create platform policy).VouchedIn calls name domain v.code ∧
      (v.code ≠ 1 → v.code < Verdict.firstVerifierDefined → v.code ≠ 2 → v.code ≠ 4 → v.code ≠ 5 →
        ∃ earlier source later d, calls = earlier ++ .readState source :: later ∧
          Document.readFrom source = .ok d ∧ d.Lists name domain v.code) := by
  have h := grounded_after (V := (create platform policy).VouchedIn calls)
    (sound_create platform policy) (grounded_create platform policy) hm fun _ _ _ h => h
  have hvouched := Stores.Each.holds h hr domain v hv
  refine ⟨hvouched, fun h₁ h₁₀₂₄ h₂ h₄ h₅ => ?_⟩
  obtain ⟨earlier, call, later, rfl, hc⟩ := hvouched
  cases hc with
  | read decoded listed => exact ⟨earlier, _, later, _, rfl, decoded, listed⟩
  | reported bound mem code_eq settable accepted =>
    rcases settable with hc | hc
    · exact absurd hc h₁
    · exact absurd h₁₀₂₄ (by simpa using hc)
  | approved linked name_eq mem code_eq => exact absurd code_eq h₂
  | approvedUpgrade linked name_eq mem code_eq => exact absurd code_eq h₂
  | migrated unlinked name_eq always mem code_eq => exact absurd code_eq h₄
  | restored decoded listed code_eq => exact absurd code_eq h₅
  | restoredLate decoded listed code_eq => exact absurd code_eq h₅

theorem upgradesKeepNames_sample :
    (create .default .openToAll).UpgradesKeepNames
      [.addPackage .sample, .migratePackage .sample .sample] := by
  rintro earlier later old new name he hn
  rcases earlier with _ | ⟨call, _ | ⟨call', earlier⟩⟩
  · cases he
  · cases he
    exact Option.some.inj (hn.symm.trans (by decide))
  · simp at he

/-- An approval from before verification existed, found again after an upgrade. -/
theorem verdict_has_source_sample :
    ∃ r : Record, ((create .default .openToAll).after
        [.addPackage .sample, .migratePackage .sample .sample]).stores.Holds "app" r ∧
      r.verdicts["a.org"]? = some .migrated ∧
      (create .default .openToAll).VouchedIn
        [.addPackage .sample, .migratePackage .sample .sample] "app" "a.org" 4 := by
  have hs : (((create .default .openToAll).after
      [.addPackage .sample, .migratePackage .sample .sample]).stores.attached.get? "app").bind
        (·.verdicts["a.org"]?) = some .migrated := by decide +kernel
  obtain ⟨r, hr, hv⟩ := Option.bind_eq_some_iff.mp hs
  exact ⟨r, .inl hr, hv, (verdict_has_source .default .openToAll _ upgradesKeepNames_sample "app"
    "a.org" r .migrated (.inl hr) hv).1⟩

end Registry
end LinkTrust
