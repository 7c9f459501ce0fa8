import LinkTrust.Proofs.Registry.Arrivals
import LinkTrust.Proofs.Registry.Reports
import LinkTrust.Proofs.Registry.Requests
import LinkTrust.Proofs.Registry.Snapshot

/-! # Asking once more

Which packages the agent is asked about once more. They are those about which the verifier has still
something to decide and which are flagged. The flag says whether the package asked for any
verification when it was attached, and it is not renewed when its manifest is found later. So a
package that was added before it could be resolved is passed over.
-/

namespace LinkTrust

namespace Installation

variable {i : Installation} {r r' : Record}

/-- The flag of the record says whether the package asks for the verification of some domain. It may
say anything of a package that could not be resolved. -/
def Flags (i : Installation) (r : Record) : Prop :=
  ∀ m : Manifest, i.manifest? = some m → (r.autoVerify = true ↔ m.autoVerifyDomains ≠ ∅)

theorem flags_of_autoVerify_eq
    (h : ∀ m : Manifest, i.manifest? = some m → r.autoVerify = !m.autoVerifyDomains.isEmpty) :
    i.Flags r := by
  intro m hm
  rw [h m hm, Bool.not_eq_true', Std.ExtTreeSet.isEmpty_eq_false_iff]

end Installation

namespace Registry

variable {s : Registry} {call : Call} {calls : List Call} {i : Installation} {name : String}
  {token : Token} {r : Record} {m : Manifest} {x : Stores}

section Flags

/-- Only by being attached anew does a package get another flag. -/
theorem Effect.flags (he : s.Effect call x) (hc : call.attaches? = none)
    (h : s.FitsLatest Installation.Flags calls) :
    x.Each (fun name _ r => ∃ i, Call.latest? calls name = some i ∧ i.Flags r)
      fun _ _ => True := by
  cases he with
  | idle => exact h
  | added nonnil => simp [Call.attaches?, nonnil] at hc
  | upgraded => cases hc
  | restarted => cases hc
  | removed => exact h.remove
  | userRemoved => exact h.removeUser (fun _ _ _ hr => hr) fun _ _ hr => hr
  | read => exact h.read (fun _ _ _ _ hr => hr) fun _ _ => trivial
  | restored => exact h.restore (fun _ _ _ _ hr => hr) (fun _ _ _ hr => hr) fun _ _ => trivial
  | reported => exact Stores.Each.modifyByToken h fun _ _ _ _ hr =>
    (h.attached hr).imp fun _ hi => ⟨hi.1, hi.2⟩
  | linkHandlingSet => exact h.modify fun _ _ hr => hr
  | selected => exact Stores.Each.modifyByToken h fun _ _ _ _ hr =>
    (h.attached hr).imp fun _ hi => ⟨hi.1, hi.2⟩

theorem fitsLatest_flags (h : s.FitsLatest Installation.Flags calls) :
    (s.perform call).registry.FitsLatest Installation.Flags (calls ++ [call]) := by
  cases hc : call.attaches? with
  | none =>
    rw [fitsLatest_concat_of_none hc]
    exact (effect_perform call).flags hc h
  | some i =>
    cases call with
    | addPackage j =>
      obtain ⟨hn, rfl⟩ : j.token.isNil = false ∧ j = i := by simpa [Call.attaches?] using hc
      refine (fitsLatest_addPackage_iff hn h).mpr (Installation.flags_of_autoVerify_eq ?_)
      intro m hm
      rw [autoVerify_attachedRecord, Installation.autoVerifyDomains_eq hm]
    | migratePackage old j =>
      refine h.migratePackage old (Installation.flags_of_autoVerify_eq fun m hm => ?_)
        fun r m hm => Installation.flags_of_autoVerify_eq fun m' hm' => ?_
      · rw [blankRecord, hm]
        rfl
      · obtain rfl : m = m' := Option.some.inj (hm.symm.trans hm')
        rw [autoVerify_approve]
        rfl
    | _ => cases hc

theorem fitsLatest_flags_after (platform : Platform) (policy : Policy) (calls : List Call) :
    ((create platform policy).after calls).FitsLatest Installation.Flags calls :=
  forall_fitsLatest platform policy calls (fun _ _ _ _ h => fitsLatest_flags h) calls []
    (List.append_nil calls).symm

end Flags

section Questions

/-- The package is attached and can be resolved, and the verifier may still decide about one of the
domains that it asks to have verified. -/
def NeedsAnswer (s : Registry) (name : String) : Prop :=
  ∃ (token : Token) (r : Record) (m : Manifest),
    s.stores.attached.byName[name]? = some (token, r) ∧ s.host.manifest? name = some m ∧
      ∃ d ∈ m.autoVerifyDomains, r.Undecided d

/-- The package is attached, and flagged as one that asks for verification. -/
def Flagged (s : Registry) (name : String) : Prop :=
  ∃ (token : Token) (r : Record),
    s.stores.attached.byName[name]? = some (token, r) ∧ r.autoVerify = true

theorem needsAnswer_iff : s.NeedsAnswer name ↔ ∃ p ∈ s.stores.attached.byName[name]?,
    ∃ m ∈ s.host.manifest? name, ∃ d ∈ m.autoVerifyDomains.toList, p.2.Undecided d := by
  simp [NeedsAnswer]

instance : Decidable (s.NeedsAnswer name) := decidable_of_iff' _ needsAnswer_iff

theorem mem_unanswered_iff (hs : s.stores.Sound) :
    name ∈ s.unanswered ↔ s.NeedsAnswer name ∧ s.Flagged name := by
  have hu (r : Record) : s.isUnanswered r = true ↔
      ∃ m, s.host.manifest? r.name = some m ∧ ∃ d ∈ m.autoVerifyDomains, r.Undecided d := by
    unfold isUnanswered
    cases s.host.manifest? r.name <;> simp [Record.isOpen_iff]
  simp only [unanswered, Std.ExtTreeSet.mem_ofList, List.contains_iff_mem,
    hs.mem_map_name_filter_iff, Bool.and_eq_true, hu]
  constructor
  · rintro ⟨token, r, hr, hf, m, hm, hd⟩
    obtain rfl := (hs.each.attached hr).name_eq
    exact ⟨⟨token, r, m, hr, hm, hd⟩, token, r, hr, hf⟩
  · rintro ⟨⟨token, r, m, hr, hm, hd⟩, token', r', hr', hf⟩
    obtain ⟨rfl, rfl⟩ := Prod.mk.inj (Option.some.inj (hr.symm.trans hr'))
    exact ⟨token, r, hr, hf, m, (hs.each.attached hr).name_eq.symm ▸ hm, hd⟩

theorem result_resend : (s.perform .resend).result = .batch s.unanswered := by
  simp only [perform, resend]
  split <;> rfl

theorem registry_resend : (s.perform .resend).registry =
    if s.unanswered.isEmpty then s else { s with agent := s.agent.send s.unanswered } := by
  simp only [perform, resend]
  split <;> rfl

end Questions

section Answers

variable {ds : Domains} {v : Verdict} (hs : s.stores.Sound)
  (hr : s.stores.attached.byName[name]? = some (token, r)) (ht : token.isNil = false)
  (ha : s.authorize .verifier = .ok ())

include hs hr ht ha

theorem reportable_of_declared (hv : v.isSettable = true) (hm : s.host.manifest? name = some m)
    (he : ds.isEmpty = false) (hd : ∀ d ∈ ds, d ∈ m.autoVerifyDomains) :
    s.reportable token ds v = .ok r :=
  reportable_eq_ok_iff.mpr ⟨ha, hv, resolve_eq_ok_iff.mpr ⟨ht,
    hs.coherent.getByToken?_eq_some_iff.mpr ⟨name, hr⟩, m,
    (hs.each.attached hr).name_eq.symm ▸ hm, he, Domains.subset_iff.mpr hd⟩⟩

/-- A package needs an answer exactly if a report on one domain could give one. -/
theorem needsAnswer_iff_report : s.NeedsAnswer name ↔ ∃ (d : String) (v : Verdict),
    (s.perform (.setVerdict token (.ofList [d]) v)).result = .count 1 := by
  have hsize (d : String) : ((Std.ExtTreeSet.ofList [d]).filter r.isOpen).size = 1 ↔
      r.Undecided d := by
    have hl : (Std.ExtTreeSet.ofList [d]).toList = [d] := rfl
    rw [Record.size_filter_isOpen, hl]
    by_cases hd : r.Undecided d <;> simp [hd]
  constructor
  · rintro ⟨token', r', m, hr', hm, d, hd, hu⟩
    obtain ⟨rfl, rfl⟩ := Prod.mk.inj (Option.some.inj (hr.symm.trans hr'))
    refine ⟨d, .success, result_setVerdict_eq_count_iff.mpr ⟨r, ?_, (hsize d).mpr hu⟩⟩
    exact reportable_of_declared hs hr ht ha rfl hm rfl (by simpa using hd)
  · rintro ⟨d, v, h⟩
    obtain ⟨r', hr', hd⟩ := result_setVerdict_eq_count_iff.mp h
    obtain ⟨-, hf, m, hm, -, hsub⟩ := resolve_eq_ok_iff.mp (reportable_eq_ok_iff.mp hr').2.2
    obtain rfl : r = r' :=
      Option.some.inj ((hs.coherent.getByToken?_eq_some_iff.mpr ⟨name, hr⟩).symm.trans hf)
    rw [(hs.each.attached hr).name_eq] at hm
    exact ⟨token, r, m, hr, hm, d, Domains.subset_iff.mp hsub d (by simp), (hsize d).mp hd⟩

end Answers

/-- After every row of calls, the agent is asked once more about the packages that need an answer
and are flagged, in one request if there are any. A package that was attached last with a manifest
is flagged if it asked for some verification then, so none is missed as long as the host has the
manifests with which its packages were attached. To need an answer is to have a domain on which a
report would be new. -/
theorem resend_asks_about_flagged (platform : Platform) (policy : Policy) (calls : List Call) :
    let s := (create platform policy).after calls
    ∃ batch : Domains, (s.perform .resend).result = .batch batch ∧
      (s.perform .resend).registry =
        (if batch.isEmpty then s else { s with agent := s.agent.send batch }) ∧
      (∀ name : String, name ∈ batch ↔ s.NeedsAnswer name ∧ s.Flagged name) ∧
      (∀ (name : String) (i : Installation) (m : Manifest), Call.latest? calls name = some i →
        i.manifest? = some m →
          (name ∈ batch ↔ s.NeedsAnswer name ∧ m.autoVerifyDomains ≠ ∅)) ∧
      (s.UpToDate calls → ∀ name : String, name ∈ batch ↔ s.NeedsAnswer name) ∧
      (s.authorize .verifier = .ok () → ∀ (name : String) (token : Token) (r : Record),
        s.stores.attached.byName[name]? = some (token, r) → token.isNil = false →
          (s.NeedsAnswer name ↔ ∃ (d : String) (v : Verdict),
            (s.perform (.setVerdict token (.ofList [d]) v)).result = .count 1)) := by
  intro s
  have hs : s.stores.Sound := sound_after (sound_create platform policy) calls
  have hmem (name : String) : name ∈ s.unanswered ↔ s.NeedsAnswer name ∧ s.Flagged name :=
    mem_unanswered_iff hs
  have hlatest (name : String) (i : Installation) (m : Manifest)
      (hi : Call.latest? calls name = some i) (hm : i.manifest? = some m) :
      name ∈ s.unanswered ↔ s.NeedsAnswer name ∧ m.autoVerifyDomains ≠ ∅ := by
    rw [hmem]
    refine and_congr_right fun ⟨token, r, _, hr, _⟩ => ?_
    have hf : r.autoVerify = true ↔ m.autoVerifyDomains ≠ ∅ :=
      (fitsLatest_flags_after platform policy calls).of_get?
        (Roster.get?_eq_some_iff.mpr ⟨token, hr⟩) hi m hm
    simp [Flagged, hr, hf]
  refine ⟨s.unanswered, result_resend, registry_resend, hmem, hlatest, fun hu name => ?_,
    fun ha name token r hr ht => needsAnswer_iff_report hs hr ht ha⟩
  refine ⟨fun h => ((hmem name).mp h).1, fun h => ?_⟩
  have ⟨token, r, m, hr, hm, d, hd, _⟩ := h
  obtain ⟨i, hi, him⟩ := hu.exists_latest (Roster.contains_iff.mpr ⟨token, r, hr⟩) hm
  refine (hlatest name i m hi him).mpr ⟨h, fun he => ?_⟩
  simp [he] at hd

/-- A package that is added before it can be resolved is missed later, although a report on its
domain would be new. If it is upgraded then instead, it is flagged and not missed. -/
theorem unresolved_arrival_is_missed :
    let i : Installation := { name := "app", token? := some ⟨1⟩ }
    let known : Installation := { Installation.sample with legacyApproval? := none }
    let s := (create .default .openToAll).after
      [.setAgent (.connect none), .addPackage i, .install known]
    let t := (create .default .openToAll).after
      [.setAgent (.connect none), .migratePackage i i, .install known]
    s.NeedsAnswer "app" ∧ (s.perform .resend).result = .batch ∅ ∧
      (s.perform (.setVerdict ⟨1⟩ (.ofList ["a.org"]) .success)).result = .count 1 ∧
      t.NeedsAnswer "app" ∧ (t.perform .resend).result = .batch (.ofList ["app"]) := by
  decide +kernel

end Registry
end LinkTrust
