import LinkTrust.Proofs.Registry.Arrivals
import LinkTrust.Proofs.Registry.Reinstall

/-! # Verdicts on declared domains

As long as no document is brought, an attached package has verdicts on domains that it asks to have
verified and on no others: whatever records a verdict asks the manifest first, and an upgrade
carries none past the new manifest. So the verification set of a package has exactly the domains of
the manifest, as long as the host has the one with which the package was attached last.
-/

namespace LinkTrust

namespace Installation

variable {i : Installation} {r : Record} {ds : Domains} {v : Verdict}

/-- The package asks for the verification of all domains that have a verdict. -/
def DeclaresVerdicts (i : Installation) (r : Record) : Prop :=
  ∀ d ∈ r.verdicts, d ∈ i.autoVerifyDomains

instance : Decidable (i.DeclaresVerdicts r) :=
  decidable_of_iff (∀ d ∈ r.verdicts.keys, d ∈ i.autoVerifyDomains) <| by
    simp only [Std.ExtTreeMap.mem_keys, DeclaresVerdicts]

theorem DeclaresVerdicts.assign (h : i.DeclaresVerdicts r)
    (hd : ∀ d ∈ ds, d ∈ i.autoVerifyDomains) : i.DeclaresVerdicts (r.assign ds v) := by
  intro d hm
  rw [Std.ExtTreeMap.mem_iff_isSome_getElem?, Record.assign, Verdicts.getElem?_assign] at hm
  split at hm
  · exact hd d ‹_›
  · exact h d (Std.ExtTreeMap.mem_iff_isSome_getElem?.mpr hm)

theorem declaresVerdicts_blank (i : Installation) (name : String) (token : Token) (b : Bool) :
    i.DeclaresVerdicts (.blank name token b) := by
  intro d hd
  simp [Record.blank] at hd

end Installation

namespace Registry

variable {s : Registry} {call : Call} {calls : List Call} {i : Installation} {x : Stores}

section Waiting

/-- Without documents nothing comes to wait. -/
theorem Effect.unawaited (he : s.Effect call x) (hd : call.bringsDocument = false)
    (h : ∀ name, s.stores.Unawaited name) (name : String) : x.Unawaited name := by
  cases he with
  | idle => exact h name
  | added =>
    constructor
    · rw [Stores.pending_attach_settle, (h name).pending, ite_self]
    · rw [Stores.restored_attach_settle, (h name).restored, ite_self]
  | userRemoved =>
    constructor
    · simp [Stores.removeUser, Stores.removeWaitingUser, (h name).pending]
    · simp [Stores.removeUser, Stores.removeWaitingUser, (h name).restored]
  | read => cases hd
  | restored => cases hd
  | _ => exact ⟨(h name).pending, (h name).restored⟩

theorem unawaited_after (platform : Platform) (policy : Policy)
    (hd : ∀ call ∈ calls, call.bringsDocument = false) (name : String) :
    ((create platform policy).after calls).stores.Unawaited name := by
  have h (s : Registry) (hs : ∀ name, s.stores.Unawaited name) :
      ∀ name, (s.after calls).stores.Unawaited name := by
    induction calls generalizing s with
    | nil => exact hs
    | cons call calls ih =>
      rw [List.forall_mem_cons] at hd
      exact ih hd.2 _ fun name => (effect_perform call).unawaited hd.1 hs name
  exact h _ (fun _ => by constructor <;> simp [create]) name

end Waiting

section Records

theorem declaresVerdicts_attachedRecord (h : s.stores.Unawaited i.name) :
    i.DeclaresVerdicts (s.attachedRecord i) := by
  intro d hd
  rw [Std.ExtTreeMap.mem_iff_isSome_getElem?, getElem?_verdicts_attachedRecord h,
    freshVerdict?] at hd
  split at hd
  · assumption
  · cases hd

theorem declaresVerdicts_carried {m : Manifest} (hm : i.manifest? = some m) (r : Record) :
    i.DeclaresVerdicts (s.approve (carriedRecord r i m) m.autoVerifyDomains) := by
  have hc : i.DeclaresVerdicts (carriedRecord r i m) := by
    intro d hd
    obtain ⟨v, hv⟩ := Option.isSome_iff_exists.mp (Std.ExtTreeMap.mem_iff_isSome_getElem?.mp hd)
    rw [Installation.autoVerifyDomains_eq hm]
    exact (Upgrade.getElem?_carryVerdicts.mp hv).2.2
  unfold approve
  split
  · exact hc.assign fun d hd => Installation.autoVerifyDomains_eq hm ▸ hd
  · exact hc

end Records

theorem respectsManifest_declaresVerdicts : RespectsManifest Installation.DeclaresVerdicts where
  removeUser _ h := h
  assign hd h := h.assign hd
  select _ h := h

/-- A call that brings no document leaves verdicts on declared domains alone. -/
theorem FitsLatest.declaresVerdicts (h : s.FitsLatest Installation.DeclaresVerdicts calls)
    (hs : s.stores.Sound) (hw : ∀ name, s.stores.Unawaited name)
    (hd : call.bringsDocument = false) (hu : call.isExternal = true → s.UpToDate calls) :
    (s.perform call).registry.FitsLatest Installation.DeclaresVerdicts (calls ++ [call]) := by
  cases hc : call.attaches? with
  | none =>
    rw [fitsLatest_concat_of_none hc]
    exact (effect_perform call).fitsLatest respectsManifest_declaresVerdicts hc hd hs hu h
  | some i =>
    cases call with
    | addPackage j =>
      obtain ⟨hn, rfl⟩ : j.token.isNil = false ∧ j = i := by simpa [Call.attaches?] using hc
      exact (fitsLatest_addPackage_iff hn h).mpr (declaresVerdicts_attachedRecord (hw _))
    | migratePackage old j =>
      refine h.migratePackage old (j.declaresVerdicts_blank _ _ _) fun r m hm => ?_
      exact declaresVerdicts_carried hm r
    | _ => cases hc

section Answers

variable {name : String} {r : Record} {m : Manifest} (ha : s.authorize .querent = .ok ())
  (hr : s.stores.attached.get? name = some r) (hm : s.host.manifest? name = some m)

include ha hr hm

theorem result_verificationSet :
    (s.perform (.verificationSet name)).result = .verificationSet
      (if m.autoVerifyDomains.isEmpty = true then none
        else some ⟨r.token, name, r.verdicts.cover m.autoVerifyDomains⟩) := by
  simp only [perform, verificationSet, ha, verificationSet?, hr, hm, Reply.map]
  split <;> rfl

/-- The verification set of a package that has verdicts on its auto-verify domains alone. -/
theorem result_verificationSet_of_declared (hu : s.UpToDate calls)
    (h : s.FitsLatest Installation.DeclaresVerdicts calls) :
    ((s.perform (.verificationSet name)).result = .verificationSet none ↔
      m.autoVerifyDomains.isEmpty = true) ∧
    (m.autoVerifyDomains.isEmpty = false → ∃ v : VerificationSet,
      (s.perform (.verificationSet name)).result = .verificationSet (some v) ∧
      v.token = r.token ∧ v.name = name ∧
      ∀ d : String, v.verdicts[d]? =
        if d ∈ m.autoVerifyDomains then some (r.verdicts.get d) else none) := by
  have hin : ∀ d ∈ r.verdicts, d ∈ m.autoVerifyDomains := by
    obtain ⟨token, hb⟩ := Roster.get?_eq_some_iff.mp hr
    obtain ⟨i, hi, him⟩ := hu.exists_latest (Roster.contains_iff.mpr ⟨token, r, hb⟩) hm
    intro d hd
    rw [← Installation.autoVerifyDomains_eq him]
    exact h.of_get? hr hi d hd
  rw [result_verificationSet ha hr hm]
  refine ⟨by simp, fun he => ⟨_, by rw [if_neg (by simp [he])], rfl, rfl, fun d => ?_⟩⟩
  rw [Verdicts.getElem?_cover, Verdicts.get]
  cases hd : r.verdicts[d]? with
  | none => rfl
  | some v =>
    have hmem : d ∈ r.verdicts := by
      rw [Std.ExtTreeMap.mem_iff_isSome_getElem?, hd]
      rfl
    simp [hin d hmem]

end Answers

/-- In a row of calls that brings no document, with the manifests at the host those with which the
packages were attached last, every attached package has verdicts on its auto-verify domains alone.
So every verification set has exactly these domains, each with its verdict if it has one. -/
theorem verification_sets_follow_manifest (platform : Platform) (policy : Policy)
    (calls : List Call) (hd : ∀ call ∈ calls, call.bringsDocument = false)
    (hi : (create platform policy).Informed calls) :
    (∀ earlier later, calls = earlier ++ later →
      ((create platform policy).after earlier).FitsLatest Installation.DeclaresVerdicts earlier) ∧
    ∀ (earlier later : List Call) (name : String) (r : Record) (m : Manifest),
      calls = earlier ++ .verificationSet name :: later →
      let s := (create platform policy).after earlier
      s.authorize .querent = .ok () → s.stores.attached.get? name = some r →
      s.host.manifest? name = some m →
      ((s.perform (.verificationSet name)).result = .verificationSet none ↔
        m.autoVerifyDomains.isEmpty = true) ∧
      (m.autoVerifyDomains.isEmpty = false → ∃ v : VerificationSet,
        (s.perform (.verificationSet name)).result = .verificationSet (some v) ∧
        v.token = r.token ∧ v.name = name ∧
        ∀ d : String, v.verdicts[d]? =
          if d ∈ m.autoVerifyDomains then some (r.verdicts.get d) else none) := by
  have hfits := forall_fitsLatest platform policy calls (P := Installation.DeclaresVerdicts)
    fun earlier call later he h => by
      have hd' : ∀ call ∈ earlier, call.bringsDocument = false := fun call hc =>
        hd call (he ▸ List.mem_append_left _ hc)
      exact h.declaresVerdicts (sound_after (sound_create platform policy) earlier)
        (unawaited_after platform policy hd') (hd call (by simp [he])) (hi earlier call later he)
  refine ⟨hfits, ?_⟩
  intro earlier later name r m he s ha hr hm
  exact result_verificationSet_of_declared ha hr hm (hi earlier _ later he rfl)
    (hfits earlier _ he)

/-- An upgrade that drops a domain and adds two, of which the verifier reports on one. -/
theorem verification_sets_follow_manifest_sample :
    let m : Manifest := { package := "app", filters := [.web true ["b.org", "c.org"]] }
    let upgrade : Installation := { name := "app", token? := some ⟨2⟩, manifest? := some m }
    let earlier : List Call := [.install .sample, .addPackage .sample,
      .migratePackage .sample upgrade, .install upgrade,
      .setVerdict ⟨2⟩ (.ofList ["b.org"]) .success]
    let s := (create .default .openToAll).after earlier
    (create .default .openToAll).Informed (earlier ++ [.verificationSet "app"]) ∧
    s.FitsLatest Installation.DeclaresVerdicts earlier ∧
    ∃ v : VerificationSet,
      (s.perform (.verificationSet "app")).result = .verificationSet (some v) ∧
      v.verdicts["a.org"]? = none ∧ v.verdicts["b.org"]? = some .success ∧
      v.verdicts["c.org"]? = some .noResponse := by
  intro m upgrade earlier s
  have hi : (create .default .openToAll).Informed (earlier ++ [.verificationSet "app"]) := by
    decide +kernel
  have ha : s.authorize .querent = .ok () := authorize_eq_ok_iff.mpr (by decide +kernel)
  have hs : (s.stores.attached.get? "app").map (fun r => (r.verdicts["b.org"]?,
      r.verdicts["c.org"]?)) = some (some .success, none) := by decide +kernel
  obtain ⟨r, hr, he⟩ := Option.map_eq_some_iff.mp hs
  obtain ⟨hb, hc⟩ := Prod.mk.inj he
  obtain ⟨hfits, hsets⟩ := verification_sets_follow_manifest .default .openToAll
    (earlier ++ [.verificationSet "app"]) (by simp [earlier, Call.bringsDocument]) hi
  obtain ⟨v, hv, -, -, hd⟩ := (hsets earlier [] "app" r m rfl ha hr (by decide +kernel)).2
    (by decide +kernel)
  refine ⟨hi, hfits earlier _ rfl, v, hv, ?_, ?_, ?_⟩
  · rw [hd, if_neg (by decide +kernel)]
  · rw [hd, if_pos (by decide +kernel), Verdicts.get, hb]
    rfl
  · rw [hd, if_pos (by decide +kernel), Verdicts.get, hc]
    rfl

/-- What is passed without a token is ignored. The manifest that was passed last, which is also the
one at the host, lacks a domain of the verification set. -/
theorem ignored_addition_lacks_verdicts :
    let m : Manifest := { package := "app", filters := [.web true ["b.org"]] }
    let passed : Installation := { name := "app", manifest? := some m }
    let earlier : List Call := [.addPackage .sample, .install passed, .addPackage passed]
    let s := (create .default .openToAll).after earlier
    (earlier.filterMap Call.arrival?).getLast? = some passed ∧
    (∀ call ∈ earlier ++ [.verificationSet "app"], call.bringsDocument = false) ∧
    s.stores.attached.byName.keys = ["app"] ∧ s.host.manifest? "app" = some m ∧
    ∃ (r : Record) (v : VerificationSet), s.stores.attached.get? "app" = some r ∧
      r.verdicts["a.org"]? = some .migrated ∧ "a.org" ∉ m.autoVerifyDomains ∧
      (s.perform (.verificationSet "app")).result = .verificationSet (some v) ∧
      v.verdicts["a.org"]? = some .migrated := by
  intro m passed earlier s
  have hs : (s.stores.attached.get? "app").map (·.verdicts["a.org"]?) = some (some .migrated) := by
    decide +kernel
  have hm : s.host.manifest? "app" = some m := by decide +kernel
  obtain ⟨r, hr, hv⟩ := Option.map_eq_some_iff.mp hs
  refine ⟨rfl, by simp [earlier, Call.bringsDocument], by decide +kernel, hm, r, ?_⟩
  rw [result_verificationSet rfl hr hm, if_neg (by decide +kernel)]
  exact ⟨_, hr, hv, by decide +kernel, rfl, by rw [Verdicts.getElem?_cover, hv]; rfl⟩

end Registry
end LinkTrust
