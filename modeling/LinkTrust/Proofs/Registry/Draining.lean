import LinkTrust.Proofs.Registry.Addressing
import LinkTrust.Proofs.Registry.Resends

/-! # Answers to a request

When the verifier is asked once more about some packages and reports on all that each of them asks
to have verified, in any order, each report counts and nobody is asked about again. A report settles
its own package, and changes nothing of what decides whether another one needs an answer.
-/

namespace LinkTrust

namespace Agent

variable {a : Agent} {names : Domains} {uid : Uid}

@[simp] theorem isVerifier_send : (a.send names).isVerifier uid = a.isVerifier uid := by
  cases a <;> rfl

end Agent

namespace Registry

variable {s : Registry} {call : Call} {row : List Call} {name n : String} {names : List String}
  {token : Token} {r : Record} {m : Manifest}

/-- The call reports that all domains that the package asks to have verified are verified. -/
def SettledBy (s : Registry) (name : String) (call : Call) : Prop :=
  ∃ (token : Token) (m : Manifest), s.stores.attached.nameOf[token]? = some name ∧
    s.host.manifest? name = some m ∧ call = .setVerdict token m.autoVerifyDomains .success

theorem NeedsAnswer.exists_settledBy (hs : s.stores.Sound) (h : s.NeedsAnswer name) :
    ∃ call, s.SettledBy name call := by
  obtain ⟨token, r, m, hr, hm, -⟩ := h
  exact ⟨_, token, m, hs.coherent.nameOf_of_byName hr, hm, rfl⟩

/-- Who may report does not depend on what the agent has received. -/
theorem authorize_send {batch : Domains} :
    ({ s with agent := s.agent.send batch } : Registry).authorize .verifier =
      s.authorize .verifier := by
  have h : s.policy.allows (s.agent.send batch) s.host.caller .verifier =
      s.policy.allows s.agent s.host.caller .verifier := by
    simp only [Policy.allows, Agent.isVerifier_send]
  simp only [authorize, Policy.check, h]

section Revise

variable {f : Record → Record} {writes : Nat}

theorem flagged_revise (hf : ∀ r, (f r).autoVerify = r.autoVerify) :
    (s.revise name f writes).Flagged n ↔ s.Flagged n := by
  simp only [Flagged, byName_revise]
  split
  · simp [hf]
  · rfl

theorem needsAnswer_revise_of_ne (hn : n ≠ name) :
    (s.revise name f writes).NeedsAnswer n ↔ s.NeedsAnswer n := by
  simp only [NeedsAnswer, byName_revise, if_neg hn]
  rfl

theorem not_needsAnswer_revise_report
    (hr : s.stores.attached.byName[name]? = some (token, r)) (hm : s.host.manifest? name = some m) :
    ¬(s.revise name (·.report m.autoVerifyDomains .success) writes).NeedsAnswer name := by
  rintro ⟨_, _, _, hr', hm', d, hd, hu⟩
  rw [byName_revise_self hr] at hr'
  cases hr'
  obtain rfl := Option.some.inj (hm.symm.trans hm')
  exact (Record.undecided_report.mp hu).2 hd (.inl rfl)

end Revise

section Steps

variable (hs : s.stores.Sound) (ht : s.Tokened) (ha : s.authorize .verifier = .ok ())

include hs ht ha

/-- A report that settles a package counts, and afterwards the package needs no answer. -/
theorem SettledBy.perform (h : s.SettledBy name call) (hn : s.NeedsAnswer name) :
    (∃ k : Nat, 1 ≤ k ∧ (s.perform call).result = .count k) ∧
    ∃ f : Record → Record, (s.perform call).registry = s.revise name f 1 ∧
      (∀ r, (f r).autoVerify = r.autoVerify) ∧
      ∀ n, (s.revise name f 1).NeedsAnswer n ↔ s.NeedsAnswer n ∧ n ≠ name := by
  obtain ⟨token, r, m, hr, hm, d, hd, hu⟩ := hn
  obtain ⟨token', m', htoken, hm', rfl⟩ := h
  obtain rfl : token' = token := (hs.coherent.nameOf_eq_iff hr).mp htoken
  obtain rfl : m = m' := Option.some.inj (hm.symm.trans hm')
  have he : m.autoVerifyDomains.isEmpty = false :=
    Std.ExtTreeSet.isEmpty_eq_false_iff.mpr fun he => by simp [he] at hd
  have hreport : s.reportable token' m.autoVerifyDomains .success = .ok r :=
    reportable_of_declared hs hr (ht.attached hr) ha rfl hm he fun _ hd => hd
  refine ⟨⟨_, ?_, result_setVerdict_eq_count_iff.mpr ⟨r, hreport, rfl⟩⟩,
    (·.report m.autoVerifyDomains .success), registry_setVerdict hreport htoken,
    fun r => rfl, fun n => ?_⟩
  · rw [Record.size_filter_isOpen]
    exact List.length_pos_of_mem
      (List.mem_filter.mpr ⟨Std.ExtTreeSet.mem_toList.mpr hd, decide_eq_true hu⟩)
  · by_cases hne : n = name
    · subst hne
      exact iff_of_false (not_needsAnswer_revise_report hr hm) fun h => h.2 rfl
    · rw [needsAnswer_revise_of_ne hne]
      exact (and_iff_left hne).symm

/-- Each report of a row that settles some packages counts. Afterwards these need no answer, and the
others need one if they did before. -/
theorem settled_row (hnd : names.Nodup) (hneed : ∀ n ∈ names, s.NeedsAnswer n)
    (h : List.Forall₂ s.SettledBy names row) :
    (∀ a ∈ s.answers row, ∃ k : Nat, 1 ≤ k ∧ a = .count k) ∧
    (∀ n, (s.after row).NeedsAnswer n ↔ s.NeedsAnswer n ∧ n ∉ names) ∧
    ∀ n, (s.after row).Flagged n ↔ s.Flagged n := by
  induction names generalizing s row with
  | nil =>
    cases h
    simp
  | cons name names ih =>
    cases h with
    | @cons _ call _ row hc hrest
    rw [List.nodup_cons] at hnd
    rw [List.forall_mem_cons] at hneed
    obtain ⟨hcount, f, hx, hf, hneeds⟩ := hc.perform hs ht ha hneed.1
    have hs' : (s.perform call).registry.stores.Sound := (effect_perform call).sound hs
    have ht' : (s.perform call).registry.Tokened := by
      refine (tokened_perform_iff ht).mpr fun old new he => ?_
      obtain ⟨_, _, _, _, he'⟩ := hc
      cases he.symm.trans he'
    rw [answers_cons, after_cons]
    rw [hx] at hs' ht' ⊢
    obtain ⟨ih₁, ih₂, ih₃⟩ := ih hs' ht' ha hnd.2
      (fun n hn => (hneeds n).mpr ⟨hneed.2 n hn, fun he => hnd.1 (he ▸ hn)⟩) hrest
    refine ⟨List.forall_mem_cons.mpr ⟨hcount, ih₁⟩, fun n => ?_, fun n => ?_⟩
    · rw [ih₂, hneeds, List.mem_cons, not_or, and_assoc]
    · rw [ih₃, flagged_revise hf]

end Steps

/-- After every row of calls that leaves all packages with tokens and the caller with the right to
report, let the agent be asked once more, and each package of the request be settled, in any order,
by a report on all the domains that it asks to have verified. There is such a report for each of
them, every one of these reports counts, and then there is nothing left to ask. -/
theorem answers_drain_resend (platform : Platform) (policy : Policy) (calls : List Call)
    (batch : Domains) :
    let s := (create platform policy).after calls
    let t := (s.perform .resend).registry
    s.Tokened → s.authorize .verifier = .ok () → (s.perform .resend).result = .batch batch →
    (∀ name ∈ batch, ∃ call, t.SettledBy name call) ∧
    ∀ (names : List String) (row : List Call), names.Perm batch.toList →
      List.Forall₂ t.SettledBy names row →
      (∀ a ∈ t.answers row, ∃ k : Nat, 1 ≤ k ∧ a = .count k) ∧
      ((t.after row).perform .resend).result = .batch ∅ ∧
      ((t.after row).perform .resend).registry = t.after row := by
  intro s t htokened ha hbatch
  have hs : s.stores.Sound := sound_after (sound_create platform policy) calls
  obtain rfl : s.unanswered = batch := Answer.batch.inj (result_resend.symm.trans hbatch)
  -- Asking changes nothing but what the agent has received.
  obtain ⟨agent, ht, ha⟩ : ∃ agent, t = { s with agent } ∧
      ({ s with agent } : Registry).authorize .verifier = .ok () := by
    have ht : t = if s.unanswered.isEmpty then s else _ := registry_resend
    split at ht
    · exact ⟨s.agent, ht, ha⟩
    · exact ⟨_, ht, authorize_send.trans ha⟩
  have hmem (name : String) : name ∈ s.unanswered ↔ t.NeedsAnswer name ∧ t.Flagged name := by
    rw [ht]
    exact mem_unanswered_iff hs
  rw [ht] at hmem ⊢
  refine ⟨fun name hname => ((hmem name).mp hname).1.exists_settledBy hs,
    fun names row hnames hrow => ?_⟩
  have hin (name : String) : name ∈ names ↔ name ∈ s.unanswered :=
    hnames.mem_iff.trans Std.ExtTreeSet.mem_toList
  have hnd : names.Nodup := hnames.nodup_iff.mpr (Collections.nodup_toList _)
  obtain ⟨hcounts, hneeds, hflags⟩ := settled_row (s := { s with agent }) hs htokened ha hnd
    (fun name hname => ((hmem name).mp ((hin name).mp hname)).1) hrow
  refine ⟨hcounts, ?_⟩
  have hempty : (({ s with agent } : Registry).after row).unanswered = ∅ := by
    refine Std.ExtTreeSet.eq_empty_iff_forall_not_mem.mpr fun name hname => ?_
    have hx : (({ s with agent } : Registry).after row).stores.Sound :=
      sound_after (s := { s with agent }) hs row
    obtain ⟨hneed, hflag⟩ := (mem_unanswered_iff hx).mp hname
    obtain ⟨hneed, hout⟩ := (hneeds name).mp hneed
    exact hout ((hin name).mpr ((hmem name).mpr ⟨hneed, (hflags name).mp hflag⟩))
  rw [result_resend, registry_resend, hempty]
  exact ⟨rfl, rfl⟩

/-- Of two packages the one that was added last is settled first. -/
theorem answers_drain_resend_sample :
    let app : Manifest := { package := "app", filters := [.web true ["a.org"]] }
    let other : Manifest := { package := "other", filters := [.web true ["b.org"]] }
    let t := (twoPackages.perform .resend).registry
    let row : List Call := [.setVerdict ⟨2⟩ other.autoVerifyDomains .success,
      .setVerdict ⟨1⟩ app.autoVerifyDomains .success]
    let batch : Domains := .ofList ["app", "other"]
    twoPackages.Tokened ∧ twoPackages.authorize .verifier = .ok () ∧
    (twoPackages.perform .resend).result = .batch batch ∧
    ["other", "app"].Perm batch.toList ∧ List.Forall₂ t.SettledBy ["other", "app"] row ∧
    (∀ a ∈ t.answers row, ∃ k : Nat, 1 ≤ k ∧ a = .count k) ∧
    ((t.after row).perform .resend).result = .batch ∅ := by
  intro app other t row batch
  have htokened : twoPackages.Tokened := by
    have hall : ∀ p ∈ twoPackages.stores.attached.byName.toList, p.2.1.isNil = false := by
      decide +kernel
    exact ⟨fun hr => hall _ (Std.ExtTreeMap.mem_toList_iff_getElem?_eq_some.mpr hr),
      fun _ => trivial, fun _ => trivial⟩
  have ha : twoPackages.authorize .verifier = .ok () := by decide +kernel
  have hbatch : (twoPackages.perform .resend).result = .batch batch := by decide +kernel
  have hnames : ["other", "app"].Perm batch.toList := by decide +kernel
  have hrow : List.Forall₂ t.SettledBy ["other", "app"] row :=
    .cons ⟨⟨2⟩, other, by decide +kernel, by decide +kernel, rfl⟩
      (.cons ⟨⟨1⟩, app, by decide +kernel, by decide +kernel, rfl⟩ .nil)
  obtain ⟨-, hdrained⟩ := answers_drain_resend .default .default _ batch htokened ha hbatch
  obtain ⟨hcounts, hempty, -⟩ := hdrained _ _ hnames hrow
  exact ⟨htokened, ha, hbatch, hnames, hrow, hcounts, hempty⟩

end Registry
end LinkTrust
