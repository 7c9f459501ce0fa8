import LinkTrust.Proofs.Registry.DeclaredVerdicts
import LinkTrust.Proofs.Registry.Finality
import LinkTrust.Proofs.Registry.Interleaving

/-! # Reports of verdicts

A report that is accepted gives its verdict to those of its domains about which the verifier could
still decide, and changes nothing else. So domains can as well be reported on part by part, and the
verification set shows what came of a report.
-/

namespace LinkTrust

namespace Record

variable {r : Record} {ds ds' : Domains} {v : Verdict} {d : String}

/-- The verifier may still decide about the domain: no verdict on it is recorded, or one that is not
final. -/
def Undecided (r : Record) (d : String) : Prop :=
  ∀ v : Verdict, r.verdicts[d]? = some v → ¬v.IsFinal

theorem isOpen_iff : r.isOpen d = true ↔ r.Undecided d := by
  unfold isOpen Verdicts.get Undecided
  cases r.verdicts[d]? with
  | none => simp [Verdict.isModifiable_iff, Verdict.code]
  | some v => simp [Verdict.isFinal_iff]

instance : Decidable (r.Undecided d) := decidable_of_iff _ isOpen_iff

/-- The record after a verdict is reported on some domains. -/
def report (r : Record) (ds : Domains) (v : Verdict) : Record :=
  r.assign (ds.filter r.isOpen) v.normalized

theorem getElem?_report : (r.report ds v).verdicts[d]? =
    if d ∈ ds ∧ r.Undecided d then some v.normalized else r.verdicts[d]? := by
  have hd : d ∈ ds.filter r.isOpen ↔ d ∈ ds ∧ r.Undecided d := by simp [← isOpen_iff]
  simp only [report, assign, Verdicts.getElem?_assign, hd]

/-- A final verdict decides about the domains on which it is reported. -/
theorem undecided_report :
    (r.report ds v).Undecided d ↔ r.Undecided d ∧ (d ∈ ds → ¬v.IsFinal) := by
  have hv : v.normalized.IsFinal ↔ v.IsFinal := by simp [Verdict.IsFinal]
  rw [Undecided, getElem?_report]
  split
  · rename_i h
    simp [h, hv]
  · rename_i h
    refine ⟨fun hu => ⟨hu, fun hd => absurd ⟨hd, hu⟩ h⟩, fun hu => hu.1⟩

/-- The verdict has been reported on some domains: it stands for those that were undecided, and all
else in the record is as before. -/
structure Reported (r : Record) (ds : Domains) (v : Verdict) (r' : Record) : Prop where
  name_eq : r'.name = r.name
  token_eq : r'.token = r.token
  autoVerify_eq : r'.autoVerify = r.autoVerify
  selections_eq : r'.selections = r.selections
  verdict_eq : ∀ d : String, r'.verdicts[d]? =
    if d ∈ ds ∧ r.Undecided d then some v.normalized else r.verdicts[d]?

theorem reported_report : r.Reported ds v (r.report ds v) :=
  ⟨rfl, rfl, rfl, rfl, fun _ => getElem?_report⟩

/-- The undecided ones among some domains. -/
theorem size_filter_isOpen :
    (ds.filter r.isOpen).size = (ds.toList.filter fun d => r.Undecided d).length := by
  rw [← Std.ExtTreeSet.length_toList, Std.ExtTreeSet.toList_filter]
  simp only [← isOpen_iff, Bool.decide_eq_true]

/-- Domains without a common element can be reported on one after the other. -/
theorem report_report (h : ∀ d ∈ ds, d ∉ ds') :
    (r.report ds v).report ds' v = r.report (ds ∪ ds') v := by
  have hv : ((r.report ds v).report ds' v).verdicts = (r.report (ds ∪ ds') v).verdicts := by
    apply Std.ExtTreeMap.ext_getElem?
    intro d
    by_cases hd : d ∈ ds
    · simp [getElem?_report, hd, h d hd]
    · have hu : (r.report ds v).Undecided d ↔ r.Undecided d := by simp [undecided_report, hd]
      simp [getElem?_report, hd, hu]
  exact congrArg (fun m => { r with verdicts := m }) hv

theorem filter_isOpen_report (h : ∀ d ∈ ds, d ∉ ds') :
    ds'.filter (r.report ds v).isOpen = ds'.filter r.isOpen := by
  apply Std.ExtTreeSet.ext_mem
  intro d
  have ho : d ∈ ds' → ((r.report ds v).isOpen d = true ↔ r.isOpen d = true) := by
    intro hd
    rw [isOpen_iff, isOpen_iff, undecided_report]
    exact and_iff_left fun hd' => absurd hd (h d hd')
  simpa using ho

end Record

namespace Domains

variable {ds ds' : Domains}

theorem isEmpty_eq_false_of_subset (h : ds.subset ds' = true) (hds : ds.isEmpty = false) :
    ds'.isEmpty = false := by
  rw [Bool.eq_false_iff, ne_eq, Std.ExtTreeSet.isEmpty_iff] at hds ⊢
  rintro rfl
  refine hds (Std.ExtTreeSet.ext_mem fun d => ⟨subset_iff.mp h d, fun hd => ?_⟩)
  simp at hd

theorem size_filter_union (h : ∀ d ∈ ds, d ∉ ds') (p : String → Bool) :
    ((ds ∪ ds').filter p).size = (ds.filter p).size + (ds'.filter p).size := by
  have hu : (ds ∪ ds').filter p = ds.filter p ∪ ds'.filter p := by
    apply Std.ExtTreeSet.ext_mem
    intro d
    simp [or_and_right]
  rw [hu, Std.ExtTreeSet.size_union_of_not_mem]
  intro d hd hd'
  exact h d (Std.ExtTreeSet.mem_of_mem_filter hd) (Std.ExtTreeSet.mem_of_mem_filter hd')

end Domains

namespace Registry

variable {s : Registry} {token : Token} {ds ds' : Domains} {v : Verdict} {r : Record}
  {name : String} {k : Nat}

section Revise

variable {f g : Record → Record} {writes : Nat} {kind : DomainKind}

theorem revise_congr (h : ∀ r, s.stores.attached.get? name = some r → f r = g r) :
    s.revise name f writes = s.revise name g writes := by
  have hb : (s.stores.attached.modify name f).byName =
      (s.stores.attached.modify name g).byName := by
    apply Std.ExtTreeMap.ext_getElem?
    intro n
    rw [Roster.byName_modify, Roster.byName_modify]
    split
    · rename_i hn
      subst hn
      cases hr : s.stores.attached.byName[n]? with
      | none => rfl
      | some p =>
        have he := h p.2 (Roster.get?_eq_some_iff.mpr ⟨p.1, hr⟩)
        exact congrArg (fun r => some (p.1, r)) he
    · rfl
  have ha : s.stores.attached.modify name f = s.stores.attached.modify name g :=
    congrArg (Roster.mk · s.stores.attached.nameOf) hb
  rw [revise, ha, revise]

theorem byName_revise {n : String} : (s.revise name f writes).stores.attached.byName[n]? =
    if n = name then s.stores.attached.byName[n]?.map (Prod.map id f)
    else s.stores.attached.byName[n]? :=
  Roster.byName_modify

theorem byName_revise_self {t : Token} (h : s.stores.attached.byName[name]? = some (t, r)) :
    (s.revise name f writes).stores.attached.byName[name]? = some (t, f r) := by
  rw [byName_revise, if_pos rfl, h]
  rfl

theorem getByToken?_revise :
    (s.revise name f writes).stores.attached.getByToken? token =
      (s.stores.attached.getByToken? token).map
        (if s.stores.attached.nameOf[token]? = some name then f else id) := by
  have ht : (s.revise name f writes).stores.attached.nameOf = s.stores.attached.nameOf := rfl
  rw [Roster.getByToken?, Roster.getByToken?, ht]
  cases s.stores.attached.nameOf[token]? with
  | none => rfl
  | some n =>
    simp only [Option.bind_some, Roster.get?, revise, Stores.withAttached, Roster.byName_modify,
      Option.some.injEq]
    cases s.stores.attached.byName[n]? with
    | none => simp
    | some p => split <;> rfl

/-- A package is resolved as before, whatever has changed in its record beside the name. -/
theorem resolve_revise (hf : ∀ r, (f r).name = r.name) :
    (s.revise name f writes).resolve token ds kind = (s.resolve token ds kind).map
      (if s.stores.attached.nameOf[token]? = some name then f else id) := by
  simp only [resolve, Host.bind_installation?]
  rw [getByToken?_revise]
  generalize hg : (if s.stores.attached.nameOf[token]? = some name then f else id) = g
  have hn (r : Record) : (g r).name = r.name := by
    subst hg
    split
    · exact hf r
    · rfl
  have hm (n : String) : (s.revise name f writes).host.manifest? n = s.host.manifest? n := rfl
  split
  · rfl
  · cases s.stores.attached.getByToken? token with
    | none => rfl
    | some r =>
      simp only [Option.map_some, hn, hm]
      cases s.host.manifest? r.name with
      | none => rfl
      | some m =>
        simp only
        split
        · rfl
        · split <;> rfl

theorem reportable_revise (hf : ∀ r, (f r).name = r.name) :
    (s.revise name f writes).reportable token ds v = (s.reportable token ds v).map
      (if s.stores.attached.nameOf[token]? = some name then f else id) := by
  have ha : (s.revise name f writes).authorize .verifier = s.authorize .verifier := rfl
  unfold reportable
  rw [ha, resolve_revise hf]
  cases s.authorize .verifier with
  | error => rfl
  | ok =>
    cases checkSettable v with
    | error => rfl
    | ok => rfl

theorem revise_revise {more : Nat} : (s.revise name f writes).revise name g more =
    s.revise name (fun r => g (f r)) (writes + more) := by
  have hb : ((s.stores.attached.modify name f).modify name g).byName =
      (s.stores.attached.modify name fun r => g (f r)).byName := by
    apply Std.ExtTreeMap.ext_getElem?
    intro n
    simp only [Roster.byName_modify]
    split
    · cases s.stores.attached.byName[n]? <;> rfl
    · rfl
  have ha : (s.stores.attached.modify name f).modify name g =
      s.stores.attached.modify name fun r => g (f r) :=
    congrArg (Roster.mk · s.stores.attached.nameOf) hb
  simp only [revise, Stores.withAttached, ha, Nat.add_assoc]

end Revise

section Calls

theorem nameOf_of_reportable (h : s.reportable token ds v = .ok r) :
    ∃ name : String, s.stores.attached.nameOf[token]? = some name ∧
      s.stores.attached.get? name = some r :=
  Roster.getByToken?_eq_some_iff.mp (resolve_eq_ok_iff.mp (reportable_eq_ok_iff.mp h).2.2).2.1

theorem byName_of_reportable (hs : s.stores.Sound) (h : s.reportable token ds v = .ok r)
    (ht : s.stores.attached.nameOf[token]? = some name) :
    s.stores.attached.byName[name]? = some (token, r) := by
  obtain ⟨n, hn, hr⟩ := nameOf_of_reportable h
  obtain rfl : n = name := Option.some.inj (hn.symm.trans ht)
  obtain ⟨token', hb⟩ := Roster.get?_eq_some_iff.mp hr
  obtain rfl : token = token' := (hs.coherent.nameOf_eq_iff hb).mp ht
  exact hb

/-- An accepted report changes the record of its package, and asks once for a write. -/
theorem registry_setVerdict (h : s.reportable token ds v = .ok r)
    (ht : s.stores.attached.nameOf[token]? = some name) :
    (s.perform (.setVerdict token ds v)).registry = s.revise name (·.report ds v) 1 := by
  simp only [perform, setVerdict, h, registry_map]
  rw [revise_modifyByToken ht]
  refine revise_congr fun r' hr => ?_
  obtain ⟨n, hn, hr'⟩ := nameOf_of_reportable h
  obtain rfl : n = name := Option.some.inj (hn.symm.trans ht)
  obtain rfl : r = r' := Option.some.inj (hr'.symm.trans hr)
  rfl

theorem reportable_union_eq_ok_iff (hds : ds.isEmpty = false) (hds' : ds'.isEmpty = false) :
    s.reportable token (ds ∪ ds') v = .ok r ↔
      s.reportable token ds v = .ok r ∧ s.reportable token ds' v = .ok r := by
  have hu : (ds ∪ ds').isEmpty = false := by
    rw [Std.ExtTreeSet.isEmpty_union, hds, hds']
    rfl
  simp only [reportable_eq_ok_iff, resolve_eq_ok_iff, hds, hds', hu, Domains.subset_iff,
    Std.ExtTreeSet.mem_union_iff, or_imp, forall_and, true_and]
  constructor
  · rintro ⟨ha, hv, hn, hr, m, hm, hs, hs'⟩
    exact ⟨⟨ha, hv, hn, hr, m, hm, hs⟩, ha, hv, hn, hr, m, hm, hs'⟩
  · rintro ⟨⟨ha, hv, hn, hr, m, hm, hs⟩, -, -, -, -, m', hm', hs'⟩
    obtain rfl : m = m' := Option.some.inj (hm.symm.trans hm')
    exact ⟨ha, hv, hn, hr, m, hm, hs, hs'⟩

end Calls

section Parts

variable (hds : ds.isEmpty = false) (hds' : ds'.isEmpty = false) (hd : ∀ d ∈ ds, d ∉ ds')

/-- A second report on a package is accepted or rejected as it would have been before the first. -/
theorem reportable_after_report (h : s.reportable token ds v = .ok r)
    (ht : s.stores.attached.nameOf[token]? = some name) :
    (s.perform (.setVerdict token ds v)).registry.reportable token ds' v =
      (s.reportable token ds' v).map (·.report ds v) := by
  rw [registry_setVerdict h ht, reportable_revise (f := (·.report ds v)) fun _ => rfl, if_pos ht]

include hds hds' hd

theorem result_setVerdict_union_iff :
    (s.perform (.setVerdict token (ds ∪ ds') v)).result = .count k ↔
      ∃ a b : Nat, (s.perform (.setVerdict token ds v)).result = .count a ∧
        ((s.perform (.setVerdict token ds v)).registry.perform (.setVerdict token ds' v)).result =
          .count b ∧
        a + b = k := by
  constructor
  · intro h
    obtain ⟨r, hr, hk⟩ := result_setVerdict_eq_count_iff.mp h
    obtain ⟨hr₁, hr₂⟩ := (reportable_union_eq_ok_iff hds hds').mp hr
    obtain ⟨name, ht, -⟩ := nameOf_of_reportable hr₁
    refine ⟨_, _, result_setVerdict_eq_count_iff.mpr ⟨r, hr₁, rfl⟩,
      result_setVerdict_eq_count_iff.mpr ⟨r.report ds v, ?_, rfl⟩, ?_⟩
    · rw [reportable_after_report hr₁ ht, hr₂]
      rfl
    · rw [Record.filter_isOpen_report hd, ← Domains.size_filter_union hd, hk]
  · rintro ⟨a, b, ha, hb, rfl⟩
    obtain ⟨r, hr₁, rfl⟩ := result_setVerdict_eq_count_iff.mp ha
    obtain ⟨r', hr', rfl⟩ := result_setVerdict_eq_count_iff.mp hb
    obtain ⟨name, ht, hn⟩ := nameOf_of_reportable hr₁
    rw [reportable_after_report hr₁ ht] at hr'
    cases hr₂ : s.reportable token ds' v with
    | error => rw [hr₂] at hr'; cases hr'
    | ok r₂ =>
      rw [hr₂] at hr'
      cases hr'
      -- Both reports are on the one package that has the token.
      obtain ⟨n, ht₂, hn₂⟩ := nameOf_of_reportable hr₂
      obtain rfl : n = name := Option.some.inj (ht₂.symm.trans ht)
      obtain rfl : r₂ = r := Option.some.inj (hn₂.symm.trans hn)
      refine result_setVerdict_eq_count_iff.mpr
        ⟨r₂, (reportable_union_eq_ok_iff hds hds').mpr ⟨hr₁, hr₂⟩, ?_⟩
      rw [Record.filter_isOpen_report hd, Domains.size_filter_union hd]

/-- Reporting part by part differs from one report in that a write is asked for twice. -/
theorem after_setVerdict_parts
    (h : (s.perform (.setVerdict token (ds ∪ ds') v)).result = .count k) :
    s.after [.setVerdict token ds v, .setVerdict token ds' v] =
      (s.perform (.setVerdict token (ds ∪ ds') v)).registry.scheduleWrite := by
  obtain ⟨r, hr, -⟩ := result_setVerdict_eq_count_iff.mp h
  obtain ⟨hr₁, hr₂⟩ := (reportable_union_eq_ok_iff hds hds').mp hr
  obtain ⟨name, ht, -⟩ := nameOf_of_reportable hr
  have hr' : (s.revise name (·.report ds v) 1).reportable token ds' v = .ok (r.report ds v) := by
    rw [← registry_setVerdict hr₁ ht, reportable_after_report hr₁ ht, hr₂]
    rfl
  rw [after_cons, after_cons, after_nil, registry_setVerdict hr₁ ht, registry_setVerdict hr' ht,
    registry_setVerdict hr ht, revise_revise]
  simp only [Record.report_report hd]
  rfl

end Parts

/-- What a report shows: in the verification set of the package each domain has the verdict that was
reported, or else the final one that it had. -/
theorem verificationSet_after_report (hs : s.stores.Sound) (h : s.reportable token ds v = .ok r)
    (ht : s.stores.attached.nameOf[token]? = some name) {caller : Caller}
    (ha : ((s.revise name (·.report ds v) 1).actingFor caller).authorize .querent = .ok ()) :
    ∃ x : VerificationSet, (((s.revise name (·.report ds v) 1).actingFor caller).perform
        (.verificationSet name)).result = .verificationSet (some x) ∧
      x.token = token ∧ x.name = name ∧
      ∀ d ∈ ds, x.verdicts[d]? = if r.Undecided d then some v.normalized else r.verdicts[d]? := by
  obtain ⟨-, -, -, -, m, hm, he, hsub⟩ :=
    (reportable_eq_ok_iff.trans (and_congr_right' (and_congr_right' resolve_eq_ok_iff))).mp h
  have hb := byName_of_reportable hs h ht
  have hstands := hs.each.attached hb
  rw [hstands.name_eq] at hm
  have hne : m.autoVerifyDomains.isEmpty = false := Domains.isEmpty_eq_false_of_subset hsub he
  have hr' : (s.revise name (·.report ds v) 1).stores.attached.get? name =
      some (r.report ds v) :=
    Roster.get?_eq_some_iff.mpr ⟨token, byName_revise_self hb⟩
  rw [result_verificationSet ha hr' hm]
  refine ⟨_, by rw [if_neg (by simp [hne])], hstands.token_eq, rfl, fun d hd => ?_⟩
  rw [Verdicts.getElem?_cover, Record.getElem?_report]
  by_cases hu : r.Undecided d
  · simp [hd, hu]
  · simp only [hd, hu, and_false, if_false]
    obtain ⟨w, hw, -⟩ : ∃ w, r.verdicts[d]? = some w ∧ w.IsFinal := by
      simpa [Record.Undecided] using hu
    rw [hw, Option.some_or]

/-- An accepted report gives its verdict to those of its domains that were undecided, and its answer
counts them; nothing else changes for the package and for all others, and the verification set shows
it. A report on domains of two kinds comes to the same as one on each, and its count is their
sum. -/
theorem reports_do_as_asked (platform : Platform) (policy : Policy) (calls : List Call)
    (token : Token) (ds : Domains) (v : Verdict) (k : Nat) (name : String)
    (hk : (((create platform policy).after calls).perform (.setVerdict token ds v)).result =
      .count k)
    (hn : ((create platform policy).after calls).stores.attached.nameOf[token]? = some name) :
    let s := (create platform policy).after calls
    let t := (s.perform (.setVerdict token ds v)).registry
    (∃ r r' : Record, s.stores.attached.byName[name]? = some (token, r) ∧
      t.stores.attached.byName[name]? = some (token, r') ∧ r.Reported ds v r' ∧
      k = (ds.toList.filter fun d => r.Undecided d).length ∧
      ∀ caller : Caller, (t.actingFor caller).authorize .querent = .ok () →
        ∃ x : VerificationSet, ((t.actingFor caller).perform (.verificationSet name)).result =
            .verificationSet (some x) ∧
          x.token = token ∧ x.name = name ∧
          ∀ d ∈ ds, x.verdicts[d]? =
            if r.Undecided d then some v.normalized else r.verdicts[d]?) ∧
    AgreeOn (· ≠ name) t s ∧
    ∀ ds₁ ds₂ : Domains, ds₁.isEmpty = false → ds₂.isEmpty = false → (∀ d ∈ ds₁, d ∉ ds₂) →
      ∀ j : Nat,
        ((s.perform (.setVerdict token (ds₁ ∪ ds₂) v)).result = .count j ↔
          ∃ a b : Nat, (s.perform (.setVerdict token ds₁ v)).result = .count a ∧
            ((s.perform (.setVerdict token ds₁ v)).registry.perform
              (.setVerdict token ds₂ v)).result = .count b ∧
            a + b = j) ∧
        ((s.perform (.setVerdict token (ds₁ ∪ ds₂) v)).result = .count j →
          s.after [.setVerdict token ds₁ v, .setVerdict token ds₂ v] =
            (s.perform (.setVerdict token (ds₁ ∪ ds₂) v)).registry.scheduleWrite) := by
  intro s t
  have hs : s.stores.Sound := sound_after (sound_create platform policy) calls
  obtain ⟨r, hr, hcount⟩ := result_setVerdict_eq_count_iff.mp hk
  have ht : t = s.revise name (·.report ds v) 1 := registry_setVerdict hr hn
  refine ⟨?_, ?_, fun ds₁ ds₂ h₁ h₂ hd j =>
    ⟨result_setVerdict_union_iff h₁ h₂ hd, after_setVerdict_parts h₁ h₂ hd⟩⟩
  · have hb : s.stores.attached.byName[name]? = some (token, r) := byName_of_reportable hs hr hn
    refine ⟨r, r.report ds v, hb, ht ▸ byName_revise_self hb, Record.reported_report, ?_,
      fun caller ha => ?_⟩
    · rw [← hcount, Record.size_filter_isOpen]
    · rw [ht] at ha ⊢
      exact verificationSet_after_report hs hr hn ha
  · have hagree :
        AgreeOn (· ≠ name) ((s.actingFor s.host.caller).revise name (·.report ds v) 1) s :=
      (AgreeOn.refl s).revise_left fun h => h rfl
    exact ht ▸ hagree

/-- A package with a domain that has been verified, one that has not, and one that nobody has looked
at. -/
def partlyVerified : Registry :=
  let i : Installation :=
    { name := "app", token? := some ⟨1⟩
      manifest? := some
        { package := "app", filters := [.web true ["a.org", "b.org", "c.org"]] } }
  (create .default .openToAll).after
    [.install i, .addPackage i, .setVerdict ⟨1⟩ (.ofList ["a.org"]) .success,
      .setVerdict ⟨1⟩ (.ofList ["b.org"]) (.verifierDefined 1024)]

/-- A report in an unusual form, which counts as the usual one with the same code. -/
theorem reports_do_as_asked_sample :
    let ds : Domains := .ofList ["a.org", "b.org", "c.org"]
    let t := (partlyVerified.perform (.setVerdict ⟨1⟩ ds (.reserved 1025))).registry
    (partlyVerified.perform (.setVerdict ⟨1⟩ ds (.reserved 1025))).result = .count 2 ∧
    partlyVerified.stores.attached.nameOf[(⟨1⟩ : Token)]? = some "app" ∧
    ∃ r' : Record, t.stores.attached.byName["app"]? = some (⟨1⟩, r') ∧
      r'.verdicts["a.org"]? = some .success ∧
      r'.verdicts["b.org"]? = some (.verifierDefined 1025) ∧
      r'.verdicts["c.org"]? = some (.verifierDefined 1025) := by
  intro ds t
  have hk : (partlyVerified.perform (.setVerdict ⟨1⟩ ds (.reserved 1025))).result = .count 2 := by
    decide +kernel
  have hn : partlyVerified.stores.attached.nameOf[(⟨1⟩ : Token)]? = some "app" := by
    decide +kernel
  have hv : (partlyVerified.stores.attached.byName["app"]?.map fun p =>
      (p.2.verdicts["a.org"]?, p.2.verdicts["b.org"]?, p.2.verdicts["c.org"]?)) =
        some (some .success, some (.verifierDefined 1024), none) := by decide +kernel
  obtain ⟨⟨r, r', hr, hr', hreported, -⟩, -⟩ :=
    reports_do_as_asked .default .openToAll _ ⟨1⟩ ds (.reserved 1025) 2 "app" hk hn
  have hr : partlyVerified.stores.attached.byName["app"]? = some (⟨1⟩, r) := hr
  simp only [hr, Option.map_some, Option.some.injEq, Prod.mk.injEq] at hv
  obtain ⟨ha, hb, hc⟩ := hv
  have hin : "a.org" ∈ ds ∧ "b.org" ∈ ds ∧ "c.org" ∈ ds := by decide +kernel
  have hnormal : (Verdict.reserved 1025).normalized = .verifierDefined 1025 := by decide
  refine ⟨hk, hn, r', hr', ?_, ?_, ?_⟩
  · simp [hreported.verdict_eq, Record.Undecided, ha, Verdict.IsFinal, Verdict.code]
  · simp [hreported.verdict_eq, Record.Undecided, hb, hin.2.1, hnormal, Verdict.IsFinal,
      Verdict.code]
  · simp [hreported.verdict_eq, Record.Undecided, hc, hin.2.2, hnormal]

end Registry
end LinkTrust
