import LinkTrust.Proofs.Registry.Reports

/-! # Reports in any order

A final verdict prevails over the verifier's own ones, whether it is reported before or after them.
So the order of reports matters only if two of them give different verdicts of the verifier's own to
one domain, and a row of reports without such a conflict ends the same in every order.
-/

namespace LinkTrust

namespace Verdict

variable {v w : Verdict}

instance : Decidable v.IsFinal := inferInstanceAs (Decidable (_ ∨ _))

/-- Two different verdicts of the verifier's own. -/
def Clashes (v w : Verdict) : Prop :=
  firstVerifierDefined ≤ v.code ∧ firstVerifierDefined ≤ w.code ∧ v.code ≠ w.code

instance : Decidable (v.Clashes w) := inferInstanceAs (Decidable (_ ∧ _ ∧ _))

theorem settable_cases (h : v.isSettable = true) :
    (v.IsFinal ∧ v.code = 1) ∨ (¬v.IsFinal ∧ firstVerifierDefined ≤ v.code) := by
  rcases isSettable_iff.mp h with hc | hc
  · exact .inl ⟨.inl hc, hc⟩
  · refine .inr ⟨?_, hc⟩
    rintro (he | he | he | he) <;> rw [he] at hc <;> exact absurd hc (by decide)

/-- Two reports on one domain leave the same verdict in both orders, unless they clash. -/
theorem normalized_ite_comm (hv : v.isSettable = true) (hw : w.isSettable = true) :
    (if v.IsFinal then v.normalized else w.normalized) =
      (if w.IsFinal then w.normalized else v.normalized) ↔ ¬v.Clashes w := by
  have hsmall : ¬firstVerifierDefined ≤ 1 := by decide
  rcases settable_cases hv with ⟨hf, hc⟩ | ⟨hf, hc⟩ <;>
    rcases settable_cases hw with ⟨hf', hc'⟩ | ⟨hf', hc'⟩
  · simp [hf, hf', Clashes, normalized_eq_iff, hc, hc']
  · simp [hf, hf', Clashes, hc, hsmall]
  · simp [hf, hf', Clashes, hc', hsmall]
  · simp [hf, hf', Clashes, normalized_eq_iff, hc, hc', eq_comm]

end Verdict

namespace Record

variable {r : Record} {ds ds' : Domains} {v w : Verdict}

theorem getElem?_report_report {d : String} :
    ((r.report ds v).report ds' w).verdicts[d]? =
      if r.Undecided d then
        if d ∈ ds then
          if d ∈ ds' then some (if v.IsFinal then v.normalized else w.normalized)
          else some v.normalized
        else if d ∈ ds' then some w.normalized else r.verdicts[d]?
      else r.verdicts[d]? := by
  have hu : (r.report ds v).Undecided d ↔ r.Undecided d ∧ (d ∈ ds → ¬v.IsFinal) := undecided_report
  by_cases hr : r.Undecided d <;> by_cases hd : d ∈ ds <;> by_cases hd' : d ∈ ds' <;>
    by_cases hf : v.IsFinal <;> simp [getElem?_report, hu, hr, hd, hd', hf]

/-- Two reports on a package leave the same record in both orders exactly if no domain that was
undecided gets clashing verdicts. -/
theorem report_comm_iff (hv : v.isSettable = true) (hw : w.isSettable = true) :
    (r.report ds v).report ds' w = (r.report ds' w).report ds v ↔
      ¬(v.Clashes w ∧ ∃ d ∈ ds, d ∈ ds' ∧ r.Undecided d) := by
  constructor
  · rintro h ⟨hc, d, hd, hd', hu⟩
    have he := congrArg (fun r : Record => r.verdicts[d]?) h
    simp only [getElem?_report_report, hu, hd, hd', if_true, Option.some.injEq] at he
    exact (Verdict.normalized_ite_comm hv hw).mp he hc
  · intro h
    have hm : ((r.report ds v).report ds' w).verdicts =
        ((r.report ds' w).report ds v).verdicts := by
      apply Std.ExtTreeMap.ext_getElem?
      intro d
      rw [getElem?_report_report, getElem?_report_report]
      by_cases hu : r.Undecided d
      · by_cases hd : d ∈ ds <;> by_cases hd' : d ∈ ds'
        · have hc : ¬v.Clashes w := fun hc => h ⟨hc, d, hd, hd', hu⟩
          simp only [hu, hd, hd', if_true, (Verdict.normalized_ite_comm hv hw).mpr hc]
        all_goals simp [hd, hd']
      · simp [hu]
    exact congrArg (fun m => { r with verdicts := m }) hm

end Record

/-- A verdict that a caller reports on some domains of the package with a token. -/
structure Report where
  caller : Caller
  token : Token
  domains : Domains
  verdict : Verdict

namespace Report

def turn (x : Report) : Turn := ⟨x.caller, .setVerdict x.token x.domains x.verdict⟩

/-- The record of the package after the report. -/
def applyTo (x : Report) (r : Record) : Record := r.report x.domains x.verdict

end Report

namespace Registry

variable {s t : Registry} {x y z : Report} {xs ys : List Report} {name other : String} {r : Record}

def Accepts (s : Registry) (x : Report) : Prop :=
  ∃ k : Nat, (s.serve x.turn).result = .count k

/-- Two reports give clashing verdicts to a domain of one package about which the verifier could
still decide. -/
def Conflict (s : Registry) (x y : Report) : Prop :=
  x.token = y.token ∧ x.verdict.Clashes y.verdict ∧
    ∃ r : Record, s.stores.attached.getByToken? x.token = some r ∧
      ∃ d ∈ x.domains, d ∈ y.domains ∧ r.Undecided d

section Revise

variable {f g : Record → Record} {writes : Nat} {caller : Caller}

theorem revise_comm_of_ne (h : name ≠ other) :
    (s.revise name f 1).revise other g 1 = (s.revise other g 1).revise name f 1 := by
  have hb : ((s.stores.attached.modify name f).modify other g).byName =
      ((s.stores.attached.modify other g).modify name f).byName := by
    apply Std.ExtTreeMap.ext_getElem?
    intro n
    simp only [Roster.byName_modify]
    by_cases hn : n = name
    · simp [hn, h]
    · simp [hn]
  have ha : (s.stores.attached.modify name f).modify other g =
      (s.stores.attached.modify other g).modify name f :=
    congrArg (Roster.mk · s.stores.attached.nameOf) hb
  simp only [revise, Stores.withAttached, ha]

theorem revise_comm_of_eq (hr : s.stores.attached.get? name = some r) (h : g (f r) = f (g r)) :
    (s.revise name f 1).revise name g 1 = (s.revise name g 1).revise name f 1 := by
  rw [revise_revise, revise_revise]
  refine revise_congr fun r' hr' => ?_
  obtain rfl : r = r' := Option.some.inj (hr.symm.trans hr')
  exact h

theorem eq_of_revise_comm {token : Token}
    (hb : s.stores.attached.byName[name]? = some (token, r))
    (h : ((s.revise name f 1).revise name g 1).stores =
      ((s.revise name g 1).revise name f 1).stores) : g (f r) = f (g r) := by
  have hfg : ((s.revise name f 1).revise name g 1).stores.attached.byName[name]? =
      some (token, g (f r)) := byName_revise_self (byName_revise_self hb)
  have hgf : ((s.revise name g 1).revise name f 1).stores.attached.byName[name]? =
      some (token, f (g r)) := byName_revise_self (byName_revise_self hb)
  rw [h, hgf] at hfg
  exact (congrArg Prod.snd (Option.some.inj hfg)).symm

theorem actingFor_revise :
    (s.revise name f writes).actingFor caller = (s.actingFor caller).revise name f writes := rfl

theorem actingFor_actingFor {caller' : Caller} :
    (s.actingFor caller).actingFor caller' = s.actingFor caller' := rfl

theorem stores_eq_of_actingFor (h : s.actingFor caller = t.actingFor caller) :
    s.stores = t.stores := by
  have hst : (s.actingFor caller).stores = (t.actingFor caller).stores := congrArg Registry.stores h
  exact hst

theorem afterTurns_cons {x : Turn} {xs : List Turn} :
    s.afterTurns (x :: xs) = (s.serve x).registry.afterTurns xs := rfl

end Revise

section Steps

theorem accepts_iff : s.Accepts x ↔ ∃ r : Record,
    (s.actingFor x.caller).reportable x.token x.domains x.verdict = .ok r :=
  exists_result_setVerdict_eq_count_iff

theorem Accepts.isSettable (h : s.Accepts x) : x.verdict.isSettable = true := by
  obtain ⟨r, hr⟩ := accepts_iff.mp h
  exact (reportable_eq_ok_iff.mp hr).2.1

theorem Accepts.exists_name (h : s.Accepts x) :
    ∃ (name : String) (r : Record), s.stores.attached.nameOf[x.token]? = some name ∧
      s.stores.attached.get? name = some r := by
  obtain ⟨r, hr⟩ := accepts_iff.mp h
  obtain ⟨name, ht, hn⟩ := nameOf_of_reportable hr
  exact ⟨name, r, ht, hn⟩

theorem Accepts.registry_eq (h : s.Accepts x)
    (ht : s.stores.attached.nameOf[x.token]? = some name) :
    (s.serve x.turn).registry = (s.actingFor x.caller).revise name x.applyTo 1 := by
  obtain ⟨r, hr⟩ := accepts_iff.mp h
  exact registry_setVerdict hr ht

theorem accepts_serve (h : s.Accepts x) : (s.serve x.turn).registry.Accepts y ↔ s.Accepts y := by
  obtain ⟨name, -, ht, -⟩ := h.exists_name
  have hx := h.registry_eq ht
  have ha (c : Caller) : (s.serve x.turn).registry.actingFor c =
      (s.actingFor c).revise name x.applyTo 1 := congrArg (actingFor · c) hx
  rw [accepts_iff, accepts_iff, ha, reportable_revise (f := x.applyTo) fun _ => rfl]
  cases (s.actingFor y.caller).reportable y.token y.domains y.verdict <;> simp [Except.map]

/-- A report makes no conflict between others: what it leaves undecided was undecided before. -/
theorem conflict_of_serve (h : s.Accepts x) (hc : (s.serve x.turn).registry.Conflict y z) :
    s.Conflict y z := by
  obtain ⟨name, -, hn, -⟩ := h.exists_name
  have hx := h.registry_eq hn
  obtain ⟨ht, hv, r', hr', d, hy, hz, hu⟩ := hc
  rw [hx, getByToken?_revise] at hr'
  obtain ⟨r, hr, rfl⟩ := Option.map_eq_some_iff.mp hr'
  refine ⟨ht, hv, r, hr, d, hy, hz, ?_⟩
  split at hu
  · exact (Record.undecided_report.mp hu).1
  · exact hu

end Steps

section Pairs

/-- Two accepted reports, one after the other. -/
theorem actingFor_afterTurns_pair (hx : s.Accepts x) (hy : s.Accepts y) {name other : String}
    (ht : s.stores.attached.nameOf[x.token]? = some name)
    (ht' : s.stores.attached.nameOf[y.token]? = some other) (c : Caller) :
    (s.afterTurns [x.turn, y.turn]).actingFor c =
      ((s.actingFor c).revise name x.applyTo 1).revise other y.applyTo 1 := by
  have hsx := hx.registry_eq ht
  have hsy : ((s.serve x.turn).registry.serve y.turn).registry =
      ((s.serve x.turn).registry.actingFor y.caller).revise other y.applyTo 1 :=
    ((accepts_serve hx).mpr hy).registry_eq (by rw [hsx]; exact ht')
  rw [afterTurns_cons, afterTurns_cons, hsy, hsx, afterTurns, List.foldl_nil]
  rw [actingFor_revise, actingFor_revise, actingFor_actingFor, actingFor_revise,
    actingFor_actingFor]

theorem conflict_iff (h : s.stores.attached.getByToken? x.token = some r) :
    s.Conflict x y ↔ x.token = y.token ∧ x.verdict.Clashes y.verdict ∧
      ∃ d ∈ x.domains, d ∈ y.domains ∧ r.Undecided d := by
  simp [Conflict, h]

/-- The order of two reports matters exactly if they are in conflict. -/
theorem stores_afterTurns_comm_iff (hs : s.stores.Sound) (hx : s.Accepts x) (hy : s.Accepts y)
    (c : Caller) :
    ((s.afterTurns [x.turn, y.turn]).stores = (s.afterTurns [y.turn, x.turn]).stores ↔
      ¬s.Conflict x y) ∧
    (¬s.Conflict x y → (s.afterTurns [x.turn, y.turn]).actingFor c =
      (s.afterTurns [y.turn, x.turn]).actingFor c) := by
  obtain ⟨name, r, ht, hr⟩ := hx.exists_name
  obtain ⟨other, -, ht', -⟩ := hy.exists_name
  have hxy := actingFor_afterTurns_pair hx hy ht ht' c
  have hyx := actingFor_afterTurns_pair hy hx ht' ht c
  by_cases hn : name = other
  · subst hn
    obtain ⟨token, hb⟩ := Roster.get?_eq_some_iff.mp hr
    have htoken : x.token = y.token :=
      ((hs.coherent.nameOf_eq_iff hb).mp ht).trans ((hs.coherent.nameOf_eq_iff hb).mp ht').symm
    have hfound : s.stores.attached.getByToken? x.token = some r :=
      Roster.getByToken?_eq_some_iff.mpr ⟨name, ht, hr⟩
    have hcomm : y.applyTo (x.applyTo r) = x.applyTo (y.applyTo r) ↔ ¬s.Conflict x y := by
      rw [conflict_iff hfound, and_iff_right htoken]
      exact Record.report_comm_iff hx.isSettable hy.isSettable
    have heq (h : ¬s.Conflict x y) : (s.afterTurns [x.turn, y.turn]).actingFor c =
        (s.afterTurns [y.turn, x.turn]).actingFor c := by
      rw [hxy, hyx]
      exact revise_comm_of_eq hr (hcomm.mpr h)
    refine ⟨⟨fun he => hcomm.mp ?_, fun h => stores_eq_of_actingFor (heq h)⟩, heq⟩
    have he : ((s.afterTurns [x.turn, y.turn]).actingFor c).stores =
        ((s.afterTurns [y.turn, x.turn]).actingFor c).stores := he
    rw [hxy, hyx] at he
    exact eq_of_revise_comm (s := s.actingFor c) hb he
  · have heq : (s.afterTurns [x.turn, y.turn]).actingFor c =
        (s.afterTurns [y.turn, x.turn]).actingFor c := by
      rw [hxy, hyx, revise_comm_of_ne hn]
    have hno : ¬s.Conflict x y := by
      rintro ⟨he, -⟩
      exact hn (Option.some.inj (ht.symm.trans (he ▸ ht')))
    exact ⟨iff_of_true (stores_eq_of_actingFor heq) hno, fun _ => heq⟩

end Pairs

section Rows

/-- Rows of reports look at the caller of each report alone. -/
theorem actingFor_afterTurns_congr {turns : List Turn}
    (h : ∀ c : Caller, s.actingFor c = t.actingFor c) (c : Caller) :
    (s.afterTurns turns).actingFor c = (t.afterTurns turns).actingFor c := by
  cases turns with
  | nil => exact h c
  | cons x turns =>
    have hx : (s.serve x).registry = (t.serve x).registry := by rw [serve, serve, h]
    rw [afterTurns_cons, afterTurns_cons, hx]

theorem sound_serve (hs : s.stores.Sound) (x : Turn) : (s.serve x).registry.stores.Sound :=
  (effect_perform (s := s.actingFor x.caller) x.call).sound hs

theorem accepted_transcript (ha : ∀ x ∈ xs, s.Accepts x) :
    ∀ p ∈ s.transcript (xs.map Report.turn), ∃ k : Nat, p.2 = .count k := by
  induction xs generalizing s with
  | nil => exact fun p hp => absurd hp List.not_mem_nil
  | cons x xs ih =>
    rw [List.forall_mem_cons] at ha
    rw [List.map_cons, transcript, List.forall_mem_cons]
    exact ⟨ha.1, ih fun y hy => (accepts_serve ha.1).mpr (ha.2 y hy)⟩

/-- Accepted reports without a conflict leave the same in every order, but for the caller. -/
theorem actingFor_afterTurns_perm (hp : xs.Perm ys) (hs : s.stores.Sound)
    (ha : ∀ x ∈ xs, s.Accepts x) (hc : ∀ x ∈ xs, ∀ y ∈ xs, ¬s.Conflict x y) (c : Caller) :
    (s.afterTurns (xs.map Report.turn)).actingFor c =
      (s.afterTurns (ys.map Report.turn)).actingFor c := by
  induction hp generalizing s with
  | nil => rfl
  | cons x _ ih =>
    rw [List.forall_mem_cons] at ha
    refine ih (sound_serve hs x.turn) (fun y hy => (accepts_serve ha.1).mpr (ha.2 y hy))
      fun y hy z hz h => ?_
    exact hc y (List.mem_cons_of_mem _ hy) z (List.mem_cons_of_mem _ hz)
      (conflict_of_serve ha.1 h)
  | swap x y l =>
    have hx := ha x (by simp)
    have hy := ha y (by simp)
    have hn := hc y (by simp) x (by simp)
    -- The two orders differ in the caller that is left behind, and the rest does not look at it.
    exact actingFor_afterTurns_congr (fun c => (stores_afterTurns_comm_iff hs hy hx c).2 hn) c
  | trans hp _ ih ih' =>
    refine (ih hs ha hc).trans (ih' hs (fun x hx => ha x (hp.mem_iff.mpr hx)) fun x hx y hy => ?_)
    exact hc x (hp.mem_iff.mpr hx) y (hp.mem_iff.mpr hy)

end Rows

/-- Two reports that are both accepted are so in both orders, and leave the same stores in both
exactly if they are not in conflict. Accepted reports of which no two are in conflict are all
accepted and leave the same stores in every order. -/
theorem reports_converge (platform : Platform) (policy : Policy) (calls : List Call) :
    let s := (create platform policy).after calls
    (∀ x y : Report, s.Accepts x → s.Accepts y →
      (s.serve x.turn).registry.Accepts y ∧ (s.serve y.turn).registry.Accepts x ∧
      ((s.afterTurns [x.turn, y.turn]).stores = (s.afterTurns [y.turn, x.turn]).stores ↔
        ¬s.Conflict x y)) ∧
    ∀ xs ys : List Report, xs.Perm ys → (∀ x ∈ xs, s.Accepts x) →
      (∀ x ∈ xs, ∀ y ∈ xs, ¬s.Conflict x y) →
      (∀ p ∈ s.transcript (ys.map Report.turn), ∃ k : Nat, p.2 = .count k) ∧
      (s.afterTurns (xs.map Report.turn)).stores = (s.afterTurns (ys.map Report.turn)).stores := by
  intro s
  have hs : s.stores.Sound := sound_after (sound_create platform policy) calls
  constructor
  · intro x y hx hy
    exact ⟨(accepts_serve hx).mpr hy, (accepts_serve hy).mpr hx,
      (stores_afterTurns_comm_iff hs hx hy s.host.caller).1⟩
  · intro xs ys hp ha hc
    exact ⟨accepted_transcript fun y hy => ha y (hp.mem_iff.mpr hy),
      stores_eq_of_actingFor (actingFor_afterTurns_perm hp hs ha hc s.host.caller)⟩

/-- Three reports of two callers. Success is reported before and after another verdict on the
second domain. -/
theorem reports_converge_sample :
    let x : Report := ⟨{}, ⟨1⟩, .ofList ["a.org", "b.org"], .success⟩
    let y : Report := ⟨{}, ⟨1⟩, .ofList ["b.org", "c.org"], .verifierDefined 1025⟩
    let z : Report := ⟨{ uid := 10050 }, ⟨1⟩, .ofList ["c.org"], .reserved 1025⟩
    (partlyVerified.afterTurns [x.turn, y.turn, z.turn]).stores =
      (partlyVerified.afterTurns [z.turn, y.turn, x.turn]).stores := by
  intro x y z
  have ha : ∀ w ∈ [x, y, z], partlyVerified.Accepts w := by
    simp only [List.forall_mem_cons, List.not_mem_nil, false_imp_iff, implies_true, and_true]
    exact ⟨⟨1, by decide +kernel⟩, ⟨2, by decide +kernel⟩, ⟨1, by decide +kernel⟩⟩
  have hv : ∀ w ∈ [x, y, z], ∀ w' ∈ [x, y, z], ¬w.verdict.Clashes w'.verdict := by
    simp only [List.forall_mem_cons, List.not_mem_nil, false_imp_iff, implies_true, and_true]
    decide
  exact ((reports_converge .default .openToAll _).2 [x, y, z] [z, y, x]
    (List.reverse_perm [z, y, x]) ha fun w hw w' hw' h => hv w hw w' hw' h.2.1).2

end Registry
end LinkTrust
