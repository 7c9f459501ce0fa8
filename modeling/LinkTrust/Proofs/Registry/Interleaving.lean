import Mathlib.Algebra.BigOperators.Ring.Finset
import LinkTrust.Proofs.Registry.Writes

/-! # Clients that work on different packages

The registry serves many clients, one call at a time and in any order. A call that addresses an
attached package looks at the record of this one alone, and changes no other. So clients that
address different packages do not notice each other: in every interleaving each gets the answers
that it gets alone, and leaves its packages as it leaves them alone.
-/

namespace LinkTrust

/-- A call of a client, with the identity under which it is made. -/
structure Turn where
  caller : Caller
  call : Call

/-- The name of the package that a call addresses. A token stands for the name that it leads to, and
a name for itself if a package is attached under it. -/
def Call.target? (attached : Roster Record) : Call → Option String
  | setVerdict token _ _ => attached.nameOf[token]?
  | setSelection token _ _ _ => attached.nameOf[token]?
  | setLinkHandling name _ _ => if attached.contains name then some name else none
  | verificationSet name => if attached.contains name then some name else none
  | selection name _ => if attached.contains name then some name else none
  | _ => none

namespace Schedule

variable {ι α : Type} [DecidableEq ι] {i : ι} {p : ι × α} {l : List (ι × α)}

/-- The items of one client, in a row in which each item stands with its client. -/
def part (i : ι) (l : List (ι × α)) : List α :=
  l.filterMap fun p => if p.1 = i then some p.2 else none

@[simp] theorem part_nil : part i ([] : List (ι × α)) = [] := rfl

theorem part_cons : part i (p :: l) = if p.1 = i then p.2 :: part i l else part i l := by
  by_cases h : p.1 = i <;> simp [part, h]

theorem mem_part {a : α} : a ∈ part i l ↔ (i, a) ∈ l := by
  simp only [part, List.mem_filterMap, Option.ite_none_right_eq_some, Option.some.injEq]
  constructor
  · rintro ⟨p, hp, rfl, rfl⟩
    exact hp
  · intro h
    exact ⟨_, h, rfl, rfl⟩

/-- All that stands in a row belongs to one of the clients. -/
theorem sum_part [Fintype ι] (g : α → Nat) (l : List (ι × α)) :
    ∑ i, ((part i l).map g).sum = (l.map fun p => g p.2).sum := by
  induction l with
  | nil => simp
  | cons p l ih =>
    have hp (i : ι) : ((part i (p :: l)).map g).sum =
        (if p.1 = i then g p.2 else 0) + ((part i l).map g).sum := by
      rw [part_cons]
      split <;> simp
    simp only [hp, Finset.sum_add_distrib, ih, Finset.sum_ite_eq, Finset.mem_univ, if_true,
      List.map_cons, List.sum_cons]

end Schedule

namespace Registry

variable {s t : Registry} {call : Call} {x : Turn} {xs : List Turn} {name : String}
  {N : String → Prop}

/-- The registry when some caller is about to make a call. -/
def actingFor (s : Registry) (caller : Caller) : Registry :=
  { s with host := s.host.setCaller caller }

/-- Makes the call of a client. -/
def serve (s : Registry) (x : Turn) : Reply Answer := (s.actingFor x.caller).perform x.call

/-- The registry after a row of calls, each with an identity of its own. -/
def afterTurns (s : Registry) (xs : List Turn) : Registry :=
  xs.foldl (fun s x => (s.serve x).registry) s

/-- The calls of a row, each with what it answers. -/
def transcript (s : Registry) : List Turn → List (Turn × Answer)
  | [] => []
  | x :: xs => (x, (s.serve x).result) :: (s.serve x).registry.transcript xs

/-- What the calls of a schedule answer, each call with its client. -/
def trace {ι : Type} (s : Registry) (schedule : List (ι × Turn)) : List (ι × Turn × Answer) :=
  (schedule.map Prod.fst).zip (s.transcript (schedule.map Prod.snd))

/-- Some call of the row addresses the package. -/
def Addressed (s : Registry) (xs : List Turn) (name : String) : Prop :=
  ∃ x ∈ xs, x.call.target? s.stores.attached = some name

/-- The registries agree on the attached records of some packages, and on all else but those of
other packages, who has called last, and how many writes were asked for. -/
structure AgreeOn (N : String → Prop) (s t : Registry) : Prop where
  platform_eq : s.platform = t.platform
  policy_eq : s.policy = t.policy
  agent_eq : s.agent = t.agent
  installed_eq : s.host.installed = t.host.installed
  nameOf_eq : s.stores.attached.nameOf = t.stores.attached.nameOf
  pending_eq : s.stores.pending = t.stores.pending
  restored_eq : s.stores.restored = t.stores.restored
  byName_eq : ∀ name : String, N name →
    s.stores.attached.byName[name]? = t.stores.attached.byName[name]?

section Revise

/-- Changes one attached record, and asks for a number of writes. -/
def revise (s : Registry) (name : String) (f : Record → Record) (writes : Nat) : Registry :=
  { s with
    host := { s.host with writes := s.host.writes + writes }
    stores := s.stores.withAttached (s.stores.attached.modify name f) }

variable {f : Record → Record} {writes : Nat} {caller : Caller}

theorem revise_id : s.revise name id 0 = s := by
  rw [revise, Roster.modify_id]
  rfl

theorem revise_modifyByToken {token : Token}
    (ht : s.stores.attached.nameOf[token]? = some name) :
    (s.mapAttached (·.modifyByToken token f)).scheduleWrite = s.revise name f 1 := by
  simp only [mapAttached, Roster.modifyByToken, ht]
  rfl

theorem target?_revise :
    call.target? (s.revise name f writes).stores.attached = call.target? s.stores.attached := by
  have hc (n : String) : (s.revise name f writes).stores.attached.contains n =
      s.stores.attached.contains n := Roster.contains_modify
  cases call <;> simp only [Call.target?, hc] <;> rfl

theorem AgreeOn.refl (s : Registry) : AgreeOn N s s :=
  ⟨rfl, rfl, rfl, rfl, rfl, rfl, rfl, fun _ _ => rfl⟩

theorem AgreeOn.trans {u : Registry} (h : AgreeOn N s t) (h' : AgreeOn N t u) : AgreeOn N s u :=
  ⟨h.platform_eq.trans h'.platform_eq, h.policy_eq.trans h'.policy_eq, h.agent_eq.trans h'.agent_eq,
    h.installed_eq.trans h'.installed_eq, h.nameOf_eq.trans h'.nameOf_eq,
    h.pending_eq.trans h'.pending_eq, h.restored_eq.trans h'.restored_eq,
    fun n hn => (h.byName_eq n hn).trans (h'.byName_eq n hn)⟩

/-- A change of the same record on both sides keeps the agreement. -/
theorem AgreeOn.revise (h : AgreeOn N s t) :
    AgreeOn N ((s.actingFor caller).revise name f writes)
      ((t.actingFor caller).revise name f writes) := by
  refine { h with byName_eq := fun n hn => ?_ }
  simp only [Registry.revise, actingFor, Stores.withAttached, Roster.byName_modify,
    h.byName_eq n hn]

/-- So does a change on one side of a record on which there is none. -/
theorem AgreeOn.revise_left (h : AgreeOn N s t) (hn : ¬N name) :
    AgreeOn N ((s.actingFor caller).revise name f writes) t := by
  refine { h with byName_eq := fun n hn' => ?_ }
  have hne : n ≠ name := fun he => hn (he ▸ hn')
  simp only [Registry.revise, actingFor, Stores.withAttached, Roster.byName_modify, hne, if_false,
    h.byName_eq n hn']

end Revise

theorem authorize_congr (h : AgreeOn N s t) (hc : s.host.caller = t.host.caller)
    (demand : Demand) : s.authorize demand = t.authorize demand := by
  simp only [authorize, h.policy_eq, h.agent_eq, hc]

theorem manifest?_congr (h : AgreeOn N s t) (n : String) :
    s.host.manifest? n = t.host.manifest? n := by
  rw [Host.manifest?, Host.manifest?, h.installed_eq]

section Calls

variable (h : AgreeOn (· = name) s t) (hc : s.host.caller = t.host.caller)

include h hc

omit h in
theorem userOr_congr (user? : Option UserId) : s.userOr user? = t.userOr user? := by
  rw [userOr, userOr, hc]

omit hc

theorem get?_congr : s.stores.attached.get? name = t.stores.attached.get? name := by
  rw [Roster.get?, Roster.get?, h.byName_eq name rfl]

theorem resolve_congr {token : Token} (ht : s.stores.attached.nameOf[token]? = some name)
    (ds : Domains) (kind : DomainKind) : s.resolve token ds kind = t.resolve token ds kind := by
  have ht' : t.stores.attached.nameOf[token]? = some name := h.nameOf_eq ▸ ht
  simp only [resolve, Host.bind_installation?, Roster.getByToken?, ht, ht', Option.bind_some,
    get?_congr h, manifest?_congr h]

include hc

/-- A call that addresses a package answers from its record, and changes at most this one. -/
theorem perform_congr (ht : call.target? s.stores.attached = some name) :
    (s.perform call).result = (t.perform call).result ∧
      ∃ (f : Record → Record) (writes : Nat), (s.perform call).registry = s.revise name f writes ∧
        (t.perform call).registry = t.revise name f writes := by
  have hidle : ∃ (f : Record → Record) (writes : Nat), s = s.revise name f writes ∧
      t = t.revise name f writes := ⟨id, 0, revise_id.symm, revise_id.symm⟩
  -- A package is addressed by its token in two calls and by its name in the others.
  have htoken {token : Token} (ht : s.stores.attached.nameOf[token]? = some name) :
      t.stores.attached.nameOf[token]? = some name := h.nameOf_eq ▸ ht
  have hname {n : String} (ht : (if s.stores.attached.contains n then some n else none) =
      some name) : s.stores.attached.contains n = true ∧ n = name := by
    simpa using ht
  cases call with
  | setVerdict token ds v =>
    have hr : s.reportable token ds v = t.reportable token ds v := by
      simp only [reportable, authorize_congr h hc, resolve_congr h ht]
    simp only [perform, setVerdict, hr]
    cases t.reportable token ds v with
    | error => exact ⟨rfl, hidle⟩
    | ok => exact ⟨rfl, _, 1, revise_modifyByToken ht, revise_modifyByToken (htoken ht)⟩
  | setSelection token hosts enabled user? =>
    have hr (user : UserId) : s.selectable token hosts user = t.selectable token hosts user := by
      simp only [selectable, authorize_congr h hc, resolve_congr h ht]
    simp only [perform, setSelection, userOr_congr hc, hr]
    cases t.selectable token hosts (t.userOr user?) with
    | error => exact ⟨rfl, hidle⟩
    | ok => exact ⟨rfl, _, 1, revise_modifyByToken ht, revise_modifyByToken (htoken ht)⟩
  | setLinkHandling n allowed user? =>
    obtain ⟨hk, rfl⟩ := hname ht
    have hk' : t.stores.attached.contains n = true := by
      rw [← hk, Roster.contains_eq_isSome, Roster.contains_eq_isSome, h.byName_eq n rfl]
    simp only [perform, setLinkHandling, userOr_congr hc, authorize_congr h hc, hk, hk']
    cases t.authorize (.selectorFor (t.userOr user?)) with
    | error => exact ⟨rfl, hidle⟩
    | ok => exact ⟨rfl, _, 1, rfl, rfl⟩
  | verificationSet n =>
    obtain ⟨-, rfl⟩ := hname ht
    simp only [perform, verificationSet, verificationSet?, authorize_congr h hc, get?_congr h,
      manifest?_congr h]
    cases t.authorize .querent with
    | error => exact ⟨rfl, hidle⟩
    | ok => exact ⟨rfl, hidle⟩
  | selection n user? =>
    obtain ⟨-, rfl⟩ := hname ht
    simp only [perform, selection, selection?, userOr_congr hc, authorize_congr h hc, get?_congr h,
      manifest?_congr h]
    cases t.authorize (.selectorFor (t.userOr user?)) with
    | error => exact ⟨rfl, hidle⟩
    | ok => exact ⟨rfl, hidle⟩
  | _ => cases ht

end Calls

section Turns

/-- A turn on a package on which there is agreement. -/
theorem AgreeOn.serve (h : AgreeOn N s t) (hx : x.call.target? s.stores.attached = some name)
    (hn : N name) : (s.serve x).result = (t.serve x).result ∧
      AgreeOn N (s.serve x).registry (t.serve x).registry := by
  have hat : AgreeOn (· = name) (s.actingFor x.caller) (t.actingFor x.caller) :=
    { h with byName_eq := fun n he => h.byName_eq n (he ▸ hn) }
  obtain ⟨hr, f, writes, hs, ht⟩ := perform_congr hat rfl hx
  refine ⟨hr, ?_⟩
  rw [Registry.serve, Registry.serve, hs, ht]
  exact h.revise

/-- A turn changes at most the record of the package that it addresses. -/
theorem registry_serve (hx : x.call.target? s.stores.attached = some name) :
    ∃ (f : Record → Record) (writes : Nat),
      (s.serve x).registry = (s.actingFor x.caller).revise name f writes := by
  obtain ⟨-, f, writes, hs, -⟩ := perform_congr (.refl (s.actingFor x.caller)) rfl hx
  exact ⟨f, writes, hs⟩

theorem target?_serve (hx : x.call.target? s.stores.attached = some name) :
    call.target? (s.serve x).registry.stores.attached = call.target? s.stores.attached := by
  obtain ⟨f, writes, hs⟩ := registry_serve hx
  rw [hs]
  exact target?_revise

theorem AgreeOn.serve_left (h : AgreeOn N s t) (hx : x.call.target? s.stores.attached = some name)
    (hn : ¬N name) : AgreeOn N (s.serve x).registry t := by
  obtain ⟨f, writes, hs⟩ := registry_serve hx
  rw [hs]
  exact h.revise_left hn

end Turns

section Runs

open Schedule

variable {ι : Type} [DecidableEq ι] {schedule : List (ι × Turn)} {i : ι}

/-- Turns on packages on which there is no agreement leave it alone. -/
theorem AgreeOn.afterTurns_left (h : AgreeOn N s t)
    (hxs : ∀ x ∈ xs, ∃ name, x.call.target? s.stores.attached = some name ∧ ¬N name) :
    AgreeOn N (s.afterTurns xs) t := by
  induction xs generalizing s with
  | nil => exact h
  | cons x xs ih =>
    rw [List.forall_mem_cons] at hxs
    obtain ⟨⟨name, hx, hn⟩, hxs⟩ := hxs
    refine ih (h.serve_left hx hn) fun y hy => ?_
    rw [target?_serve hx]
    exact hxs y hy

/-- A client whose packages are those on which there is agreement goes on as if it were alone. -/
theorem AgreeOn.afterTurns (h : AgreeOn N s t)
    (hp : ∀ p ∈ schedule, ∃ name,
      p.2.call.target? s.stores.attached = some name ∧ (p.1 = i ↔ N name)) :
    part i (s.trace schedule) = t.transcript (part i schedule) ∧
      AgreeOn N (s.afterTurns (schedule.map Prod.snd)) (t.afterTurns (part i schedule)) := by
  induction schedule generalizing s t with
  | nil => exact ⟨rfl, h⟩
  | cons p schedule ih =>
    rw [List.forall_mem_cons] at hp
    obtain ⟨⟨name, hx, hi⟩, hp⟩ := hp
    have hp' : ∀ q ∈ schedule, ∃ name,
        q.2.call.target? (s.serve p.2).registry.stores.attached = some name ∧
          (q.1 = i ↔ N name) := by
      simpa only [target?_serve hx] using hp
    have htrace : s.trace (p :: schedule) =
        (p.1, p.2, (s.serve p.2).result) :: (s.serve p.2).registry.trace schedule := rfl
    rw [htrace, part_cons, part_cons]
    by_cases he : p.1 = i
    · obtain ⟨hr, h⟩ := h.serve hx (hi.mp he)
      obtain ⟨ht, ha⟩ := ih h hp'
      rw [if_pos he, if_pos he, ht, hr]
      exact ⟨rfl, ha⟩
    · obtain ⟨ht, ha⟩ := ih (h.serve_left hx (mt hi.mpr he)) hp'
      rw [if_neg he, if_neg he]
      exact ⟨ht, ha⟩

theorem length_transcript : (s.transcript xs).length = xs.length := by
  induction xs generalizing s with
  | nil => rfl
  | cons x xs ih => exact congrArg (· + 1) ih

/-- The writes that were asked for are those of the calls, by what these answered. -/
theorem writes_afterTurns (s : Registry) (xs : List Turn) : (s.afterTurns xs).host.writes =
    s.host.writes + ((s.transcript xs).map fun p => p.1.call.writes p.2).sum := by
  induction xs generalizing s with
  | nil => rfl
  | cons x xs ih =>
    have hx : (s.serve x).registry.host.writes =
        s.host.writes + x.call.writes (s.serve x).result := writes_perform _ x.call
    have ha : s.afterTurns (x :: xs) = (s.serve x).registry.afterTurns xs := rfl
    rw [ha, ih, hx, transcript, List.map_cons, List.sum_cons, Nat.add_assoc]

/-- What all clients have asked for adds up. -/
theorem sum_trace [Fintype ι] (s : Registry) (schedule : List (ι × Turn)) :
    (s.afterTurns (schedule.map Prod.snd)).host.writes = s.host.writes +
      ∑ i, ((part i (s.trace schedule)).map fun p => p.1.call.writes p.2).sum := by
  have hl : (s.transcript (schedule.map Prod.snd)).length ≤ (schedule.map Prod.fst).length := by
    simp [length_transcript]
  have hm : (s.trace schedule).map (fun p => p.2.1.call.writes p.2.2) =
      (s.transcript (schedule.map Prod.snd)).map fun p => p.1.call.writes p.2 := by
    rw [← List.map_snd_zip hl, List.map_map]
    rfl
  rw [writes_afterTurns, sum_part, hm]

end Runs

/-- Clients whose calls address attached packages, and no two of them the same, do not notice each
other. In every interleaving of what they call, each of them is answered as it is alone, and leaves
its packages as it leaves them alone; nothing else in the stores changes, and the writes that are
asked for add up. -/
theorem clients_act_as_if_alone {ι : Type} [Fintype ι] [DecidableEq ι] (s : Registry)
    (rows : ι → List Turn) (schedule : List (ι × Turn))
    (hschedule : ∀ i, Schedule.part i schedule = rows i)
    (htarget : ∀ i, ∀ x ∈ rows i, (x.call.target? s.stores.attached).isSome = true)
    (happart : ∀ (i j : ι) (name : String), s.Addressed (rows i) name → s.Addressed (rows j) name →
      i = j) :
    let final := s.afterTurns (schedule.map Prod.snd)
    (∀ i, Schedule.part i (s.trace schedule) = s.transcript (rows i)) ∧
    (∀ i, AgreeOn (s.Addressed (rows i)) final (s.afterTurns (rows i))) ∧
    AgreeOn (fun name => ∀ i, ¬s.Addressed (rows i) name) final s ∧
    final.host.writes =
      s.host.writes + ∑ i, ((s.afterTurns (rows i)).host.writes - s.host.writes) := by
  intro final
  have hp : ∀ p ∈ schedule, ∃ name, p.2.call.target? s.stores.attached = some name ∧
      s.Addressed (rows p.1) name := by
    intro p hp
    have hr : p.2 ∈ rows p.1 := hschedule p.1 ▸ Schedule.mem_part.mpr hp
    obtain ⟨name, hx⟩ := Option.isSome_iff_exists.mp (htarget p.1 p.2 hr)
    exact ⟨name, hx, p.2, hr, hx⟩
  have halone (i : ι) : Schedule.part i (s.trace schedule) = s.transcript (rows i) ∧
      AgreeOn (s.Addressed (rows i)) final (s.afterTurns (rows i)) := by
    rw [← hschedule i]
    refine AgreeOn.afterTurns (.refl s) fun p hmem => ?_
    obtain ⟨name, hx, ha⟩ := hp p hmem
    rw [hschedule i]
    exact ⟨name, hx, fun he => he ▸ ha, happart p.1 i name ha⟩
  refine ⟨fun i => (halone i).1, fun i => (halone i).2, ?_, ?_⟩
  · refine AgreeOn.afterTurns_left (.refl s) fun x hx => ?_
    obtain ⟨p, hmem, rfl⟩ := List.mem_map.mp hx
    obtain ⟨name, hname, ha⟩ := hp p hmem
    exact ⟨name, hname, fun hn => hn p.1 ha⟩
  · rw [sum_trace]
    refine congrArg (s.host.writes + ·) (Finset.sum_congr rfl fun i _ => ?_)
    rw [(halone i).1, writes_afterTurns, Nat.add_sub_cancel_left]

/-- Two packages, each with one domain to verify. -/
def twoPackages : Registry :=
  let app : Installation := { Installation.sample with legacyApproval? := none }
  let other : Installation :=
    { name := "other", token? := some ⟨2⟩
      manifest? := some { package := "other", filters := [.web true ["b.org"]] } }
  (create .default .default).after
    [.install app, .addPackage app, .install other, .addPackage other]

/-- The verifier works on one of them, and a user on the other one. The user is refused once. -/
def twoClients : List (Bool × Turn) :=
  [(true, ⟨{ uid := 10100, user := 11 }, .setSelection ⟨2⟩ (.ofList ["b.org"]) true none⟩),
    (false, ⟨{ uid := 1000 }, .setVerdict ⟨1⟩ (.ofList ["a.org"]) .success⟩),
    (true, ⟨{ uid := 10100, user := 11 }, .setLinkHandling "other" false (some 10)⟩),
    (true, ⟨{ uid := 10100, user := 11 }, .selection "other" none⟩),
    (false, ⟨{ uid := 1000 }, .verificationSet "app"⟩)]

theorem target?_twoClients : ∀ p ∈ twoClients,
    p.2.call.target? twoPackages.stores.attached = some (if p.1 then "other" else "app") := by
  simp only [twoClients, List.forall_mem_cons, List.not_mem_nil, false_imp_iff, implies_true,
    and_true]
  decide +kernel

theorem clients_act_as_if_alone_sample :
    let rows (i : Bool) := Schedule.part i twoClients
    let final := twoPackages.afterTurns (twoClients.map Prod.snd)
    (∀ i, Schedule.part i (twoPackages.trace twoClients) = twoPackages.transcript (rows i)) ∧
    AgreeOn (twoPackages.Addressed (rows true)) final (twoPackages.afterTurns (rows true)) ∧
    final.host.writes = twoPackages.host.writes +
      ∑ i, ((twoPackages.afterTurns (rows i)).host.writes - twoPackages.host.writes) := by
  intro rows final
  have hx (i : Bool) (x : Turn) (h : x ∈ rows i) :
      x.call.target? twoPackages.stores.attached = some (if i then "other" else "app") :=
    target?_twoClients (i, x) (Schedule.mem_part.mp h)
  have happart (i j : Bool) (name : String) (hi : twoPackages.Addressed (rows i) name)
      (hj : twoPackages.Addressed (rows j) name) : i = j := by
    obtain ⟨x, hxi, hi⟩ := hi
    obtain ⟨y, hyj, hj⟩ := hj
    have hn := ((hx i x hxi).symm.trans hi).trans (hj.symm.trans (hx j y hyj))
    have hinj : ∀ i j : Bool, (if i then "other" else "app") = (if j then "other" else "app") →
        i = j := by decide
    exact hinj i j (Option.some.inj hn)
  have h := clients_act_as_if_alone twoPackages rows twoClients (fun _ => rfl)
    (fun i x h => by rw [hx i x h]; rfl) happart
  exact ⟨h.1, h.2.1 true, h.2.2.2⟩

end Registry
end LinkTrust
