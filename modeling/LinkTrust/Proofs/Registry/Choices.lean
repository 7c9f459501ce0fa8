import LinkTrust.Proofs.Registry.Convergence
import LinkTrust.Proofs.Registry.DeclaredHosts

/-! # The last choice counts

Users choose hosts of a package by its token, and whether links open in it by its name. Whoever
makes such calls, in whatever order and however many of them are rejected, a user is shown for each
host what the last accepted choice about it was, and where there was none what was shown before.
Nothing but selections changes.
-/

namespace LinkTrust

namespace Selection

variable {s : Selection} {hosts : Domains} {enabled : Bool} {host : String}

/-- Selects some hosts, or takes them back. -/
def choose (s : Selection) (hosts : Domains) (enabled : Bool) : Selection :=
  if enabled then s.enable hosts else s.disable hosts

theorem mem_hosts_choose : host ∈ (s.choose hosts enabled).hosts ↔
    if host ∈ hosts then enabled = true else host ∈ s.hosts := by
  cases enabled with
  | true => by_cases h : host ∈ hosts <;> simp [choose, enable, h]
  | false => by_cases h : host ∈ hosts <;> simp [choose, disable, h]

theorem optedOut_choose : (s.choose hosts enabled).optedOut = s.optedOut := by
  cases enabled <;> rfl

end Selection

namespace Record

variable {r r' r'' : Record} {hosts? hosts?' : UserId → String → Option Bool}
  {links? links?' : UserId → Option Bool}

/-- The record without any selection. -/
def unselected (r : Record) : Record := { r with selections := ∅ }

/-- The record after choices, of which the last ones are given: for each user those about hosts and
the one about links. -/
structure Chosen (hosts? : UserId → String → Option Bool) (links? : UserId → Option Bool)
    (r r' : Record) : Prop where
  mem_hosts_iff : ∀ (user : UserId) (host : String), host ∈ (r'.selection user).hosts ↔
    (hosts? user host).getD (decide (host ∈ (r.selection user).hosts)) = true
  optedOut_eq : ∀ user : UserId,
    (!(r'.selection user).optedOut) = (links? user).getD !(r.selection user).optedOut

theorem chosen_none (r : Record) : r.Chosen (fun _ _ => none) (fun _ => none) r :=
  ⟨fun _ _ => by simp, fun _ => rfl⟩

/-- Later choices prevail over earlier ones. -/
theorem Chosen.trans (h : r.Chosen hosts? links? r') (h' : r'.Chosen hosts?' links?' r'') :
    r.Chosen (fun user host => (hosts?' user host).or (hosts? user host))
      (fun user => (links?' user).or (links? user)) r'' where
  mem_hosts_iff user host := by
    rw [h'.mem_hosts_iff, Option.getD_or]
    simp [h.mem_hosts_iff]
  optedOut_eq user := by rw [h'.optedOut_eq, h.optedOut_eq, Option.getD_or]

theorem chosen_select {user : UserId} {f : Selection → Selection}
    (hh : ∀ host, host ∈ (f (r.selection user)).hosts ↔
      (hosts? user host).getD (decide (host ∈ (r.selection user).hosts)) = true)
    (hl : (!(f (r.selection user)).optedOut) = (links? user).getD !(r.selection user).optedOut)
    (hne : ∀ other, other ≠ user → (∀ host, hosts? other host = none) ∧ links? other = none) :
    r.Chosen hosts? links? (r.select user f) where
  mem_hosts_iff other host := by
    rw [selection_select]
    split
    · subst other
      exact hh host
    · simp [(hne other ‹_›).1 host]
  optedOut_eq other := by
    rw [selection_select]
    split
    · subst other
      exact hl
    · simp [(hne other ‹_›).2]

end Record

namespace Turn

variable {α : Type} {f : Turn → Option α} {p : Turn × Answer} {l : List (Turn × Answer)} {a : α}

/-- Without a user, a call is about the user of its caller. -/
def userOr (x : Turn) (user? : Option UserId) : UserId := user?.getD x.caller.user

/-- What a call chooses for a user about a host of the package with some token. -/
def host? (x : Turn) (token : Token) (user : UserId) (host : String) : Option Bool :=
  match x.call with
  | .setSelection t hosts enabled user? =>
    if t = token ∧ x.userOr user? = user ∧ host ∈ hosts then some enabled else none
  | _ => none

/-- What a call chooses for a user about the links of a package. -/
def links? (x : Turn) (name : String) (user : UserId) : Option Bool :=
  match x.call with
  | .setLinkHandling n allowed user? =>
    if n = name ∧ x.userOr user? = user then some allowed else none
  | _ => none

/-- What the last of the accepted calls chooses that chooses anything. -/
def lastAccepted? (f : Turn → Option α) (l : List (Turn × Answer)) : Option α :=
  l.reverse.findSome? fun p => if p.2 = .done then f p.1 else none

theorem lastAccepted?_cons : lastAccepted? f (p :: l) =
    (lastAccepted? f l).or (if p.2 = .done then f p.1 else none) := by
  simp [lastAccepted?, List.findSome?_append]

theorem exists_of_lastAccepted? (h : lastAccepted? f l = some a) :
    ∃ p ∈ l, p.2 = .done ∧ f p.1 = some a := by
  obtain ⟨p, hp, ha⟩ := List.exists_of_findSome?_eq_some h
  obtain ⟨hd, hf⟩ := Option.ite_none_right_eq_some.mp ha
  exact ⟨p, List.mem_reverse.mp hp, hd, hf⟩

end Turn

/-- The call chooses hosts of a package, or whether links open in it. -/
def Call.isChoice : Call → Bool
  | setLinkHandling .. => true
  | setSelection .. => true
  | _ => false

namespace Registry

variable {s t : Registry} {x : Turn} {xs : List Turn} {a : Answer} {name : String} {token : Token}
  {r : Record} {m : Manifest} {user : UserId} {host : String}

/-- What a choice answers, and the registry that it leaves. -/
inductive Choice (s : Registry) (x : Turn) : Answer → Registry → Prop where
  | rejected {e : Error} : Choice s x (.rejected e) (s.actingFor x.caller)
  | handled {name : String} {allowed : Bool} {user? : Option UserId}
      (call_eq : x.call = .setLinkHandling name allowed user?) :
      Choice s x .done ((s.actingFor x.caller).revise name
        (·.select (x.userOr user?) (·.optOut !allowed)) 1)
  | selected {token : Token} {hosts : Domains} {enabled : Bool} {user? : Option UserId}
      {name : String} {m : Manifest}
      (call_eq : x.call = .setSelection token hosts enabled user?)
      (found : s.stores.attached.nameOf[token]? = some name)
      (resolved : s.host.manifest? name = some m) (declared : ∀ h ∈ hosts, h ∈ m.webDomains) :
      Choice s x .done ((s.actingFor x.caller).revise name
        (·.select (x.userOr user?) (·.choose hosts enabled)) 1)

theorem choice_serve (hs : s.stores.Sound) (hx : x.call.isChoice = true) :
    s.Choice x (s.serve x).result (s.serve x).registry := by
  obtain ⟨caller, call⟩ := x
  cases call with
  | setLinkHandling name allowed user? =>
    simp only [serve, perform, setLinkHandling]
    split
    · exact .rejected
    · split
      · exact .handled rfl
      · exact .rejected
  | setSelection token hosts enabled user? =>
    simp only [serve, perform, setSelection]
    split
    · exact .rejected
    · rename_i r hr
      obtain ⟨-, hf, m, hm, -, hd⟩ := resolve_eq_ok_iff.mp (selectable_eq_ok_iff.mp hr).2
      obtain ⟨n, hn⟩ := hs.coherent.getByToken?_eq_some_iff.mp hf
      have ht : s.stores.attached.nameOf[token]? = some n := hs.coherent.nameOf_of_byName hn
      have hu := revise_modifyByToken (s := s.actingFor caller) (f := (·.select
        (user?.getD caller.user) (·.choose hosts enabled))) ht
      have hc : Choice s ⟨caller, .setSelection token hosts enabled user?⟩ .done _ :=
        .selected rfl ht ((hs.each.attached hn).name_eq ▸ hm) (Domains.subset_iff.mp hd)
      exact hu ▸ hc
  | _ => cases hx

section Steps

/-- A choice changes selections in one attached package, and besides only how often the settings are
to be written. -/
theorem Choice.agreeOn (h : s.Choice x a t) : AgreeOn (fun _ => False) t s := by
  cases h with
  | rejected => exact ⟨rfl, rfl, rfl, rfl, rfl, rfl, rfl, fun _ h => h.elim⟩
  | handled => exact (AgreeOn.refl s).revise_left (N := fun _ => False) id
  | selected => exact (AgreeOn.refl s).revise_left (N := fun _ => False) id

theorem unselected_revise {f : Selection → Selection} {writes : Nat} :
    (s.revise name (·.select user f) writes).stores.attached.mapValues (·.unselected) =
      s.stores.attached.mapValues (·.unselected) := by
  have h : (s.stores.attached.modify name (·.select user f)).mapValues (·.unselected) =
      (s.stores.attached.mapValues (·.unselected)).modify name id :=
    Roster.mapValues_modify fun _ => rfl
  exact h.trans Roster.modify_id

theorem Choice.unselected (h : s.Choice x a t) :
    t.stores.attached.mapValues (·.unselected) = s.stores.attached.mapValues (·.unselected) := by
  cases h with
  | rejected => rfl
  | handled => exact unselected_revise (s := s.actingFor x.caller)
  | selected => exact unselected_revise (s := s.actingFor x.caller)

/-- Of the record of a package a choice changes what it chooses, if it is accepted. -/
theorem Choice.chosen (h : s.Choice x a t) (hs : s.stores.Sound)
    (hr : s.stores.attached.byName[name]? = some (token, r)) :
    ∃ r', t.stores.attached.byName[name]? = some (token, r') ∧
      r.Chosen (fun user host => if a = .done then x.host? token user host else none)
        (fun user => if a = .done then x.links? name user else none) r' := by
  -- The package is meant by its name in one case and by its token in the other; which of the two
  -- does not matter, since the token leads to the name and no other token does.
  cases h with
  | rejected => exact ⟨r, hr, r.chosen_none⟩
  | @handled n allowed user? call_eq =>
    by_cases hn : n = name
    · subst hn
      refine ⟨_, byName_revise_self (s := s.actingFor x.caller) hr, Record.chosen_select ?_ ?_ ?_⟩
      · intro host
        simp [Turn.host?, call_eq, Selection.optOut]
      · simp [Turn.links?, call_eq, Selection.optOut]
      · intro other ho
        simp [Turn.host?, Turn.links?, call_eq, Ne.symm ho]
    · refine ⟨r, ?_, ?_⟩
      · rw [byName_revise, if_neg (Ne.symm hn)]
        exact hr
      · simpa [Turn.host?, Turn.links?, call_eq, hn] using r.chosen_none
  | @selected tok hosts enabled user? n m call_eq found resolved declared =>
    by_cases ht : tok = token
    · subst ht
      obtain rfl : name = n :=
        Option.some.inj ((hs.coherent.nameOf_of_byName hr).symm.trans found)
      refine ⟨_, byName_revise_self (s := s.actingFor x.caller) hr, Record.chosen_select ?_ ?_ ?_⟩
      · intro host
        rw [Selection.mem_hosts_choose]
        by_cases hh : host ∈ hosts <;> simp [Turn.host?, call_eq, hh]
      · simp [Turn.links?, call_eq, Selection.optedOut_choose]
      · intro other ho
        simp [Turn.host?, Turn.links?, call_eq, Ne.symm ho]
    · have hn : name ≠ n := by
        rintro rfl
        exact ht ((hs.coherent.nameOf_eq_iff hr).mp found)
      refine ⟨r, ?_, ?_⟩
      · rw [byName_revise, if_neg hn]
        exact hr
      · simpa [Turn.host?, Turn.links?, call_eq, ht] using r.chosen_none

/-- Hosts are accepted if the package declares them. -/
theorem Choice.declared {b : Bool} (h : s.Choice x a t) (hs : s.stores.Sound)
    (hr : s.stores.attached.byName[name]? = some (token, r)) (hm : s.host.manifest? name = some m)
    (ha : a = .done) (hb : x.host? token user host = some b) : host ∈ m.webDomains := by
  cases h with
  | rejected => cases ha
  | handled call_eq => simp [Turn.host?, call_eq] at hb
  | @selected tok hosts enabled user? n m' call_eq found resolved declared =>
    simp only [Turn.host?, call_eq, Option.ite_none_right_eq_some] at hb
    obtain ⟨⟨rfl, -, hh⟩, -⟩ := hb
    obtain rfl : name = n := Option.some.inj ((hs.coherent.nameOf_of_byName hr).symm.trans found)
    obtain rfl : m = m' := Option.some.inj (hm.symm.trans resolved)
    exact declared host hh

end Steps

section Rows

variable (hxs : ∀ x ∈ xs, x.call.isChoice = true)

include hxs

theorem agreeOn_choices (hs : s.stores.Sound) :
    AgreeOn (fun _ => False) (s.afterTurns xs) s ∧ (s.afterTurns xs).stores.Sound ∧
      (s.afterTurns xs).stores.attached.mapValues (·.unselected) =
        s.stores.attached.mapValues (·.unselected) := by
  induction xs generalizing s with
  | nil => exact ⟨.refl s, hs, rfl⟩
  | cons x xs ih =>
    rw [List.forall_mem_cons] at hxs
    have hx := choice_serve hs hxs.1
    obtain ⟨ha, hsound, hu⟩ := ih hxs.2 (sound_serve hs x)
    exact ⟨ha.trans hx.agreeOn, hsound, hu.trans hx.unselected⟩

/-- Of the record of a package a row of choices changes what its accepted calls choose last. -/
theorem chosen_afterTurns (hs : s.stores.Sound)
    (hr : s.stores.attached.byName[name]? = some (token, r)) :
    ∃ r', (s.afterTurns xs).stores.attached.byName[name]? = some (token, r') ∧
      r.Chosen
        (fun user host => Turn.lastAccepted? (·.host? token user host) (s.transcript xs))
        (fun user => Turn.lastAccepted? (·.links? name user) (s.transcript xs)) r' := by
  induction xs generalizing s r with
  | nil => exact ⟨r, hr, r.chosen_none⟩
  | cons x xs ih =>
    rw [List.forall_mem_cons] at hxs
    obtain ⟨r₁, hr₁, hc₁⟩ := (choice_serve hs hxs.1).chosen hs hr
    obtain ⟨r₂, hr₂, hc₂⟩ := ih hxs.2 (sound_serve hs x) hr₁
    refine ⟨r₂, hr₂, ?_⟩
    simpa only [transcript, Turn.lastAccepted?_cons] using hc₁.trans hc₂

/-- All hosts that a row of choices selects or takes back are declared. -/
theorem declared_of_transcript (hs : s.stores.Sound)
    (hr : s.stores.attached.byName[name]? = some (token, r)) (hm : s.host.manifest? name = some m) :
    ∀ p ∈ s.transcript xs, p.2 = .done →
      ∀ b, p.1.host? token user host = some b → host ∈ m.webDomains := by
  induction xs generalizing s r with
  | nil => simp [transcript]
  | cons x xs ih =>
    rw [List.forall_mem_cons] at hxs
    have hx := choice_serve hs hxs.1
    obtain ⟨r', hr', -⟩ := hx.chosen hs hr
    have hm' : (s.serve x).registry.host.manifest? name = some m :=
      (manifest?_congr hx.agreeOn name).trans hm
    rw [transcript, List.forall_mem_cons]
    exact ⟨fun ha b hb => hx.declared hs hr hm ha hb, ih hxs.2 (sound_serve hs x) hr' hm'⟩

end Rows

/-- What a user is shown of the hosts after choices about declared ones. -/
theorem getElem?_shown {hosts? : UserId → String → Option Bool} {links? : UserId → Option Bool}
    {r' : Record} (h : r.Chosen hosts? links? r')
    (hd : ∀ b, hosts? user host = some b → host ∈ m.webDomains) :
    (m.webDomains.mapTo false ∪ (r'.selection user).hosts.mapTo true)[host]? =
      (hosts? user host).or
        (m.webDomains.mapTo false ∪ (r.selection user).hosts.mapTo true)[host]? := by
  simp only [Std.ExtTreeMap.getElem?_union, Domains.getElem?_mapTo, h.mem_hosts_iff]
  cases hb : hosts? user host with
  | none => simp
  | some b => cases b <;> simp [hd _ hb]

/-- After a row of choices, whoever made them, whatever they were about and however many of them
were rejected, a user is shown for each host of a package what the last accepted choice about it
was, and otherwise what was shown before; likewise whether links open in the package, which they do
for a user without a selection. Besides, nothing but selections of attached packages has changed. -/
theorem last_accepted_choice_counts (platform : Platform) (policy : Policy) (calls : List Call)
    (xs : List Turn) (hxs : ∀ x ∈ xs, x.call.isChoice = true) (caller : Caller)
    (user? : Option UserId) (name : String) (token : Token) (r : Record) (m : Manifest) :
    let s := (create platform policy).after calls
    let user := user?.getD caller.user
    let ask : Turn := ⟨caller, .selection name user?⟩
    s.stores.attached.byName[name]? = some (token, r) → s.host.manifest? name = some m →
    (s.actingFor caller).authorize (.selectorFor user) = .ok () →
    let t := s.afterTurns xs
    let row := s.transcript xs
    (∃ v w : SelectionView, (s.serve ask).result = .selection (some v) ∧
      (t.serve ask).result = .selection (some w) ∧
      w.token = token ∧ w.name = name ∧ w.user = user ∧
      (∀ host : String, w.hosts[host]? =
        (Turn.lastAccepted? (·.host? token user host) row).or v.hosts[host]?) ∧
      w.openLinks = (Turn.lastAccepted? (·.links? name user) row).getD v.openLinks ∧
      (r.selections[user]? = none → v.openLinks = true)) ∧
    t.stores.attached.mapValues (·.unselected) = s.stores.attached.mapValues (·.unselected) ∧
    t.stores.pending = s.stores.pending ∧ t.stores.restored = s.stores.restored := by
  intro s user ask hr hm ha t row
  have hs : s.stores.Sound := sound_after (sound_create platform policy) calls
  obtain ⟨hagree, hsound, hkept⟩ := agreeOn_choices hxs hs
  obtain ⟨r', hr', hchosen⟩ := chosen_afterTurns hxs hs hr
  have hm' : t.host.manifest? name = some m := (manifest?_congr hagree name).trans hm
  have hat : AgreeOn (fun _ => False) (t.actingFor caller) (s.actingFor caller) :=
    { hagree with byName_eq := hagree.byName_eq }
  have ha' : (t.actingFor caller).authorize (.selectorFor user) = .ok () :=
    (authorize_congr hat rfl _).trans ha
  have hv : (s.serve ask).result = _ :=
    result_selection (s := s.actingFor caller) ha (Roster.get?_eq_some_iff.mpr ⟨token, hr⟩) hm
  have hw : (t.serve ask).result = _ :=
    result_selection (s := t.actingFor caller) ha' (Roster.get?_eq_some_iff.mpr ⟨token, hr'⟩) hm'
  refine ⟨⟨_, _, hv, hw, (hsound.each.attached hr').token_eq, rfl, rfl, fun host => ?_, ?_, ?_⟩,
    hkept, hagree.pending_eq, hagree.restored_eq⟩
  · refine getElem?_shown hchosen fun b hb => ?_
    obtain ⟨p, hp, hd, hb⟩ := Turn.exists_of_lastAccepted? hb
    exact declared_of_transcript hxs hs hr hm p hp hd b hb
  · exact hchosen.optedOut_eq user
  · intro hn
    have hu : (s.actingFor caller).userOr user? = user := rfl
    simp [hu, Record.selection, hn, Selection.empty]

/-- One user enables two hosts, takes back one of them and opts out; another user and a host that is
not declared do not count. -/
theorem last_accepted_choice_counts_sample :
    let m : Manifest := { package := "app", filters := [.web true ["a.org", "b.org"]] }
    let i : Installation := { name := "app", token? := some ⟨1⟩, manifest? := some m }
    let s := (create .default .default).after [.install i, .addPackage i]
    let own : Caller := { uid := 10100, user := 7 }
    let xs : List Turn := [⟨own, .setSelection ⟨1⟩ (.ofList ["a.org", "b.org"]) true none⟩,
      ⟨own, .setSelection ⟨1⟩ (.ofList ["a.org"]) false none⟩,
      ⟨own, .setSelection ⟨1⟩ (.ofList ["a.org", "x.org"]) true none⟩,
      ⟨own, .setLinkHandling "app" false none⟩,
      ⟨{ uid := 1000 }, .setLinkHandling "app" true (some 8)⟩]
    (∀ x ∈ xs, x.call.isChoice = true) ∧
    ∃ w : SelectionView,
      ((s.afterTurns xs).serve ⟨own, .selection "app" none⟩).result = .selection (some w) ∧
      w.hosts["a.org"]? = some false ∧ w.hosts["b.org"]? = some true ∧ w.openLinks = false := by
  intro m i s own xs
  have hxs : ∀ x ∈ xs, x.call.isChoice = true := by simp [xs, Call.isChoice]
  have hb : (s.stores.attached.byName["app"]?).map (·.1) = some ⟨1⟩ := by decide +kernel
  obtain ⟨⟨token, r⟩, hr, rfl⟩ := Option.map_eq_some_iff.mp hb
  obtain ⟨⟨v, w, -, hw, -, -, -, hhosts, hlinks, -⟩, -⟩ := last_accepted_choice_counts .default
    .default [.install i, .addPackage i] xs hxs own none "app" _ r m hr (by decide +kernel)
    (authorize_eq_ok_iff.mpr (by decide +kernel))
  have hlast (host : String) (b : Bool)
      (h : Turn.lastAccepted? (·.host? ⟨1⟩ 7 host) (s.transcript xs) = some b) :
      w.hosts[host]? = some b :=
    (hhosts host).trans (congrArg (Option.or · v.hosts[host]?) h)
  have hopen : Turn.lastAccepted? (·.links? "app" 7) (s.transcript xs) = some false := by
    decide +kernel
  exact ⟨hxs, w, hw, hlast _ _ (by decide +kernel), hlast _ _ (by decide +kernel),
    hlinks.trans (congrArg (Option.getD · v.openLinks) hopen)⟩

end Registry
end LinkTrust
