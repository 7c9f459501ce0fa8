import LinkTrust.Proofs.Registry.Coherence
import LinkTrust.Proofs.Registry.Runs

/-! # What was passed last

What a package declares is said by the installation with which it was attached last, when it was
added or upgraded. Here the record of every attached package is held against that installation.
Until the package is attached anew only its record can change, so the two come apart in these ways
alone: by a call that changes the record, or by one that attaches a record which does not fit.
-/

namespace LinkTrust

namespace Call

variable {call : Call} {calls : List Call} {i : Installation} {name : String}

/-- The installation with which a call attaches a package. One that is added without a token is
ignored. -/
def attaches? : Call → Option Installation
  | addPackage i => if i.token.isNil then none else some i
  | migratePackage _ new => some new
  | _ => none

theorem attaches?_addPackage (h : i.token.isNil = false) : (addPackage i).attaches? = some i := by
  simp [attaches?, h]

/-- The installation with which a package was attached last. -/
def latest? (calls : List Call) (name : String) : Option Installation :=
  calls.reverse.findSome? fun call => call.attaches?.filter (·.name = name)

theorem latest?_concat_of_some (h : call.attaches? = some i) :
    latest? (calls ++ [call]) name = if i.name = name then some i else latest? calls name := by
  by_cases hn : i.name = name <;> simp [latest?, h, hn]

theorem latest?_concat_of_none (h : call.attaches? = none) :
    latest? (calls ++ [call]) name = latest? calls name := by
  simp [latest?, h]

/-- The call is one of the verifier, of a user, or of whoever asks about a package. -/
def isExternal : Call → Bool
  | verifiedNames => true
  | verificationSet _ => true
  | setVerdict .. => true
  | setLinkHandling .. => true
  | setSelection .. => true
  | selection .. => true
  | _ => false

/-- The call brings a document that was written before. -/
def bringsDocument : Call → Bool
  | readState _ => true
  | restoreState _ => true
  | _ => false

end Call

theorem Installation.autoVerifyDomains_eq {i : Installation} {m : Manifest}
    (h : i.manifest? = some m) : i.autoVerifyDomains = m.autoVerifyDomains := by
  rw [autoVerifyDomains, h]
  rfl

namespace Registry

variable {s : Registry} {call : Call} {calls : List Call} {i : Installation} {name : String}
  {P : Installation → Record → Prop}

/-- For each attached package, the manifest at the host, if it can be resolved, is the one with
which the package was attached last. -/
def UpToDate (s : Registry) (calls : List Call) : Prop :=
  ∀ (name : String) (m : Manifest), s.stores.attached.contains name = true →
    s.host.manifest? name = some m → (Call.latest? calls name).bind (·.manifest?) = some m

/-- Whenever a call of a row comes from outside, the manifests of attached packages at the host are
the ones with which they were attached last. -/
def Informed (s : Registry) (calls : List Call) : Prop :=
  ∀ (earlier : List Call) (call : Call) (later : List Call), calls = earlier ++ call :: later →
    call.isExternal = true → (s.after earlier).UpToDate earlier

theorem UpToDate.exists_latest {m : Manifest} (h : s.UpToDate calls)
    (ha : s.stores.attached.contains name = true) (hm : s.host.manifest? name = some m) :
    ∃ i, Call.latest? calls name = some i ∧ i.manifest? = some m :=
  Option.bind_eq_some_iff.mp (h name m ha hm)

theorem informed_iff : s.Informed calls ↔ ∀ k : Fin calls.length, calls[k].isExternal = true →
    (s.after (calls.take k)).UpToDate (calls.take k) := by
  constructor
  · intro h k
    refine h (calls.take k) calls[k] (calls.drop (k + 1)) ?_
    rw [Fin.getElem_fin, ← List.drop_eq_getElem_cons k.isLt, List.take_append_drop]
  · rintro h earlier call later rfl he
    have hk := h ⟨earlier.length, by simp⟩
    simp only [Fin.getElem_fin, List.getElem_append_right, Nat.le_refl, Nat.sub_self,
      List.getElem_cons_zero, List.take_left] at hk
    exact hk he

section Decisions

theorem upToDate_iff : s.UpToDate calls ↔ ∀ name ∈ s.stores.attached.byName.keys,
    ∀ m ∈ s.host.manifest? name, (Call.latest? calls name).bind (·.manifest?) = some m := by
  simp only [Std.ExtTreeMap.mem_keys, ← Std.ExtTreeMap.contains_iff_mem]
  exact ⟨fun h name hn m hm => h name m hn hm, fun h name m hn hm => h name hn m hm⟩

instance : Decidable (s.UpToDate calls) := decidable_of_iff' _ upToDate_iff

instance : Decidable (s.Informed calls) := decidable_of_iff' _ informed_iff

end Decisions

/-- Every attached record has the property together with the installation with which its package was
attached last. -/
def FitsLatest (P : Installation → Record → Prop) (calls : List Call) (s : Registry) : Prop :=
  s.stores.Each (fun name _ r => ∃ i, Call.latest? calls name = some i ∧ P i r) fun _ _ => True

theorem fitsLatest_iff : s.FitsLatest P calls ↔ ∀ p ∈ s.stores.attached.byName.toList,
    ∃ i ∈ Call.latest? calls p.1, P i p.2.2 := by
  constructor
  · rintro h ⟨n, t, r⟩ hp
    exact h.attached (Std.ExtTreeMap.mem_toList_iff_getElem?_eq_some.mp hp)
  · intro h
    refine ⟨fun {n t r} hr => ?_, fun _ => trivial, fun _ => trivial⟩
    exact h (n, t, r) (Std.ExtTreeMap.mem_toList_iff_getElem?_eq_some.mpr hr)

instance [∀ i r, Decidable (P i r)] : Decidable (s.FitsLatest P calls) :=
  decidable_of_iff' _ fitsLatest_iff

theorem fitsLatest_create (platform : Platform) (policy : Policy) :
    (create platform policy).FitsLatest P [] :=
  ⟨fun hn => by simp [create] at hn, fun _ => trivial, fun _ => trivial⟩

theorem FitsLatest.of_get? {r : Record} (h : s.FitsLatest P calls)
    (hr : s.stores.attached.get? name = some r) (hi : Call.latest? calls name = some i) :
    P i r := by
  obtain ⟨token, hr⟩ := Roster.get?_eq_some_iff.mp hr
  obtain ⟨i', hi', hp⟩ := h.attached hr
  exact Option.some.inj (hi'.symm.trans hi) ▸ hp

/-- All along a row of calls the attached records fit exactly if each call leaves them so. -/
theorem forall_fitsLatest_iff (platform : Platform) (policy : Policy) (calls : List Call)
    {Q : Registry → List Call → Call → Prop}
    (step : ∀ earlier call later, calls = earlier ++ call :: later →
      ((create platform policy).after earlier).FitsLatest P earlier →
      ((((create platform policy).after earlier).perform call).registry.FitsLatest P
        (earlier ++ [call]) ↔ Q ((create platform policy).after earlier) earlier call)) :
    (∀ earlier later, calls = earlier ++ later →
      ((create platform policy).after earlier).FitsLatest P earlier) ↔
    ∀ earlier call later, calls = earlier ++ call :: later →
      Q ((create platform policy).after earlier) earlier call := by
  refine Collections.forall_beginnings_iff (fitsLatest_create platform policy) ?_
  intro earlier call later he h
  rw [after_append]
  exact step earlier call later he h

theorem forall_fitsLatest (platform : Platform) (policy : Policy) (calls : List Call)
    (step : ∀ earlier call later, calls = earlier ++ call :: later →
      ((create platform policy).after earlier).FitsLatest P earlier →
      (((create platform policy).after earlier).perform call).registry.FitsLatest P
        (earlier ++ [call])) :
    ∀ earlier later, calls = earlier ++ later →
      ((create platform policy).after earlier).FitsLatest P earlier :=
  (forall_fitsLatest_iff platform policy calls (Q := fun _ _ _ => True)
    fun earlier call later he h => iff_of_true (step earlier call later he h) trivial).mpr
    fun _ _ _ _ => trivial

section Tokens

variable {token : Token} {r : Record}

/-- What is changed under a token has to fit the installation of the package that has the token. -/
theorem FitsLatest.modifyByToken {f : Record → Record} (h : s.FitsLatest P calls)
    (hs : s.stores.Sound) (hr : s.stores.attached.getByToken? token = some r)
    (hf : ∀ i, Call.latest? calls r.name = some i → P i r → P i (f r)) :
    (s.stores.withAttached (s.stores.attached.modifyByToken token f)).Each
      (fun name _ r => ∃ i, Call.latest? calls name = some i ∧ P i r) fun _ _ => True := by
  refine Stores.Each.modifyByToken h fun n t r' hn hr' => ?_
  obtain ⟨i, hi, hp⟩ := h.attached hr'
  obtain ⟨n', hn', hg⟩ := Roster.getByToken?_eq_some_iff.mp hr
  obtain rfl : n' = n := Option.some.inj (hn'.symm.trans hn)
  obtain rfl : r' = r :=
    Option.some.inj ((Roster.get?_eq_some_iff.mpr ⟨t, hr'⟩).symm.trans hg)
  exact ⟨i, hi, hf i ((hs.each.attached hr').name_eq ▸ hi) hp⟩

/-- The domains of a call that is not rejected are declared by the installation of the package. -/
theorem UpToDate.declared_of_resolve {ds : Domains} {kind : DomainKind} (h : s.UpToDate calls)
    (hs : s.stores.Sound) (hr : s.resolve token ds kind = .ok r)
    (hi : Call.latest? calls r.name = some i) :
    ∃ m, i.manifest? = some m ∧ ∀ d ∈ ds, d ∈ m.declared kind := by
  obtain ⟨-, hf, m, hm, -, hd⟩ := resolve_eq_ok_iff.mp hr
  obtain ⟨n, hn⟩ := hs.coherent.getByToken?_eq_some_iff.mp hf
  obtain rfl := (hs.each.attached hn).name_eq
  obtain ⟨j, hj, hjm⟩ := h.exists_latest (Roster.contains_iff.mpr ⟨token, r, hn⟩) hm
  exact ⟨m, Option.some.inj (hj.symm.trans hi) ▸ hjm, Domains.subset_iff.mp hd⟩

end Tokens

section Arrivals

/-- When a package is attached, no other package comes to be attached or changes. -/
theorem byName_of_attaches (hc : call.attaches? = some i) (hn : name ≠ i.name) {p : Token × Record}
    (h : (s.perform call).registry.stores.attached.byName[name]? = some p) :
    s.stores.attached.byName[name]? = some p := by
  cases call with
  | addPackage j =>
    obtain ⟨ht, rfl⟩ : j.token.isNil = false ∧ j = i := by simpa [Call.attaches?] using hc
    rw [perform, registry_map, addPackage_of_nonnil ht, stores_conclude] at h
    exact Roster.byName_of_enter h hn
  | migratePackage old j =>
    cases hc
    obtain ⟨r, hr, -⟩ := exists_stores_migratePackage (s := s) old i
    rw [perform, registry_map, hr] at h
    exact Roster.byName_of_removeByToken (Roster.byName_of_enter h hn)
  | _ => cases hc

/-- When a package is attached, only its own record has to fit anew. -/
theorem fitsLatest_attaches_iff (hc : call.attaches? = some i) (h : s.FitsLatest P calls) :
    (s.perform call).registry.FitsLatest P (calls ++ [call]) ↔
      ∀ (token : Token) (r : Record),
        (s.perform call).registry.stores.attached.byName[i.name]? = some (token, r) → P i r := by
  constructor
  · intro hx token r hr
    obtain ⟨j, hj, hp⟩ := hx.attached hr
    rw [Call.latest?_concat_of_some hc, if_pos rfl] at hj
    exact Option.some.inj hj ▸ hp
  · intro hp
    refine ⟨fun {n t r} hr => ?_, fun _ => trivial, fun _ => trivial⟩
    rw [Call.latest?_concat_of_some hc]
    by_cases hn : n = i.name
    · subst hn
      exact ⟨i, if_pos rfl, hp t r hr⟩
    · rw [if_neg (Ne.symm hn)]
      exact h.attached (byName_of_attaches hc hn hr)

theorem fitsLatest_addPackage_iff (hn : i.token.isNil = false) (h : s.FitsLatest P calls) :
    (s.perform (.addPackage i)).registry.FitsLatest P (calls ++ [.addPackage i]) ↔
      P i (s.attachedRecord i) := by
  rw [fitsLatest_attaches_iff (Call.attaches?_addPackage hn) h, perform, registry_map,
    addPackage_of_nonnil hn, stores_conclude]
  simp [Stores.attach, Roster.byName_enter]

/-- An upgrade enters a blank record or one that was carried over. -/
theorem FitsLatest.migratePackage (h : s.FitsLatest P calls) (old : Installation)
    (blank : P i (blankRecord i))
    (carried : ∀ (r : Record) (m : Manifest), i.manifest? = some m →
      P i (s.approve (carriedRecord r i m) m.autoVerifyDomains)) :
    (s.perform (.migratePackage old i)).registry.FitsLatest P
      (calls ++ [.migratePackage old i]) := by
  rw [fitsLatest_attaches_iff rfl h, perform, registry_map]
  obtain ⟨r, hr, he⟩ := exists_stores_migratePackage (s := s) old i
  rw [hr]
  simp only [Stores.withAttached, Roster.byName_enter, if_true, Option.some.injEq, Prod.mk.injEq]
  rintro token r' ⟨-, rfl⟩
  rcases he with rfl | ⟨r₀, m, hm, rfl⟩
  · exact blank
  · exact carried r₀ m hm

theorem fitsLatest_concat_of_none (hc : call.attaches? = none) :
    s.FitsLatest P (calls ++ [call]) ↔ s.FitsLatest P calls := by
  simp only [FitsLatest, Call.latest?_concat_of_none hc]

end Arrivals

section Changes

/-- The property is kept when a user is forgotten, when verdicts on auto-verify domains are
recorded, and when a user's selection gains declared hosts at most. -/
structure RespectsManifest (P : Installation → Record → Prop) : Prop where
  removeUser : ∀ {i : Installation} {r : Record} (user : UserId), P i r → P i (r.removeUser user)
  assign : ∀ {i : Installation} {r : Record} {ds : Domains} {v : Verdict},
    (∀ d ∈ ds, d ∈ i.autoVerifyDomains) → P i r → P i (r.assign ds v)
  select : ∀ {i : Installation} {r : Record} {user : UserId} {f : Selection → Selection},
    (∀ m, i.manifest? = some m → ∀ x ∈ (f (r.selection user)).hosts,
      x ∈ (r.selection user).hosts ∨ x ∈ m.webDomains) → P i r → P i (r.select user f)

/-- A call that attaches no package and brings no document changes records within the manifest. -/
theorem Effect.fitsLatest {x : Stores} (he : s.Effect call x) (hP : RespectsManifest P)
    (hc : call.attaches? = none) (hd : call.bringsDocument = false) (hs : s.stores.Sound)
    (hu : call.isExternal = true → s.UpToDate calls) (h : s.FitsLatest P calls) :
    x.Each (fun name _ r => ∃ i, Call.latest? calls name = some i ∧ P i r) fun _ _ => True := by
  cases he with
  | idle => exact h
  | added nonnil => simp [Call.attaches?, nonnil] at hc
  | upgraded => cases hc
  | restarted => cases hc
  | removed => exact h.remove
  | @userRemoved user =>
    refine h.removeUser ?_ fun _ _ hr => hr
    rintro n t r ⟨i, hi, hp⟩
    exact ⟨i, hi, hP.removeUser user hp⟩
  | read => cases hd
  | restored => cases hd
  | @reported token ds v r accepted =>
    have hr := (reportable_eq_ok_iff.mp accepted).2.2
    refine h.modifyByToken hs (resolve_eq_ok_iff.mp hr).2.1 fun i hi hp => hP.assign ?_ hp
    obtain ⟨m, hm, hds⟩ := (hu rfl).declared_of_resolve hs hr hi
    intro d hd
    rw [Installation.autoVerifyDomains_eq hm]
    exact hds d (Std.ExtTreeSet.mem_filter.mp hd).1
  | linkHandlingSet =>
    refine Stores.Each.modify h ?_
    rintro t r ⟨i, hi, hp⟩
    exact ⟨i, hi, hP.select (fun _ _ _ hx => .inl hx) hp⟩
  | @selected token hosts enabled user? r accepted =>
    have hr := (selectable_eq_ok_iff.mp accepted).2
    refine h.modifyByToken hs (resolve_eq_ok_iff.mp hr).2.1 fun i hi hp => hP.select ?_ hp
    obtain ⟨m, hm, hds⟩ := (hu rfl).declared_of_resolve hs hr hi
    intro m' hm' x hx
    obtain rfl : m = m' := Option.some.inj (hm.symm.trans hm')
    cases enabled with
    | true =>
      simp only [if_true, Selection.enable, Std.ExtTreeSet.mem_union_iff] at hx
      exact hx.imp_right (hds x)
    | false =>
      simp only [Bool.false_eq_true, if_false, Selection.disable, Std.ExtTreeSet.mem_diff_iff] at hx
      exact .inl hx.1

end Changes

end Registry
end LinkTrust
