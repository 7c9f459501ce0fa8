import LinkTrust.Proofs.Manifest
import LinkTrust.Proofs.Registry.Approval

/-! # Rows of upgrades

A package that is upgraded again and again keeps what one upgrade would have kept to a version that
declares what all of them declare. So trust that one version has given up is not regained by a later
one, and a version that comes again takes nothing away.
-/

namespace LinkTrust

namespace Selection

variable {x : Selection} {ms ms' : List Manifest} {d : String}

/-- What is left of a selection after upgrades to some versions, one after the other. -/
def retainThrough (x : Selection) (ms : List Manifest) : Selection :=
  ms.foldl (fun x m => x.retain m.webDomains) x

@[simp] theorem retainThrough_nil : x.retainThrough [] = x := rfl

theorem retainThrough_append : x.retainThrough (ms ++ ms') =
    (x.retainThrough ms).retainThrough ms' := List.foldl_append

theorem eq_of_mem_hosts {hosts hosts' : Domains} (h : ∀ d, d ∈ hosts ↔ d ∈ hosts') :
    { x with hosts } = { x with hosts := hosts' } := by
  rw [Std.ExtTreeSet.ext_mem h]

theorem retainThrough_eq : x.retainThrough ms =
    { x with hosts := x.hosts.filter fun d => ms.all (·.webDomains.contains d) } := by
  induction ms generalizing x with
  | nil => exact eq_of_mem_hosts fun d => by simp
  | cons m ms ih =>
    rw [retainThrough, List.foldl_cons, ← retainThrough, ih]
    exact eq_of_mem_hosts fun d => by simp [retain, and_assoc, and_left_comm]

@[simp] theorem mem_hosts_retainThrough :
    d ∈ (x.retainThrough ms).hosts ↔ d ∈ x.hosts ∧ ∀ m ∈ ms, d ∈ m.webDomains := by
  simp [retainThrough_eq]

theorem retainThrough_congr
    (h : ∀ d : String, (∀ m ∈ ms, d ∈ m.webDomains) ↔ ∀ m ∈ ms', d ∈ m.webDomains) :
    x.retainThrough ms = x.retainThrough ms' := by
  rw [retainThrough_eq, retainThrough_eq]
  exact eq_of_mem_hosts fun d => by simp [h d]

end Selection

namespace Record

variable {r r' r'' : Record} {ms ms' : List Manifest} {new : Installation} {m : Manifest}
  {d : String}

/-- What a record keeps through some versions of its package, without approval by the platform: the
verdicts that survive upgrades on the domains that all of them ask to have verified, and of every
user's hosts those that all of them declare. -/
structure KeptThrough (r : Record) (ms : List Manifest) (r' : Record) : Prop where
  verdict_iff : ∀ (d : String) (v : Verdict), r'.verdicts[d]? = some v ↔
    r.verdicts[d]? = some v ∧ ∀ m ∈ ms, v.survivesUpgrade = true ∧ d ∈ m.autoVerifyDomains
  selection_eq : ∀ user : UserId,
    r'.selections[user]? = r.selections[user]?.map (·.retainThrough ms)

theorem keptThrough_nil : r.KeptThrough [] r where
  verdict_iff d v := by simp
  selection_eq user := by simp

theorem keptThrough_carriedRecord : r.KeptThrough [m] (Registry.carriedRecord r new m) where
  verdict_iff d v := by simp [Registry.carriedRecord, Upgrade.getElem?_carryVerdicts]
  selection_eq user := by
    simp only [Registry.carriedRecord, Upgrade.carrySelections, Std.ExtTreeMap.getElem?_map]
    rfl

theorem KeptThrough.trans (h : r.KeptThrough ms r') (h' : r'.KeptThrough ms' r'') :
    r.KeptThrough (ms ++ ms') r'' where
  verdict_iff d v := by
    rw [h'.verdict_iff, h.verdict_iff, List.forall_mem_append, and_assoc]
  selection_eq user := by
    rw [h'.selection_eq, h.selection_eq, Option.map_map]
    exact congrArg (Option.map · _) (funext fun x => Selection.retainThrough_append.symm)

section Lost

theorem KeptThrough.getElem?_verdicts_eq_none (h : r.KeptThrough ms r') (hm : m ∈ ms)
    (hd : d ∉ m.autoVerifyDomains) : r'.verdicts[d]? = none :=
  Option.eq_none_iff_forall_ne_some.mpr fun v hv => hd (((h.verdict_iff d v).mp hv).2 m hm).2

theorem KeptThrough.not_mem_hosts (h : r.KeptThrough ms r') (hm : m ∈ ms) (hd : d ∉ m.webDomains)
    {user : UserId} {x : Selection} (hx : r'.selections[user]? = some x) : d ∉ x.hosts := by
  rw [h.selection_eq] at hx
  obtain ⟨y, -, rfl⟩ := Option.map_eq_some_iff.mp hx
  exact fun hmem => hd ((Selection.mem_hosts_retainThrough.mp hmem).2 m hm)

end Lost

/-- What is kept depends only on what the versions have in common, if there are any. -/
theorem KeptThrough.eq_of_common (h : r.KeptThrough ms r') (h' : r.KeptThrough ms' r'')
    (hms : ms ≠ []) (hms' : ms' ≠ [])
    (hauto : ∀ d : String, (∀ m ∈ ms, d ∈ m.autoVerifyDomains) ↔
      ∀ m ∈ ms', d ∈ m.autoVerifyDomains)
    (hweb : ∀ d : String, (∀ m ∈ ms, d ∈ m.webDomains) ↔ ∀ m ∈ ms', d ∈ m.webDomains) :
    r''.verdicts = r'.verdicts ∧ r''.selections = r'.selections := by
  -- Without versions, verdicts that do not survive upgrades would be kept too.
  have hall {l : List Manifest} (hl : l ≠ []) (p : Prop) (q : Manifest → Prop) :
      (∀ m ∈ l, p ∧ q m) ↔ p ∧ ∀ m ∈ l, q m := by
    obtain ⟨m, hm⟩ := List.exists_mem_of_ne_nil l hl
    exact ⟨fun hp => ⟨(hp m hm).1, fun m hm => (hp m hm).2⟩, fun hp m hm => ⟨hp.1, hp.2 m hm⟩⟩
  constructor
  · apply Std.ExtTreeMap.ext_getElem?
    intro d
    apply Option.ext
    intro v
    rw [h.verdict_iff, h'.verdict_iff, hall hms, hall hms', hauto d]
  · apply Std.ExtTreeMap.ext_getElem?
    intro user
    rw [h.selection_eq, h'.selection_eq]
    exact congrArg (Option.map · _) (funext fun x => (Selection.retainThrough_congr hweb).symm)

end Record

namespace Registry

variable {s : Registry} {platform : Platform} {row : List Call} {ms : List Manifest}
  {token last : Token} {old new : Installation} {m m₀ : Manifest} {r : Record}

/-- A row of upgrades with the manifests to which they lead. Each starts from the token at which the
one before has ended, both manifests are there, and the platform does not vouch for the package. -/
inductive UpgradeRow (platform : Platform) : Token → List Call → List Manifest → Token → Prop where
  | nil {token : Token} : UpgradeRow platform token [] [] token
  | cons {old new : Installation} {m₀ m : Manifest} {row : List Call} {ms : List Manifest}
      {last : Token} (unlinked : platform.isLinked new.name = false)
      (resolvedOld : old.manifest? = some m₀) (resolved : new.manifest? = some m)
      (rest : UpgradeRow platform new.token row ms last) :
      UpgradeRow platform old.token (.migratePackage old new :: row) (m :: ms) last

theorem getByToken?_migratePackage (hs : s.stores.Sound)
    (hr : s.stores.attached.getByToken? old.token = some r)
    (hl : s.platform.isLinked new.name = false) (ho : old.manifest? = some m₀)
    (hm : new.manifest? = some m) :
    (s.migratePackage old new).registry.stores.attached.getByToken? new.token =
      some (carriedRecord r new m) := by
  have ha : s.approve (carriedRecord r new m) m.autoVerifyDomains = carriedRecord r new m :=
    if_neg (by simpa [carriedRecord] using hl)
  rw [migratePackage_of_found hr ho hm, ha]
  refine hs.coherent.removeByToken.enter.getByToken?_eq_some_iff.mpr ⟨new.name, ?_⟩
  rw [Roster.byName_enter, if_pos rfl]

theorem UpgradeRow.kept (h : UpgradeRow platform token row ms last) (hs : s.stores.Sound)
    (hp : s.platform = platform) (hr : s.stores.attached.getByToken? token = some r) :
    ∃ r' : Record, (s.after row).stores.attached.getByToken? last = some r' ∧
      r.KeptThrough ms r' := by
  induction h generalizing s r with
  | nil => exact ⟨r, hr, Record.keptThrough_nil⟩
  | @cons old new m₀ m row ms last unlinked resolvedOld resolved rest ih =>
    have hstep := getByToken?_migratePackage hs hr (hp ▸ unlinked) resolvedOld resolved
    obtain ⟨r', hr', hkept⟩ := ih ((effect_perform (.migratePackage old new)).sound hs)
      ((platform_perform _).trans hp) hstep
    exact ⟨r', hr', Record.keptThrough_carriedRecord.trans hkept⟩

/-- After every row of calls, upgrade an attached package once or more often, to versions for which
the platform does not vouch. Each upgrade starts from the token to which the one before has led, and
all manifests are there; the new tokens may be those of other packages. What the record keeps
through all versions is what a single upgrade leaves to any version that declares exactly what all
of them declare, and there is such a version. What one of them does not declare has no verdict and
is selected by nobody, even if the last one declares it. Further upgrades to the same versions
change neither verdicts nor selections. -/
theorem upgrades_keep_common_part (platform : Platform) (policy : Policy) (calls row : List Call)
    (ms : List Manifest) (token last : Token) (r : Record)
    (hr : ((create platform policy).after calls).stores.attached.getByToken? token = some r)
    (hrow : UpgradeRow platform token row ms last) (hms : ms ≠ []) :
    let s := (create platform policy).after calls
    ∃ r' : Record, (s.after row).stores.attached.getByToken? last = some r' ∧
      r.KeptThrough ms r' ∧
      (∃ m : Manifest, m.CommonTo ms) ∧
      (∀ (old new : Installation) (m : Manifest), m.CommonTo ms →
        UpgradeRow platform token [.migratePackage old new] [m] new.token →
        ∃ r'' : Record, (s.perform (.migratePackage old new)).registry.stores.attached.getByToken?
            new.token = some r'' ∧
          r''.verdicts = r'.verdicts ∧ r''.selections = r'.selections) ∧
      (∀ m ∈ ms, (∀ d : String, d ∉ m.autoVerifyDomains → r'.verdicts[d]? = none) ∧
        ∀ d : String, d ∉ m.webDomains → ∀ (user : UserId) (x : Selection),
          r'.selections[user]? = some x → d ∉ x.hosts) ∧
      ∀ (further : List Call) (ms' : List Manifest) (last' : Token),
        UpgradeRow platform last further ms' last' → (∀ m ∈ ms', m ∈ ms) →
        ∃ r'' : Record, (s.after (row ++ further)).stores.attached.getByToken? last' = some r'' ∧
          r''.verdicts = r'.verdicts ∧ r''.selections = r'.selections := by
  intro s
  have hs : s.stores.Sound := sound_after (sound_create platform policy) calls
  have hp : s.platform = platform := platform_after calls
  obtain ⟨r', hr', hkept⟩ := hrow.kept hs hp hr
  refine ⟨r', hr', hkept, Manifest.exists_commonTo hms, fun old new m hm h => ?_,
    fun m hm => ⟨?_, ?_⟩, fun further ms' last' h hsub => ?_⟩
  · obtain ⟨r'', hr'', hsingle⟩ := h.kept hs hp hr
    refine ⟨r'', hr'', hkept.eq_of_common hsingle hms (List.cons_ne_nil _ _) (fun d => ?_)
      fun d => ?_⟩
    · rw [List.forall_mem_singleton, hm.autoVerify_iff]
    · rw [List.forall_mem_singleton, hm.web_iff]
  · exact fun d hd => hkept.getElem?_verdicts_eq_none hm hd
  · exact fun d hd user x hx => hkept.not_mem_hosts hm hd hx
  · obtain ⟨r'', hr'', hmore⟩ := h.kept (sound_after hs row) ((platform_after row).trans hp) hr'
    refine ⟨r'', after_append row further ▸ hr'', ?_⟩
    have hall (q : Manifest → Prop) : (∀ m ∈ ms, q m) ↔ ∀ m ∈ ms ++ ms', q m := by
      rw [List.forall_mem_append]
      exact ⟨fun hq => ⟨hq, fun m hm => hq m (hsub m hm)⟩, fun hq => hq.1⟩
    exact hkept.eq_of_common (hkept.trans hmore) hms (List.append_ne_nil_of_left_ne_nil hms _)
      (fun d => hall _) fun d => hall _

/-- A package drops its domain and declares it again. Neither the verdict on it nor the choice of
the user comes back. -/
theorem upgrades_keep_common_part_sample :
    let calls : List Call := [.install .sample, .addPackage .sample,
      .setSelection ⟨1⟩ (.ofList ["a.org"]) true (some 7)]
    let dropped : Installation :=
      { name := "app", token? := some ⟨2⟩
        manifest? := some { package := "app", filters := [.web true ["b.org"]] } }
    let back : Installation :=
      { name := "app", token? := some ⟨3⟩
        manifest? := some { package := "app", filters := [.web true ["a.org", "b.org"]] } }
    let s := (create .default .openToAll).after calls
    (s.stores.attached.getByToken? ⟨1⟩).map (fun r =>
        (r.verdicts["a.org"]?, (r.selection 7).hosts)) =
      some (some .migrated, .ofList ["a.org"]) ∧
    ∃ r' : Record, (s.after [.migratePackage .sample dropped,
        .migratePackage dropped back]).stores.attached.getByToken? ⟨3⟩ = some r' ∧
      r'.verdicts["a.org"]? = none ∧
      ∀ (user : UserId) (x : Selection), r'.selections[user]? = some x → "a.org" ∉ x.hosts := by
  intro calls dropped back s
  have hbefore : (s.stores.attached.getByToken? ⟨1⟩).map (fun r =>
      (r.verdicts["a.org"]?, (r.selection 7).hosts)) =
        some (some .migrated, .ofList ["a.org"]) := by decide +kernel
  obtain ⟨r, hr, -⟩ := Option.map_eq_some_iff.mp hbefore
  let ms : List Manifest := [{ package := "app", filters := [.web true ["b.org"]] },
    { package := "app", filters := [.web true ["a.org", "b.org"]] }]
  have hrow : UpgradeRow .default Installation.sample.token [.migratePackage .sample dropped,
      .migratePackage dropped back] ms back.token :=
    .cons rfl rfl rfl (.cons rfl rfl rfl .nil)
  obtain ⟨r', hr', -, -, -, hlost, -⟩ := upgrades_keep_common_part .default .openToAll calls _ ms
    ⟨1⟩ ⟨3⟩ r hr hrow (List.cons_ne_nil _ _)
  obtain ⟨hv, hx⟩ := hlost _ List.mem_cons_self
  exact ⟨hbefore, r', hr', hv "a.org" (by decide +kernel), hx "a.org" (by decide +kernel)⟩

end Registry
end LinkTrust
