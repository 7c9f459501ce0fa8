import LinkTrust.Proofs.Registry.Effect
import LinkTrust.Proofs.Registry.Snapshot

/-! # Reboots

What was written before a reboot is read into a new registry, and then the packages are added again,
in any order. The records are back where they were, and the agent has been left alone. On the way
there the records of the packages that are still to be added wait for them.
-/

namespace LinkTrust

namespace Stores

/-- Every attached package has a token, and no other record waits for it. -/
def Settled (s : Stores) : Prop :=
  ∀ (name : String) (token : Token) (r : Record), s.attached.byName[name]? = some (token, r) →
    token.isNil = false ∧ s.pending[name]? = none ∧ s.restored[name]? = none

/-- The installation is one of the attached package of its name: it has the token of the package,
and domains to verify exactly if the record says so. The platform does not approve its links. -/
def Knows (s : Stores) (platform : Platform) (i : Installation) : Prop :=
  platform.isLinked i.name = false ∧ ∃ r : Record,
    s.attached.byName[i.name]? = some (i.token, r) ∧ r.autoVerify = !i.autoVerifyDomains.isEmpty

/-- On the way to the stores `s`, with some packages still to be added. -/
structure Nears (x s : Stores) (names : List String) : Prop where
  coherent : x.attached.Coherent
  attached : ∀ n : String,
    x.attached.byName[n]? = if n ∈ names then none else s.attached.byName[n]?
  pending : ∀ n : String,
    x.pending[n]? = if n ∈ names then s.attached.get? n else s.pending[n]?
  restored : x.restored = s.restored

variable {s x : Stores} {names : List String} {name : String}

theorem Settled.apart (h : s.Settled) : s.Apart := fun n t r hr => (h n t r hr).2.1

/-- With all packages added the stores are reached. -/
theorem Nears.eq (h : x.Nears s []) (hs : s.Sound) : x = s := by
  have ha : x.attached = s.attached := by
    refine h.coherent.ext hs.coherent (Std.ExtTreeMap.ext_getElem? fun n => ?_)
    simp [h.attached n]
  have hp : x.pending = s.pending := by
    apply Std.ExtTreeMap.ext_getElem?
    intro n
    simp [h.pending n]
  cases x
  cases s
  simp only [Stores.mk.injEq]
  exact ⟨ha, hp, h.restored⟩

/-- A package that has its old token takes it from no other one that is attached. -/
theorem Nears.nameOf_ne {token : Token} {r : Record} (h : x.Nears s names) (hs : s.Sound)
    (hr : s.attached.byName[name]? = some (token, r)) {n : String} (hn : n ≠ name) :
    x.attached.nameOf[token]? ≠ some n := by
  intro ht
  obtain ⟨r', hr'⟩ := (h.coherent token n).mp ht
  rw [h.attached n] at hr'
  split at hr'
  · cases hr'
  · have he := (hs.coherent.nameOf_of_byName hr').symm.trans (hs.coherent.nameOf_of_byName hr)
    exact hn (Option.some.inj he)

theorem Nears.attach {token : Token} {r : Record} (h : x.Nears s (name :: names)) (hs : s.Sound)
    (hd : s.Settled) (hn : name ∉ names) (hr : s.attached.byName[name]? = some (token, r)) :
    ((x.settle name).attach name token r).Nears s names := by
  obtain ⟨-, hp, hw⟩ := hd name token r hr
  refine ⟨h.coherent.enter, fun n => ?_, fun n => ?_, ?_⟩
  · rw [byName_attach_settle]
    by_cases he : n = name
    · subst he
      rw [if_pos rfl, if_neg hn, hr]
    · rw [if_neg he, if_neg (h.nameOf_ne hs hr he), h.attached n]
      simp [he]
  · rw [pending_attach_settle]
    by_cases he : name = n
    · subst he
      rw [if_pos rfl, if_neg hn, hp]
    · rw [if_neg he, h.pending n]
      simp [Ne.symm he]
  · apply Std.ExtTreeMap.ext_getElem?
    intro n
    rw [restored_attach_settle, h.restored]
    by_cases he : name = n
    · subst he
      rw [if_pos rfl, hw]
    · rw [if_neg he]

/-- Reading the snapshot into empty stores is the first part of the way. -/
theorem Sound.nears_read (hs : s.Sound) (hd : s.Settled)
    (hn : names.Perm s.attached.byName.keys) : (({} : Stores).read s.snapshot).Nears s names := by
  have hm (n : String) : n ∈ names ↔ s.attached.byName[n]?.isSome = true := by
    rw [hn.mem_iff, Std.ExtTreeMap.mem_keys, Std.ExtTreeMap.mem_iff_isSome_getElem?]
  obtain ⟨w, hw, hp⟩ := hs.read_snapshot hd.apart
  rw [hw]
  refine ⟨Roster.coherent_empty, fun n => ?_, fun n => ?_, rfl⟩
  · cases hr : s.attached.byName[n]? <;> simp [hm, hr]
  · simp only [hp, Roster.get?, hm]
    cases hr : s.attached.byName[n]? <;> simp

end Stores

namespace Registry

variable {s : Stores} {x new : Registry} {i : Installation}

/-- The record that waited for a package is taken as it is. -/
theorem attachedRecord_of_pending {r : Record} (hp : x.stores.pending[i.name]? = some r)
    (hl : x.platform.isLinked r.name = false) (ht : r.token = i.token)
    (ha : r.autoVerify = !i.autoVerifyDomains.isEmpty) :
    x.attachedRecord i = r ∧ x.isAskedAbout i = false := by
  have ho : (x.stores.origin i.name).record? = some r := by
    rw [Stores.record?_origin, hp, Option.some_or]
  have h := attachedRecord_of_awaited ho hl
  rwa [← ht, ← ha] at h

/-- Adding a known package is one step of the way, and the agent hears nothing of it. -/
theorem nears_addPackage {names : List String} (h : x.stores.Nears s (i.name :: names))
    (hs : s.Sound) (hd : s.Settled) (hn : i.name ∉ names) (hi : s.Knows x.platform i) :
    (x.addPackage i).registry.stores.Nears s names ∧
      (x.addPackage i).registry.platform = x.platform ∧
      (x.addPackage i).registry.agent = x.agent := by
  obtain ⟨hl, r, hr, ha⟩ := hi
  have hu := hs.each.attached hr
  have hp : x.stores.pending[i.name]? = some r := by
    rw [h.pending, if_pos (List.mem_cons_self ..)]
    exact Roster.get?_eq_some_iff.mpr ⟨_, hr⟩
  obtain ⟨hrec, hask⟩ := attachedRecord_of_pending hp (hu.name_eq ▸ hl) hu.token_eq ha
  have hnil : ¬i.token.isNil = true := by
    simp [(hd i.name i.token r hr).1]
  have he := h.attach hs hd hn hr
  rw [← hrec] at he
  unfold addPackage
  rw [if_neg hnil, hask]
  exact ⟨he, rfl, rfl⟩

theorem after_addPackages (is : List Installation) (h : x.stores.Nears s (is.map (·.name)))
    (hs : s.Sound) (hd : s.Settled) (hn : (is.map (·.name)).Nodup)
    (hi : ∀ i ∈ is, s.Knows x.platform i) :
    (x.after (is.map .addPackage)).stores = s ∧
      (x.after (is.map .addPackage)).agent = x.agent := by
  induction is generalizing x with
  | nil => exact ⟨h.eq hs, rfl⟩
  | cons i is ih =>
    rw [List.map_cons, List.nodup_cons] at hn
    obtain ⟨he, hpl, hag⟩ := nears_addPackage h hs hd hn.1 (hi i (List.mem_cons_self ..))
    obtain ⟨hst, hag'⟩ := ih (x := (x.addPackage i).registry) he hn.2 fun j hj =>
      hpl ▸ hi j (List.mem_cons_of_mem i hj)
    exact ⟨hst, hag'.trans hag⟩

/-- What is written is read into a new registry, and the packages are added again, each once and in
any order: all records are back, and the agent has not been asked about any package. -/
theorem reboot_restores_stores (platform : Platform) (policy : Policy) (calls : List Call)
    (hd : ((create platform policy).after calls).stores.Settled) (new : Registry)
    (hnew : new.stores = {}) (is : List Installation)
    (hn : (is.map (·.name)).Perm ((create platform policy).after calls).stores.attached.byName.keys)
    (hi : ∀ i ∈ is, ((create platform policy).after calls).stores.Knows new.platform i) :
    ∃ text : Bytes,
      (((create platform policy).after calls).perform (.writeState {})).result = .text text ∧
      (new.after (.readState { bytes := text } :: is.map .addPackage)).stores =
        ((create platform policy).after calls).stores ∧
      (new.after (.readState { bytes := text } :: is.map .addPackage)).agent = new.agent := by
  have hs := sound_after (sound_create platform policy) calls
  generalize (create platform policy).after calls = s at *
  refine ⟨s.stores.snapshot.encode, ?_, ?_⟩
  · simp [perform, writeState, Document.writeTo_default, Reply.map, Answer.ofExcept]
  · have hr : (new.readState { bytes := s.stores.snapshot.encode }).registry =
        { new with stores := ({} : Stores).read s.stores.snapshot } := by
      simp [readState, Document.readFrom_encode hs.canonical_snapshot, hnew]
    rw [after_cons, perform, registry_map, hr]
    exact after_addPackages (x := { new with stores := ({} : Stores).read s.stores.snapshot }) is
      (hs.nears_read hd hn) hs hd (hn.nodup_iff.mpr Std.ExtTreeMap.nodup_keys) hi

/-- A registry with one package, in which one user does not want links to open. -/
def sample : Registry :=
  (create .default .openToAll).after [.addPackage .sample, .setLinkHandling "app" false (some 7)]

theorem keys_sample : sample.stores.attached.byName.keys = ["app"] := by
  decide +kernel

theorem entry_sample : (sample.stores.attached.byName["app"]?.map fun p =>
    (p.1, p.2.autoVerify)) = some (⟨1⟩, true) := by
  decide +kernel

theorem settled_sample : sample.stores.Settled := by
  intro name token r hr
  have hn : name ∈ ["app"] := by
    rw [← keys_sample, Std.ExtTreeMap.mem_keys, Std.ExtTreeMap.mem_iff_isSome_getElem?, hr]
    rfl
  obtain rfl := List.mem_singleton.mp hn
  have ht := entry_sample
  rw [hr] at ht
  obtain ⟨rfl, -⟩ := Prod.mk.inj (Option.some.inj ht)
  exact ⟨by decide, by decide +kernel, by decide +kernel⟩

/-- The package is added again while an agent is there, which is not asked about it. -/
theorem reboot_restores_stores_sample : ∃ text : Bytes,
    (sample.perform (.writeState {})).result = .text text ∧
    (({ create .default .openToAll with agent := .connect none } : Registry).after
      [.readState { bytes := text }, .addPackage .sample]).stores = sample.stores ∧
    (({ create .default .openToAll with agent := .connect none } : Registry).after
      [.readState { bytes := text }, .addPackage .sample]).agent = .connect none := by
  refine reboot_restores_stores .default .openToAll
    [.addPackage .sample, .setLinkHandling "app" false (some 7)] settled_sample
    { create .default .openToAll with agent := .connect none } rfl [.sample] ?_ ?_
  · exact .of_eq keys_sample.symm
  · intro i hi
    obtain rfl := List.mem_singleton.mp hi
    obtain ⟨⟨token, r⟩, hr, he⟩ := Option.map_eq_some_iff.mp entry_sample
    obtain ⟨rfl, ha⟩ := Prod.mk.inj he
    have hd : (!Installation.sample.autoVerifyDomains.isEmpty) = true := by decide +kernel
    exact ⟨by decide, r, hr, ha.trans hd.symm⟩

end Registry
end LinkTrust
