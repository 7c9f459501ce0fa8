import LinkTrust.Proofs.Registry.Requests
import Mathlib.Data.List.Induction
import Mathlib.Data.List.Nodup

/-! # The order in which packages are added

When packages without a common name or token are added one after the other, each of them is attached
as it would be alone, whatever the names and the tokens stood for before. So nothing depends on the
order in which a device lists its packages when it starts.
-/

namespace LinkTrust

namespace Installation

variable {is js : List Installation} {i : Installation}

/-- The packages have tokens, and no two of them a common name or token. -/
structure Distinct (is : List Installation) : Prop where
  names : (is.map name).Nodup
  tokens : (is.map token).Nodup
  nonnil : ∀ i ∈ is, i.token.isNil = false

theorem Distinct.perm (h : Distinct is) (hp : is.Perm js) : Distinct js :=
  ⟨(hp.map name).nodup_iff.mp h.names, (hp.map token).nodup_iff.mp h.tokens,
    fun i hi => h.nonnil i (hp.mem_iff.mpr hi)⟩

theorem Distinct.left (h : Distinct (is ++ js)) : Distinct is := by
  obtain ⟨hn, ht, hnil⟩ := h
  rw [List.map_append] at hn ht
  exact ⟨hn.of_append_left, ht.of_append_left, fun i hi => hnil i (List.mem_append_left js hi)⟩

theorem Distinct.ne_of_mem (h : Distinct (is ++ [i])) :
    ∀ j ∈ is, j.name ≠ i.name ∧ j.token ≠ i.token := by
  obtain ⟨hn, ht, -⟩ := h
  rw [List.map_append, List.nodup_append] at hn ht
  exact fun j hj => ⟨hn.2.2 _ (List.mem_map_of_mem hj) _ (List.mem_singleton_self _),
    ht.2.2 _ (List.mem_map_of_mem hj) _ (List.mem_singleton_self _)⟩

end Installation

namespace Registry

variable {s t : Registry} {i : Installation} {is js : List Installation} {x x' : Stores}

/-- What is left of the stores once some packages are added: each of them is attached as it would be
alone, every other one that has not lost its token to one of them stays, and nothing waits for any
of them. -/
structure Booted (s : Registry) (is : List Installation) (x : Stores) : Prop where
  added : ∀ i ∈ is, x.attached.byName[i.name]? = some (i.token, s.attachedRecord i)
  others : ∀ name : String, (∀ i ∈ is, i.name ≠ name) → x.attached.byName[name]? =
    if ∃ i ∈ is, s.stores.attached.nameOf[i.token]? = some name then none
    else s.stores.attached.byName[name]?
  pending : ∀ name : String,
    x.pending[name]? = if ∃ i ∈ is, i.name = name then none else s.stores.pending[name]?
  restored : ∀ name : String,
    x.restored[name]? = if ∃ i ∈ is, i.name = name then none else s.stores.restored[name]?

/-- What is left depends only on which packages are added. -/
theorem Booted.unique (h : s.Booted is x) (h' : s.Booted js x') (hx : x.Sound) (hx' : x'.Sound)
    (hmem : ∀ i, i ∈ is ↔ i ∈ js) : x = x' := by
  have hattached : x.attached = x'.attached := by
    refine hx.coherent.ext hx'.coherent (Std.ExtTreeMap.ext_getElem? fun name => ?_)
    by_cases hn : ∃ i ∈ is, i.name = name
    · obtain ⟨i, hi, rfl⟩ := hn
      rw [h.added i hi, h'.added i ((hmem i).mp hi)]
    · have hn : ∀ i ∈ is, i.name ≠ name := fun i hi he => hn ⟨i, hi, he⟩
      rw [h.others name hn, h'.others name fun i hi => hn i ((hmem i).mpr hi)]
      simp only [hmem]
  have hpending : x.pending = x'.pending := by
    refine Std.ExtTreeMap.ext_getElem? fun name => ?_
    rw [h.pending, h'.pending]
    simp only [hmem]
  have hrestored : x.restored = x'.restored := by
    refine Std.ExtTreeMap.ext_getElem? fun name => ?_
    rw [h.restored, h'.restored]
    simp only [hmem]
  obtain ⟨attached, pending, restored⟩ := x
  cases hattached
  cases hpending
  cases hrestored
  rfl

section Origins

theorem startingRecord_congr (ho : t.stores.origin i.name = s.stores.origin i.name) :
    t.startingRecord i = s.startingRecord i := by
  rw [startingRecord, startingRecord, ho]

theorem attachedRecord_congr (hp : t.platform = s.platform)
    (ho : t.stores.origin i.name = s.stores.origin i.name) :
    t.attachedRecord i = s.attachedRecord i := by
  simp only [attachedRecord, approve, startingRecord_congr ho, hp, ho]

theorem isAskedAbout_congr (hp : t.platform = s.platform)
    (ho : t.stores.origin i.name = s.stores.origin i.name) :
    t.isAskedAbout i = s.isAskedAbout i := by
  simp only [isAskedAbout, startingRecord_congr ho, hp, ho]

/-- A package that is not among those that were added finds what has waited for it. -/
theorem Booted.origin_eq (h : s.Booted is x) (hi : ∀ j ∈ is, j.name ≠ i.name) :
    x.origin i.name = s.stores.origin i.name := by
  have hn : ¬∃ j ∈ is, j.name = i.name := fun ⟨j, hj, he⟩ => hi j hj he
  simp only [Stores.origin, h.pending, h.restored, if_neg hn]

end Origins

section Runs

theorem booted_nil : s.Booted [] s.stores := by
  constructor <;> simp

/-- One more package, with a name and a token of its own. -/
theorem Booted.addPackage (h : s.Booted is t.stores) (hs : s.stores.Sound) (ht : t.stores.Sound)
    (hp : t.platform = s.platform) (hnil : i.token.isNil = false)
    (hne : ∀ j ∈ is, j.name ≠ i.name ∧ j.token ≠ i.token) :
    s.Booted (is ++ [i]) (t.perform (.addPackage i)).registry.stores := by
  have hx : (t.perform (.addPackage i)).registry.stores =
      (t.stores.settle i.name).attach i.name i.token (s.attachedRecord i) := by
    rw [perform, registry_map, addPackage_of_nonnil hnil, stores_conclude,
      attachedRecord_congr hp (h.origin_eq fun j hj => (hne j hj).1)]
  rw [hx]
  constructor
  · intro j hj
    rw [Stores.byName_attach_settle]
    rcases List.mem_append.mp hj with hj | hj
    · have hkept : t.stores.attached.nameOf[i.token]? ≠ some j.name :=
        ht.coherent.nameOf_ne (h.added j hj) (hne j hj).2
      rw [if_neg (hne j hj).1, if_neg hkept, h.added j hj]
    · obtain rfl := List.mem_singleton.mp hj
      rw [if_pos rfl]
  · intro name hn
    rw [List.forall_mem_append, List.forall_mem_singleton] at hn
    obtain ⟨hn, hni⟩ := hn
    rw [Stores.byName_attach_settle, if_neg (Ne.symm hni), h.others name hn]
    by_cases hlost : ∃ j ∈ is, s.stores.attached.nameOf[j.token]? = some name
    · simp [hlost, or_and_right, exists_or]
    · -- The token is that of no package added before, so it still leads where it led.
      have hold : t.stores.attached.nameOf[i.token]? = some name ↔
          s.stores.attached.nameOf[i.token]? = some name := by
        rw [ht.coherent, hs.coherent, h.others name hn, if_neg hlost]
      simp [hlost, hold, or_and_right, exists_or]
  · intro name
    rw [Stores.pending_attach_settle, h.pending]
    by_cases hn : i.name = name <;> simp [hn, or_and_right, exists_or]
  · intro name
    rw [Stores.restored_attach_settle, h.restored]
    by_cases hn : i.name = name <;> simp [hn, or_and_right, exists_or]

theorem booted_after (hs : s.stores.Sound) (hd : Installation.Distinct is) :
    s.Booted is (s.after (is.map .addPackage)).stores := by
  induction is using List.reverseRecOn with
  | nil => exact booted_nil
  | append_singleton is i ih =>
    rw [List.map_append, after_append]
    exact (ih hd.left).addPackage hs (sound_after hs _) (platform_after _)
      (hd.nonnil i (List.mem_append_right is (List.mem_singleton_self i))) hd.ne_of_mem

end Runs

theorem requesting_mem_events_addPackage (hn : i.token.isNil = false) :
    Event.requesting i.name ∈ (s.perform (.addPackage i)).events ↔ s.isAskedAbout i = true := by
  have he : (s.perform (.addPackage i)).events = (s.addPackage i).events := rfl
  have ha : Event.requesting i.name ∉ s.attachEvents i := by
    simp only [attachEvents, approvalEvents]
    split <;> split <;> split <;> simp
  rw [he, addPackage_of_nonnil hn]
  cases s.isAskedAbout i with
  | true => simp [conclude, request]
  | false => simpa [conclude] using ha

/-- After every row of calls, add some packages that have tokens and no two of which have a common
name or token. Names and tokens may be those of packages that are attached already or that wait.
Whatever the order, each package is attached as it would be alone, and the stores are the same in
the end. Whether the agent is asked about a package, and what it is asked, is in every order decided
as if the package were the first. -/
theorem boot_order_is_immaterial (platform : Platform) (policy : Policy) (calls : List Call)
    (is js : List Installation) (hd : Installation.Distinct is) (hp : is.Perm js) :
    let s := (create platform policy).after calls
    s.Booted is (s.after (js.map .addPackage)).stores ∧
    (s.after (js.map .addPackage)).stores = (s.after (is.map .addPackage)).stores ∧
    ∀ (before : List Installation) (i : Installation) (later : List Installation),
      js = before ++ i :: later →
      let t := s.after (before.map .addPackage)
      (Event.requesting i.name ∈ (t.perform (.addPackage i)).events ↔
        (s.request? (.addPackage i)).isSome = true) ∧
      (t.perform (.addPackage i)).registry.agent =
        t.agent.told (s.request? (.addPackage i)) := by
  intro s
  have hs : s.stores.Sound := sound_after (sound_create platform policy) calls
  have hjs := hd.perm hp
  have hsame : (s.after (js.map .addPackage)).stores = (s.after (is.map .addPackage)).stores :=
    (booted_after hs hjs).unique (booted_after hs hd) (sound_after hs _) (sound_after hs _)
      fun i => hp.symm.mem_iff
  refine ⟨hsame ▸ booted_after hs hd, hsame, ?_⟩
  rintro before i later rfl t
  have ht : t.stores.Sound := sound_after hs _
  have hi : Installation.Distinct (before ++ [i]) := by
    rw [List.append_cons] at hjs
    exact hjs.left
  have hn := hi.nonnil i (List.mem_append_right before (List.mem_singleton_self i))
  have hasked : t.isAskedAbout i = s.isAskedAbout i :=
    isAskedAbout_congr (platform_after _)
      ((booted_after hs hi.left).origin_eq fun j hj => (hi.ne_of_mem j hj).1)
  constructor
  · rw [requesting_mem_events_addPackage hn, hasked, request?_addPackage hs hn]
    cases s.isAskedAbout i <;> simp
  · rw [request?_addPackage hs hn, ← hasked, ← request?_addPackage ht hn]
    exact agent_addPackage ht i

/-- Two attached packages are added with each other's token. The first to be added drops the other
one, whichever it is, and yet the order shows in nothing. -/
theorem boot_order_is_immaterial_sample :
    let app : Installation := { Installation.sample with legacyApproval? := none }
    let other : Installation :=
      { name := "other", token? := some ⟨2⟩
        manifest? := some { package := "other", filters := [.web true ["b.org"]] } }
    let app' : Installation := { app with token? := some ⟨2⟩ }
    let other' : Installation := { other with token? := some ⟨1⟩ }
    let s := (create .default .openToAll).after [.addPackage app, .addPackage other]
    Installation.Distinct [app', other'] ∧
    s.stores.attached.nameOf[app'.token]? = some "other" ∧
    s.stores.attached.nameOf[other'.token]? = some "app" ∧
    (s.after [.addPackage other', .addPackage app']).stores =
      (s.after [.addPackage app', .addPackage other']).stores ∧
    Event.requesting "app" ∈
      ((s.perform (.addPackage other')).registry.perform (.addPackage app')).events := by
  intro app other app' other' s
  have hd : Installation.Distinct [app', other'] := ⟨by decide, by decide, by decide⟩
  obtain ⟨-, hsame, hasked⟩ := boot_order_is_immaterial .default .openToAll
    [.addPackage app, .addPackage other] [app', other'] [other', app'] hd (.swap other' app' [])
  refine ⟨hd, by decide +kernel, by decide +kernel, hsame, ?_⟩
  exact (hasked [other'] app' [] rfl).1.mpr (by decide +kernel)

end Registry
end LinkTrust
