import LinkTrust.Proofs.Document.Codec
import LinkTrust.Proofs.Holdings
import LinkTrust.Proofs.Registry.Coherence

/-! # Snapshots

The document of all records, and what is read from it into empty stores. An attached record comes
back as one that waits for its package, and every other record where it was.
-/

namespace LinkTrust

/-- A record is found again in its entry if its selections stand under their users. -/
theorem Entry.record_ofRecord {r : Record} (h : r.selections.Keyed) : (ofRecord r).record = r := by
  have hu : ∀ p ∈ r.selections.toList, (p.2.user, p.2) = (p.1, id p.2) := fun p hp => by
    rw [h p.1 p.2 (Std.ExtTreeMap.mem_toList_iff_getElem?_eq_some.mp hp), id]
  have hs : r.selections.map (fun _ s => id s) = r.selections := by
    apply Std.ExtTreeMap.ext_getElem?
    intro u
    simp
  have hl : Std.ExtTreeMap.ofList (r.selections.toList.map fun p => (p.2.user, p.2)) =
      r.selections := by
    rw [List.map_congr_left hu, Collections.ofList_map_toList, hs]
  simp only [record, ofRecord, List.map_map, Function.comp_def, UserEntry.selection_ofSelection]
  simp only [UserEntry.ofSelection, hl]

/-- Among records of different names, at most one has a given name. -/
theorem Record.named_eq_toList {l : List Record} {name : String} {o : Option Record}
    (hl : (l.map (·.name)).Nodup)
    (h : ∀ r : Record, r ∈ l ∧ r.name = name ↔ o = some r) : named name l = o.toList := by
  cases o with
  | none =>
    refine List.filter_eq_nil_iff.mpr fun r hr hn => ?_
    exact absurd ((h r).mp ⟨hr, of_decide_eq_true hn⟩) (by simp)
  | some r =>
    obtain ⟨hr, rfl⟩ := (h r).mpr rfl
    exact Collections.filter_eq_singleton hl hr

namespace Stores

variable {s : Stores}

section Waiting

/-- The given records, each under its name. -/
def waiting (l : List Record) : Waiting := .ofList (l.map fun r => (r.name, r))

theorem getElem?_waiting {l : List Record} (h : (l.map (·.name)).Nodup) {name : String}
    {r : Record} : (waiting l)[name]? = some r ↔ r ∈ l ∧ r.name = name := by
  have hk : ((l.map fun r => (r.name, r)).map Prod.fst).Nodup := by
    rw [List.map_map]
    exact h
  rw [waiting, Collections.getElem?_ofList_eq_some_iff hk, List.mem_map]
  constructor
  · rintro ⟨r, hr, he⟩
    cases he
    exact ⟨hr, rfl⟩
  · rintro ⟨hr, rfl⟩
    exact ⟨r, hr, rfl⟩

theorem foldl_readActive (l : List Record) (w : Waiting) :
    l.foldl readActive { pending := w } =
      { pending := l.foldl (fun w r => w.insert r.name r) w } := by
  induction l generalizing w with
  | nil => rfl
  | cons r l ih => exact ih _

theorem foldl_readRestored (l : List Record) : l.foldl readRestored s =
    { s with restored := l.foldl (fun w r => w.insert r.name r) s.restored } := by
  induction l generalizing s with
  | nil => rfl
  | cons r l ih => exact ih

/-- Into empty stores a document is read as it is. -/
theorem read_empty (d : Document) : ({} : Stores).read d =
    { pending := waiting (d.active.map Entry.record)
      restored := waiting (d.restored.map Entry.record) } := by
  have hw (l : List Record) : waiting l = l.foldl (fun w r => w.insert r.name r) ∅ := by
    rw [waiting, Std.ExtTreeMap.ofList_eq_foldl, List.foldl_map]
  rw [read, foldl_readActive, foldl_readRestored, hw, hw]

end Waiting

section Snapshot

/-- Every record stands under its own name. -/
def Named (w : Waiting) : Prop := ∀ (n : String) (r : Record), w[n]? = some r → r.name = n

theorem Named.map_name_values {w : Waiting} (h : Named w) : w.values.map (·.name) = w.keys := by
  rw [← Std.ExtTreeMap.map_fst_toList_eq_keys, Collections.values_eq, List.map_map]
  refine List.map_congr_left fun p hp => ?_
  exact h p.1 p.2 (Std.ExtTreeMap.mem_toList_iff_getElem?_eq_some.mp hp)

theorem Named.mem_values_iff {w : Waiting} (h : Named w) {n : String} {r : Record} :
    r ∈ w.values ∧ r.name = n ↔ w[n]? = some r := by
  simp only [Collections.values_eq, List.mem_map, Prod.exists,
    Std.ExtTreeMap.mem_toList_iff_getElem?_eq_some]
  constructor
  · rintro ⟨⟨k, r, hr, rfl⟩, rfl⟩
    exact h k r hr ▸ hr
  · intro hr
    exact ⟨⟨n, r, hr, rfl⟩, h n r hr⟩

theorem Named.waiting_values {w : Waiting} (h : Named w) : waiting w.values = w := by
  have hn : (w.values.map (·.name)).Nodup := h.map_name_values ▸ Std.ExtTreeMap.nodup_keys
  apply Std.ExtTreeMap.ext_getElem?
  intro n
  apply Option.ext
  intro r
  rw [getElem?_waiting hn, h.mem_values_iff]

theorem Sound.map_name_values (h : s.Sound) :
    s.attached.values.map (·.name) = s.attached.byName.keys := by
  rw [← Std.ExtTreeMap.map_fst_toList_eq_keys, Roster.values, Roster.toList, List.map_map]
  refine List.map_congr_left fun p hp => ?_
  obtain ⟨n, t, r⟩ := p
  exact (h.each.attached (Std.ExtTreeMap.mem_toList_iff_getElem?_eq_some.mp hp)).name_eq

theorem Sound.mem_values_iff (h : s.Sound) {n : String} {r : Record} :
    r ∈ s.attached.values ∧ r.name = n ↔ s.attached.get? n = some r := by
  rw [Roster.mem_values_iff, Roster.get?_eq_some_iff]
  constructor
  · rintro ⟨⟨k, t, hr⟩, rfl⟩
    exact ⟨t, (h.each.attached hr).name_eq ▸ hr⟩
  · rintro ⟨t, hr⟩
    exact ⟨⟨n, t, hr⟩, (h.each.attached hr).name_eq⟩

/-- The names of the attached records with some property. -/
theorem Sound.mem_map_name_filter_iff (h : s.Sound) {p : Record → Bool} {n : String} :
    n ∈ (s.attached.values.filter p).map (·.name) ↔
      ∃ (t : Token) (r : Record), s.attached.byName[n]? = some (t, r) ∧ p r = true := by
  simp only [List.mem_map, List.mem_filter, Roster.mem_values_iff]
  constructor
  · rintro ⟨r, ⟨⟨k, t, hr⟩, hp⟩, rfl⟩
    obtain rfl := (h.each.attached hr).name_eq
    exact ⟨t, r, hr, hp⟩
  · rintro ⟨t, r, hr, hp⟩
    exact ⟨r, ⟨⟨n, t, hr⟩, hp⟩, (h.each.attached hr).name_eq⟩

theorem Sound.named_pending (h : s.Sound) : Named s.pending :=
  fun _ _ hr => (h.each.pending hr).name_eq

theorem Sound.named_restored (h : s.Sound) : Named s.restored :=
  fun _ _ hr => (h.each.restored hr).name_eq

/-- The records that are written as active. -/
def current (s : Stores) : List Record := s.attached.values ++ s.pending.values

theorem Sound.mem_current (h : s.Sound) {r : Record} (hr : r ∈ s.current) : r.Sound := by
  rcases List.mem_append.mp hr with hr | hr
  · exact h.record (.inl (h.mem_values_iff.mp ⟨hr, rfl⟩))
  · exact h.record (.inr (.inl (h.named_pending.mem_values_iff.mp ⟨hr, rfl⟩)))

theorem Sound.mem_restored (h : s.Sound) {r : Record} (hr : r ∈ s.restored.values) : r.Sound :=
  h.record (.inr (.inr (h.named_restored.mem_values_iff.mp ⟨hr, rfl⟩)))

/-- The packages that are attached and those that are awaited are different ones. -/
def Apart (s : Stores) : Prop :=
  ∀ (n : String) (t : Token) (r : Record), s.attached.byName[n]? = some (t, r) →
    s.pending[n]? = none

theorem Sound.nodup_current (h : s.Sound) (ha : s.Apart) : (s.current.map (·.name)).Nodup := by
  rw [current, List.map_append, h.map_name_values, h.named_pending.map_name_values,
    List.nodup_append]
  refine ⟨Std.ExtTreeMap.nodup_keys, Std.ExtTreeMap.nodup_keys, ?_⟩
  rintro n hn m hm rfl
  rw [Std.ExtTreeMap.mem_keys, Std.ExtTreeMap.mem_iff_isSome_getElem?] at hn hm
  obtain ⟨⟨t, r⟩, hr⟩ := Option.isSome_iff_exists.mp hn
  rw [ha n t r hr] at hm
  cases hm

theorem map_record_ofRecord {l : List Record} (h : ∀ r ∈ l, r.Sound) :
    (l.map Entry.ofRecord).map Entry.record = l := by
  have hr : ∀ r ∈ l, (Entry.record ∘ Entry.ofRecord) r = id r :=
    fun r hr => Entry.record_ofRecord (h r hr).keyed
  rw [List.map_map, List.map_congr_left hr, List.map_id]

theorem Sound.perm_active (h : s.Sound) : (s.snapshot.active.map Entry.record).Perm s.current := by
  have hs := (List.mergeSort_perm (s.current.map Entry.ofRecord) fun e f => e.name ≤ f.name).map
    Entry.record
  rwa [map_record_ofRecord fun _ => h.mem_current] at hs

theorem Sound.map_record_restored (h : s.Sound) :
    s.snapshot.restored.map Entry.record = s.restored.values :=
  map_record_ofRecord fun _ => h.mem_restored

theorem Sound.getElem?_waiting_active (h : s.Sound) (ha : s.Apart) (n : String) :
    (waiting (s.snapshot.active.map Entry.record))[n]? =
      (s.attached.get? n).or s.pending[n]? := by
  have hn := (h.perm_active.map (·.name)).nodup_iff.mpr (h.nodup_current ha)
  apply Option.ext
  intro r
  rw [getElem?_waiting hn, h.perm_active.mem_iff, current, List.mem_append, or_and_right,
    h.mem_values_iff, h.named_pending.mem_values_iff, Option.or_eq_some_iff]
  constructor
  · rintro (hr | hr)
    · exact .inl hr
    · refine .inr ⟨?_, hr⟩
      rw [Option.eq_none_iff_forall_ne_some]
      intro r' hr'
      obtain ⟨t, ht⟩ := Roster.get?_eq_some_iff.mp hr'
      rw [ha n t r' ht] at hr
      cases hr
  · rintro (hr | ⟨-, hr⟩)
    · exact .inl hr
    · exact .inr hr

/-- What a snapshot gives back to empty stores. -/
theorem Sound.read_snapshot (h : s.Sound) (ha : s.Apart) :
    ∃ w : Waiting, ({} : Stores).read s.snapshot = { pending := w, restored := s.restored } ∧
      ∀ n : String, w[n]? = (s.attached.get? n).or s.pending[n]? := by
  refine ⟨_, ?_, h.getElem?_waiting_active ha⟩
  rw [read_empty, h.map_record_restored, h.named_restored.waiting_values]

/-- Every entry of a snapshot is that of a record that some store holds. -/
theorem Sound.exists_of_mem_snapshot (h : s.Sound) {e : Entry} (he : e ∈ s.snapshot.entries) :
    ∃ r, s.Holds r.name r ∧ Entry.ofRecord r = e := by
  rcases List.mem_append.mp he with he | he
  · obtain ⟨r, hr, rfl⟩ := List.mem_map.mp ((List.mergeSort_perm ..).mem_iff.mp he)
    refine ⟨r, ?_, rfl⟩
    rcases List.mem_append.mp hr with hr | hr
    · exact .inl (h.mem_values_iff.mp ⟨hr, rfl⟩)
    · exact .inr (.inl (h.named_pending.mem_values_iff.mp ⟨hr, rfl⟩))
  · obtain ⟨r, hr, rfl⟩ := List.mem_map.mp he
    exact ⟨r, .inr (.inr (h.named_restored.mem_values_iff.mp ⟨hr, rfl⟩)), rfl⟩

theorem Sound.canonical_snapshot (h : s.Sound) :
    ∀ e ∈ s.snapshot.entries, e.verdicts.Canonical := by
  intro e he
  obtain ⟨r, hr, rfl⟩ := h.exists_of_mem_snapshot he
  exact (h.record hr).canonical

end Snapshot

section Packages

theorem Named.named_values {w : Waiting} {name : String} (h : Named w) :
    Record.named name w.values = w[name]?.toList := by
  refine Record.named_eq_toList ?_ fun r => h.mem_values_iff
  rw [h.map_name_values]
  exact Std.ExtTreeMap.nodup_keys

theorem Sound.named_values (h : s.Sound) {name : String} :
    Record.named name s.attached.values = (s.attached.get? name).toList := by
  refine Record.named_eq_toList ?_ fun r => h.mem_values_iff
  rw [h.map_name_values]
  exact Std.ExtTreeMap.nodup_keys

/-- A snapshot lists for a package the records that the stores hold for it. -/
theorem Sound.perm_named_snapshot (h : s.Sound) (name : String) :
    (Record.named name (s.snapshot.entries.map Entry.record)).Perm
      ((s.attached.get? name).toList ++ s.pending[name]?.toList ++ s.restored[name]?.toList) := by
  have ha := h.perm_active.filter (·.name = name)
  rw [current, List.filter_append] at ha
  rw [Document.entries, List.map_append, h.map_record_restored, Record.named, List.filter_append]
  rw [← h.named_values, ← h.named_pending.named_values, ← h.named_restored.named_values]
  exact ha.append_right _

end Packages

end Stores
end LinkTrust
