import LinkTrust.Proofs.Registry.Snapshot
import LinkTrust.Proofs.Registry.Waiting

/-! # The active entries of a snapshot

A snapshot lists attached and pending records by name. No name stands there twice exactly if no
attached package has a pending record, and then every attached record is read back as it is. Only an
upgrade to a package with a pending record puts an end to this.
-/

namespace LinkTrust

namespace Document

/-- The active entries stand in the order of their names, and no name stands there twice. -/
def NamesIncrease (d : Document) : Prop := d.active.Pairwise fun e f => e.name < f.name

end Document

namespace Entry

theorem pairwise_name_lt_iff {l : List Entry} :
    ((l.mergeSort fun e f => e.name ≤ f.name).Pairwise fun e f => e.name < f.name) ↔
      (l.map (·.name)).Nodup := by
  have hp : (l.mergeSort fun e f => e.name ≤ f.name).Perm l := List.mergeSort_perm ..
  rw [← (hp.map (·.name)).nodup_iff, List.nodup_iff_pairwise_ne, List.pairwise_map]
  constructor
  · intro h
    refine h.imp fun hlt he => ?_
    exact String.lt_irrefl _ (he ▸ hlt)
  · intro h
    have hs : (l.mergeSort fun e f => e.name ≤ f.name).Pairwise fun e f => e.name ≤ f.name := by
      refine (List.pairwise_mergeSort ?_ ?_ l).imp of_decide_eq_true
      · intro a b c hab hbc
        exact decide_eq_true (String.le_trans (of_decide_eq_true hab) (of_decide_eq_true hbc))
      · intro a b
        rw [Bool.or_eq_true, decide_eq_true_eq, decide_eq_true_eq]
        exact String.le_total ..
    refine (hs.and h).imp fun ⟨hle, hne⟩ => ?_
    exact String.not_le.mp fun hge => hne (String.le_antisymm hle hge)

end Entry

namespace Stores

variable {s : Stores}

theorem apart_iff :
    s.Apart ↔ ∀ n : String, s.attached.contains n = true → s.pending[n]? = none := by
  constructor
  · intro h n hn
    obtain ⟨t, r, hr⟩ := Roster.contains_iff.mp hn
    exact h n t r hr
  · intro h n t r hr
    exact h n (Roster.contains_iff.mpr ⟨t, r, hr⟩)

theorem Sound.nodup_current_iff (h : s.Sound) : (s.current.map (·.name)).Nodup ↔ s.Apart := by
  refine ⟨fun hn n t r hr => ?_, h.nodup_current⟩
  rw [current, List.map_append, h.map_name_values, h.named_pending.map_name_values,
    List.nodup_append] at hn
  cases hp : s.pending[n]? with
  | none => rfl
  | some r' =>
    have ha : n ∈ s.attached.byName.keys := by
      rw [Std.ExtTreeMap.mem_keys, Std.ExtTreeMap.mem_iff_isSome_getElem?, hr]
      rfl
    have hw : n ∈ s.pending.keys := by
      rw [Std.ExtTreeMap.mem_keys, Std.ExtTreeMap.mem_iff_isSome_getElem?, hp]
      rfl
    exact absurd rfl (hn.2.2 n ha n hw)

theorem Sound.namesIncrease_iff (h : s.Sound) : s.snapshot.NamesIncrease ↔ s.Apart := by
  have hn : (s.current.map Entry.ofRecord).map (·.name) = s.current.map (·.name) := by
    rw [List.map_map]
    rfl
  rw [← h.nodup_current_iff, ← hn]
  exact Entry.pairwise_name_lt_iff

end Stores

namespace Registry

variable {s : Registry} {call : Call}

theorem apart_perform_iff (h : s.stores.Apart) :
    (s.perform call).registry.stores.Apart ↔ ∀ old new : Installation,
      call = .migratePackage old new → s.stores.pending[new.name]? = none := by
  rw [Stores.apart_iff] at h ⊢
  constructor
  · rintro hx old new rfl
    obtain ⟨r, hr, -⟩ := exists_stores_migratePackage (s := s) old new
    rw [perform, registry_map, hr] at hx
    exact hx new.name Roster.contains_enter_self
  · intro hc n hx
    have he := effect_perform (s := s) call
    rcases he.attached_cases hx with ha | hw | ⟨old, new, hcall, rfl, hp, -⟩
    · exact he.pending_eq_none ha (h n ha)
    · exact hw.pending
    · rw [hp]
      exact hc old new hcall

theorem perform_writeState (s : Registry) :
    (s.perform (.writeState {})).result = .text s.stores.snapshot.encode := by
  simp [perform, writeState, Document.writeTo_default, Reply.map, Answer.ofExcept]

/-- All along a row of calls the active names increase exactly if no upgrade is one to a package
that has a pending record. Whenever they do, a new registry that reads what is written gets every
attached record as it is. -/
theorem active_names_increase_iff (platform : Platform) (policy : Policy) (calls : List Call) :
    ((create platform policy).Always calls (fun s => s.stores.snapshot.NamesIncrease) ↔
      (create platform policy).Throughout calls fun s call => ∀ old new : Installation,
        call = .migratePackage old new → s.stores.pending[new.name]? = none) ∧
    (create platform policy).Always calls fun s => s.stores.snapshot.NamesIncrease →
      ∃ text : Bytes, (s.perform (.writeState {})).result = .text text ∧
        ∀ new : Registry, new.stores = {} → ∀ (name : String) (token : Token) (r : Record),
          s.stores.attached.byName[name]? = some (token, r) →
          (new.perform (.readState { bytes := text })).registry.stores.pending[name]? = some r := by
  have hs (calls : List Call) : ((create platform policy).after calls).stores.Sound :=
    sound_after (sound_create platform policy) calls
  constructor
  · rw [← always_iff_throughout (I := fun s => s.stores.Apart) _ fun _ _ h => apart_perform_iff h]
    · simp only [Always, (hs _).namesIncrease_iff]
    · intro n t r hr
      simp [create] at hr
  · intro earlier later _ hn
    have ha := (hs earlier).namesIncrease_iff.mp hn
    refine ⟨_, perform_writeState _, fun new hnew name token r hr => ?_⟩
    obtain ⟨w, hw, hp⟩ := (hs earlier).read_snapshot ha
    rw [registry_readState_encode (hs earlier).canonical_snapshot, hnew, hw]
    simp [hp, Roster.get?_eq_some_iff.mpr ⟨token, hr⟩]

/-- The pending record of a package is not taken when the package comes as an upgrade. -/
theorem upgrade_beside_pending_record :
    ¬((create .default .openToAll).after
      [.readState { bytes := ({ active := [.sample] } : Document).encode },
        .migratePackage .sample .sample]).stores.snapshot.NamesIncrease := by
  rw [(sound_after (sound_create _ _) _).namesIncrease_iff, Stores.apart_iff]
  intro h
  have hp := h "app"
  rw [after_cons, registry_readState_encode (d := { active := [.sample] }) Entry.canonical_sample]
    at hp
  exact absurd hp (by decide +kernel)

end Registry
end LinkTrust
