import Mathlib.Data.Nat.Find
import LinkTrust.Proofs.Registry.Snapshot
import LinkTrust.Proofs.Registry.Waiting

/-! # New tokens

Random tokens are drawn until one is found that is not nil and that no record has, be it attached or
waiting. A package that is added with such a token takes nothing from another package: the others
are attached as before and found by their tokens, and the token leads to the added package alone.
-/

namespace LinkTrust

namespace Stores

variable {s : Stores} {token : Token}

theorem Sound.containsToken_iff (h : s.Sound) : s.containsToken token = true ↔
    ∃ (name : String) (r : Record), s.Holds name r ∧ r.token = token := by
  rw [containsToken, Bool.or_eq_true, h.coherent.containsToken_iff, isAwaited, List.any_eq_true]
  simp only [decide_eq_true_eq, List.mem_append]
  constructor
  · rintro (⟨r, hr⟩ | ⟨r, hr | hr, ht⟩)
    · obtain ⟨n, hn⟩ := h.coherent.getByToken?_eq_some_iff.mp hr
      exact ⟨n, r, .inl (Roster.get?_eq_some_iff.mpr ⟨token, hn⟩), (h.each.attached hn).token_eq⟩
    · exact ⟨r.name, r, .inr (.inl (h.named_pending.mem_values_iff.mp ⟨hr, rfl⟩)), ht⟩
    · exact ⟨r.name, r, .inr (.inr (h.named_restored.mem_values_iff.mp ⟨hr, rfl⟩)), ht⟩
  · rintro ⟨name, r, hr | hr | hr, rfl⟩
    · obtain ⟨token, hn⟩ := Roster.get?_eq_some_iff.mp hr
      obtain rfl := (h.each.attached hn).token_eq
      exact .inl ⟨r, h.coherent.getByToken?_eq_some_iff.mpr ⟨name, hn⟩⟩
    · exact .inr ⟨r, .inl (h.named_pending.mem_values_iff.mpr hr).1, rfl⟩
    · exact .inr ⟨r, .inr (h.named_restored.mem_values_iff.mpr hr).1, rfl⟩

end Stores

namespace Registry

variable {s : Registry} {token : Token} {i : Installation} {name : String} {r : Record}
  {stream : Nat → Token} {k : Nat}

/-- The token is not nil, and no record that some store holds has it. -/
structure Unused (s : Registry) (token : Token) : Prop where
  nonnil : token.isNil = false
  unheld : ∀ (name : String) (r : Record), s.stores.Holds name r → r.token ≠ token

theorem isUnused_iff (h : s.stores.Sound) : s.isUnused token = true ↔ s.Unused token := by
  have hc : s.stores.containsToken token = false ↔
      ∀ (name : String) (r : Record), s.stores.Holds name r → r.token ≠ token := by
    simp only [Bool.eq_false_iff, ne_eq, h.containsToken_iff, not_exists, not_and]
  simp only [isUnused, Bool.and_eq_true, Bool.not_eq_true', hc]
  exact ⟨fun h => ⟨h.1, h.2⟩, fun h => ⟨h.nonnil, h.unheld⟩⟩

section Drawing

/-- Of a row of candidates from the stream the first unused token is taken, if the row is long
enough. -/
theorem result_newToken_range (hk : s.isUnused (stream k) = true)
    (hmin : ∀ j < k, ¬s.isUnused (stream j) = true) (n : Nat) :
    (s.perform (.newToken ((List.range n).map stream))).result =
      .token (if k < n then some (stream k) else none) := by
  have hfind : ((List.range n).map stream).find? s.isUnused =
      if k < n then some (stream k) else none := by
    rw [List.find?_map]
    split
    · rename_i hn
      have hr : (List.range n).find? (s.isUnused ∘ stream) = some k :=
        List.find?_range_eq_some.mpr
          ⟨hk, List.mem_range.mpr hn, fun j hj => by simpa using hmin j hj⟩
      rw [hr]
      rfl
    · rename_i hn
      have hr : (List.range n).find? (s.isUnused ∘ stream) = none :=
        List.find?_range_eq_none.mpr fun j hj => by simpa using hmin j (by omega)
      rw [hr]
      rfl
  exact congrArg Answer.token hfind

end Drawing

section Attaching

theorem manifest?_conclude (events : List Event) (asked? : Option String) :
    (s.conclude events asked?).registry.host.manifest? name = s.host.manifest? name := by
  cases asked? <;> rfl

variable (hs : s.stores.Sound) (hu : s.Unused i.token)

include hs hu

theorem Unused.nameOf_eq_none : s.stores.attached.nameOf[i.token]? = none := by
  rw [Option.eq_none_iff_forall_ne_some]
  intro n hn
  obtain ⟨r, hr⟩ := (hs.coherent i.token n).mp hn
  exact hu.unheld n r (.inl (Roster.get?_eq_some_iff.mpr ⟨_, hr⟩)) (hs.each.attached hr).token_eq

/-- A package that is added with an unused token drops no other package. -/
theorem Unused.byName_addPackage :
    (s.perform (.addPackage i)).registry.stores.attached.byName[name]? =
      if name = i.name then some (i.token, s.attachedRecord i)
      else s.stores.attached.byName[name]? := by
  rw [perform, registry_map, addPackage_of_nonnil hu.nonnil, stores_conclude,
    Stores.byName_attach_settle, hu.nameOf_eq_none hs]
  simp

/-- The other packages are found by their tokens as before. -/
theorem Unused.resolve_addPackage (hn : name ≠ i.name)
    (hr : s.stores.attached.byName[name]? = some (token, r)) (ds : Domains) (kind : DomainKind) :
    (s.perform (.addPackage i)).registry.resolve token ds kind = s.resolve token ds kind := by
  have ht : (s.perform (.addPackage i)).registry.stores.Sound := (effect_perform _).sound hs
  have hr' : (s.perform (.addPackage i)).registry.stores.attached.byName[name]? =
      some (token, r) := by rw [hu.byName_addPackage hs, if_neg hn, hr]
  have hg : s.stores.attached.getByToken? token = some r :=
    hs.coherent.getByToken?_eq_some_iff.mpr ⟨name, hr⟩
  have hg' : (s.perform (.addPackage i)).registry.stores.attached.getByToken? token = some r :=
    ht.coherent.getByToken?_eq_some_iff.mpr ⟨name, hr'⟩
  have hm (n : String) : (s.perform (.addPackage i)).registry.host.manifest? n =
      s.host.manifest? n := by
    rw [perform, registry_map, addPackage_of_nonnil hu.nonnil, manifest?_conclude]
  simp only [resolve, Host.bind_installation?, hg, hg', hm]

end Attaching

/-- If some token of a stream is unused, the first one is drawn, after exactly those before it. A
package that is added with it then leaves all others attached and found as they were, and the token
leads to the added package, which no other token does. -/
theorem new_token_is_safe (platform : Platform) (policy : Policy) (calls : List Call)
    (stream : Nat → Token) :
    let s := (create platform policy).after calls
    (∃ k, s.Unused (stream k)) →
    ∃ k, s.Unused (stream k) ∧ (∀ j < k, ¬s.Unused (stream j)) ∧
      (∀ n : Nat, let drawn := s.perform (.newToken ((List.range n).map stream))
        drawn.result = .token (if k < n then some (stream k) else none) ∧ drawn.registry = s) ∧
      ∀ i : Installation, i.token = stream k →
        let t := (s.perform (.addPackage i)).registry
        (∀ name : String, name ≠ i.name →
          t.stores.attached.byName[name]? = s.stores.attached.byName[name]?) ∧
        (∀ (name : String) (token : Token) (r : Record), name ≠ i.name →
          s.stores.attached.byName[name]? = some (token, r) →
          t.stores.attached.getByToken? token = some r ∧
            ∀ (ds : Domains) (kind : DomainKind),
              t.resolve token ds kind = s.resolve token ds kind) ∧
        (∃ r, t.stores.attached.byName[i.name]? = some (stream k, r) ∧
          t.stores.attached.getByToken? (stream k) = some r) ∧
        ∀ token : Token, t.stores.attached.nameOf[token]? = some i.name ↔ token = stream k := by
  intro s hex
  have hs : s.stores.Sound := sound_after (sound_create platform policy) calls
  have hex : ∃ k, s.isUnused (stream k) = true := hex.imp fun _ => (isUnused_iff hs).mpr
  refine ⟨Nat.find hex, (isUnused_iff hs).mp (Nat.find_spec hex), fun j hj hu => ?_,
    fun n => ⟨?_, rfl⟩, fun i hi => ?_⟩
  · exact Nat.find_min hex hj ((isUnused_iff hs).mpr hu)
  · exact result_newToken_range (Nat.find_spec hex) (fun j => Nat.find_min hex) n
  · intro t
    have hu : s.Unused i.token := hi ▸ (isUnused_iff hs).mp (Nat.find_spec hex)
    have ht : t.stores.Sound := (effect_perform _).sound hs
    have hb : t.stores.attached.byName[i.name]? = some (i.token, s.attachedRecord i) := by
      rw [hu.byName_addPackage hs, if_pos rfl]
    rw [← hi]
    refine ⟨fun name hn => ?_, fun name token r hn hr => ⟨?_, hu.resolve_addPackage hs hn hr⟩,
      ⟨_, hb, ht.coherent.getByToken?_eq_some_iff.mpr ⟨_, hb⟩⟩,
      fun token => ht.coherent.nameOf_eq_iff hb⟩
    · rw [hu.byName_addPackage hs, if_neg hn]
    · refine ht.coherent.getByToken?_eq_some_iff.mpr ⟨name, ?_⟩
      rw [hu.byName_addPackage hs, if_neg hn, hr]

/-- The tokens 1 and 2 are those of an attached record and of one that waits. The package that is
added with the token 3 takes over the one that waits. -/
theorem new_token_is_safe_sample :
    let stream (j : Nat) : Token := ⟨.ofNat 128 j⟩
    let d : Document := { restored := [{ name := "other", token := ⟨2⟩ }] }
    let calls : List Call := [.addPackage .sample, .readState { bytes := d.encode }]
    let s := (create .default .openToAll).after calls
    let t := (s.perform (.addPackage { name := "other", token? := some ⟨3⟩ })).registry
    s.Unused (stream 3) ∧
    (s.perform (.newToken ((List.range 4).map stream))).result = .token (some ⟨3⟩) ∧
    (∃ r : Record, t.stores.attached.getByToken? ⟨1⟩ = some r ∧
      s.stores.attached.getByToken? ⟨1⟩ = some r) ∧
    ∀ token : Token, t.stores.attached.nameOf[token]? = some "other" ↔ token = ⟨3⟩ := by
  intro stream d calls s t
  have hd : ∀ e ∈ d.entries, e.verdicts.Canonical := by
    intro e he d v hv
    obtain rfl := List.mem_singleton.mp he
    simp at hv
  have hs : s = { (create .default .openToAll).after [.addPackage .sample] with
      stores := ((create .default .openToAll).after [.addPackage .sample]).stores.read d } :=
    registry_readState_encode (s := (create .default .openToAll).after [.addPackage .sample]) hd
  have hsound : s.stores.Sound := sound_after (sound_create _ _) calls
  have hunused : s.Unused (stream 3) := (isUnused_iff hsound).mp (hs ▸ by decide +kernel)
  have hdrawn : (s.perform (.newToken ((List.range 4).map stream))).result =
      .token (some ⟨3⟩) := hs ▸ by decide +kernel
  have hb : (s.stores.attached.byName["app"]?).map (·.1) = some ⟨1⟩ := hs ▸ by decide +kernel
  obtain ⟨⟨token, r⟩, hr, rfl⟩ := Option.map_eq_some_iff.mp hb
  obtain ⟨k, -, -, hdraw, hadd⟩ := new_token_is_safe .default .openToAll calls stream ⟨3, hunused⟩
  have hk : stream k = ⟨3⟩ := by
    have he := Answer.token.inj ((hdraw 4).1.symm.trans hdrawn)
    exact Option.some.inj (Option.ite_none_right_eq_some.mp he).2
  obtain ⟨-, hothers, -, htoken⟩ := hadd { name := "other", token? := some ⟨3⟩ } hk.symm
  refine ⟨hunused, hdrawn, ⟨r, (hothers "app" _ r (by decide) hr).1,
    hsound.coherent.getByToken?_eq_some_iff.mpr ⟨"app", hr⟩⟩, fun token => ?_⟩
  rw [htoken, hk]

end Registry
end LinkTrust
