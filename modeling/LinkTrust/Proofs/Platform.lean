import LinkTrust.Platform
import LinkTrust.Proofs.Text.Blank
import LinkTrust.Proofs.Text.Decimal

/-! # The platform that an environment describes

The names and uids that are written to the environment, as lists in any layout, are the ones that
are read. Whatever the environment holds, some process is trusted, and it is one whose uid an item
spells, or a default one if no item spells any.
-/

namespace LinkTrust

namespace Platform

variable {s x : String} {uid : Uid} {uids : Std.ExtTreeSet Uid}

section Uids

/-- The text is the uid in decimal digits, with or without a plus sign and with any number of zeros
before them. -/
def Spells (x : String) (uid : Uid) : Prop :=
  ∃ (sign : List Char) (zeros : Nat), (sign = [] ∨ sign = ['+']) ∧
    x.toList = sign ++ Decimal.spelling zeros uid.toNat

theorem uid?_eq_some_iff : uid? x = some uid ↔ Spells x uid := by
  rw [uid?, Option.bind_eq_some_iff, Spells, ← Decimal.ofText?_eq_some_iff]
  constructor
  · rintro ⟨n, hn, hu⟩
    rw [Option.ite_none_right_eq_some, Option.some.injEq] at hu
    obtain ⟨hlt, rfl⟩ := hu
    rwa [UInt32.toNat_ofNat_of_lt' hlt]
  · intro h
    exact ⟨_, h, by rw [if_pos uid.toNat_lt, UInt32.ofNat_toNat]⟩

theorem mem_uids_iff : uid ∈ Platform.uids s ↔ ∃ x : String, Text.IsItem s x ∧ Spells x uid := by
  simp only [Platform.uids, Std.ExtTreeSet.mem_ofList, List.contains_iff_mem, List.mem_filterMap,
    Text.mem_items_iff, uid?_eq_some_iff]

theorem spells_repr (uid : Uid) : Spells uid.toNat.repr uid :=
  ⟨[], 0, .inl rfl, Nat.toList_repr⟩

theorem isBlank_of_isDigit {c : Char} (h : c.isDigit = true) : Text.isBlank c = false := by
  have hc : 48 ≤ c.toNat ∧ c.toNat ≤ 57 := by
    simpa [Char.isDigit, UInt32.le_iff_toNat_le, ← Char.toNat_val] using h
  rw [← Bool.not_eq_true]
  simp only [Text.isBlank, Bool.or_eq_true, Bool.and_eq_true, decide_eq_true_eq, beq_iff_eq]
  omega

theorem listable_repr (n : Nat) : Text.Listable n.repr := by
  have hd : ∀ c ∈ n.repr.toList, c.isDigit = true := by
    intro c hc
    rw [Nat.toList_repr] at hc
    exact Nat.isDigit_of_mem_toDigits (by decide) (by decide) hc
  refine ⟨?_, fun hc => absurd (hd _ hc) (by decide), fun c hc => ?_, fun c hc => ?_⟩
  · rw [ne_eq, ← String.toList_eq_nil_iff, Nat.toList_repr]
    exact fun h => Decimal.digits_ne_nil n (congrArg (List.map Char.toUInt8) h)
  · exact isBlank_of_isDigit (hd c (List.mem_of_mem_head? hc))
  · exact isBlank_of_isDigit (hd c (List.mem_of_mem_getLast? hc))

/-- Two uids that one text spells are the same. -/
theorem Spells.unique {uid' : Uid} (h : Spells x uid) (h' : Spells x uid') : uid = uid' := by
  rw [← uid?_eq_some_iff] at h h'
  exact Option.some.inj (h.symm.trans h')

theorem uids_eq_of_writes (h : Text.Writes (uids.toList.map fun uid => uid.toNat.repr) s) :
    Platform.uids s = uids := by
  have hx : ∀ x ∈ uids.toList.map fun uid => uid.toNat.repr, Text.Listable x := by
    intro x hx
    obtain ⟨uid, -, rfl⟩ := List.mem_map.mp hx
    exact listable_repr uid.toNat
  ext uid
  rw [mem_uids_iff]
  simp only [← Text.mem_items_iff, Text.mem_items_of_writes hx h, List.mem_map,
    Std.ExtTreeSet.mem_toList]
  constructor
  · rintro ⟨x, ⟨uid', hu, rfl⟩, hs⟩
    exact (spells_repr uid').unique hs ▸ hu
  · exact fun hu => ⟨_, ⟨uid, hu, rfl⟩, spells_repr uid⟩

end Uids

section Environments

variable {env : Environment} {name : String}

theorem text?_eq_some_iff : env.text? name = some s ↔ env[name]? = some (Utf8.encode s) := by
  simp only [Environment.text?, Option.bind_eq_some_iff, Utf8.decode?_eq_some_iff,
    exists_eq_right]

/-- An item of the list of uids spells the uid. -/
def Lists (env : Environment) (uid : Uid) : Prop :=
  ∃ s x : String, env["DV_SYSTEM_UIDS"]? = some (Utf8.encode s) ∧ Text.IsItem s x ∧ Spells x uid

/-- The uids in the list of uids; none if there is no list. -/
def listed (env : Environment) : Std.ExtTreeSet Uid :=
  ((env.text? "DV_SYSTEM_UIDS").map Platform.uids).getD ∅

theorem mem_listed_iff : uid ∈ listed env ↔ Lists env uid := by
  simp only [Lists, ← text?_eq_some_iff, exists_and_left, ← mem_uids_iff, listed]
  cases env.text? "DV_SYSTEM_UIDS" <;> simp

theorem systemUids_ofEnvironment (env : Environment) : (ofEnvironment env).systemUids =
    if (listed env).isEmpty then defaultUids else listed env := by
  cases h : env.text? "DV_SYSTEM_UIDS" with
  | none => simp [ofEnvironment, listed, h]
  | some s => simp [ofEnvironment, listed, h]

theorem mem_defaultUids_iff : uid ∈ defaultUids ↔ uid = 0 ∨ uid = 1000 := by
  simp [defaultUids, rootUid, systemUid, or_comm]

theorem isEmpty_systemUids (env : Environment) :
    (ofEnvironment env).systemUids.isEmpty = false := by
  rw [systemUids_ofEnvironment]
  split
  · decide +kernel
  · rename_i h
    rwa [Bool.not_eq_true] at h

/-- The trusted uids are those that are listed or, if none is, the default ones. -/
theorem mem_systemUids_iff : uid ∈ (ofEnvironment env).systemUids ↔
    Lists env uid ∨ (∀ u : Uid, ¬Lists env u) ∧ (uid = 0 ∨ uid = 1000) := by
  have hnone : (listed env).isEmpty = true ↔ ∀ u : Uid, ¬Lists env u := by
    rw [Std.ExtTreeSet.isEmpty_iff, Std.ExtTreeSet.eq_empty_iff_forall_not_mem]
    exact forall_congr' fun u => not_congr mem_listed_iff
  rw [systemUids_ofEnvironment]
  split
  · rename_i h
    have hn := hnone.mp h
    rw [mem_defaultUids_iff]
    exact ⟨fun hu => .inr ⟨hn, hu⟩, fun hu => (hu.resolve_left (hn uid)).2⟩
  · rename_i h
    rw [mem_listed_iff]
    exact ⟨.inl, fun hu => hu.resolve_right fun hn => h (hnone.mpr hn.1)⟩

/-- The names and the uids that are written to the environment, in any layout, are read back. Of
any environment some uids are trusted, and they are those that items of its list spell or, if no
item spells any, the default ones. -/
theorem environment_reads_back :
    (∀ (env : Environment) (names : Domains) (uids : Std.ExtTreeSet Uid) (s t : String),
      (∀ name ∈ names, Text.Listable name) → uids.isEmpty = false →
      Text.Writes names.toList s →
      Text.Writes (uids.toList.map fun uid => uid.toNat.repr) t →
      env["DV_LINKED_APPS"]? = some (Utf8.encode s) →
      env["DV_SYSTEM_UIDS"]? = some (Utf8.encode t) →
      ofEnvironment env = { linkedApps := names, systemUids := uids }) ∧
    ∀ env : Environment, (ofEnvironment env).systemUids.isEmpty = false ∧
      ∀ uid : Uid, uid ∈ (ofEnvironment env).systemUids ↔
        Lists env uid ∨ (∀ u : Uid, ¬Lists env u) ∧ (uid = 0 ∨ uid = 1000) := by
  refine ⟨fun env names uids s t hn hu hs ht he he' => ?_,
    fun env => ⟨isEmpty_systemUids env, fun uid => mem_systemUids_iff⟩⟩
  rw [← text?_eq_some_iff] at he he'
  have hnames : Std.ExtTreeSet.ofList (Text.items s) = names := by
    have hn : ∀ name ∈ names.toList, Text.Listable name :=
      fun name hm => hn name (Std.ExtTreeSet.mem_toList.mp hm)
    ext name
    rw [Std.ExtTreeSet.mem_ofList, List.contains_iff_mem, Text.mem_items_of_writes hn hs,
      Std.ExtTreeSet.mem_toList]
  have huids : Platform.uids t = uids := uids_eq_of_writes ht
  simp only [ofEnvironment, he, he', hnames, huids, hu]
  rfl

theorem environment_reads_back_sample :
    let names : Domains := .ofList ["a.b", "c.d"]
    let uids : Std.ExtTreeSet Uid := .ofList [(0 : Uid), 4294967295]
    let env : Environment := .ofList
      [("DV_LINKED_APPS", Utf8.encode ",c.d , \t,a.b,c.d"),
        ("DV_SYSTEM_UIDS", Utf8.encode "0,4294967295")]
    ofEnvironment env = { linkedApps := names, systemUids := uids } := by
  intro names uids env
  have hn : ∀ name ∈ names.toList, Text.Listable name := by decide +kernel
  have hs : Text.Writes names.toList ",c.d , \t,a.b,c.d" := by
    have hi : Text.items ",c.d , \t,a.b,c.d" = ["c.d", "a.b", "c.d"] := by decide +kernel
    have hl : names.toList = ["a.b", "c.d"] := by decide +kernel
    rw [Text.writes_iff hn, hi, hl]
    intro name
    simp only [List.mem_cons, List.not_mem_nil, or_false]
    tauto
  have ht : Text.Writes (uids.toList.map fun uid => uid.toNat.repr) "0,4294967295" := by
    have hl : uids.toList.map (fun uid => uid.toNat.repr) = ["0", "4294967295"] := by
      decide +kernel
    rw [hl]
    exact Text.writes_intercalate _
  refine environment_reads_back.1 env names uids _ _ (fun name hm => ?_) (by decide +kernel) hs ht
    (by decide +kernel) (by decide +kernel)
  exact hn name (Std.ExtTreeSet.mem_toList.mpr hm)

end Environments

end Platform
end LinkTrust
