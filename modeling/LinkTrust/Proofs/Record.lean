import LinkTrust.Document.Basic
import LinkTrust.Upgrade
import LinkTrust.Backup
import LinkTrust.Proofs.Collections

/-! # Sound records

A record is sound if every selection stands under its own user and every verdict is canonical.
Whatever is done to a sound record gives a sound one, a merge with another sound record included.
What a change of one user's selection does is stated once for all users.
-/

namespace LinkTrust

namespace Selections

def Keyed (m : Selections) : Prop := ∀ (u : UserId) (s : Selection), m[u]? = some s → s.user = u

end Selections

namespace Verdicts

variable {m : Verdicts} {v : Verdict}

def Canonical (m : Verdicts) : Prop :=
  ∀ (d : String) (v : Verdict), m[d]? = some v → v.IsCanonical

theorem Canonical.assign (h : m.Canonical) (hv : v.IsCanonical) (ds : Domains) :
    (m.assign ds v).Canonical := by
  intro d w hw
  rw [getElem?_assign] at hw
  split at hw
  · cases hw; exact hv
  · exact h d w hw

end Verdicts

namespace Backup

variable {existing incoming : Record} {d : String} {v : Verdict}

theorem getElem?_mergeVerdicts (m m' : Verdicts) (d : String) : (mergeVerdicts m m')[d]? =
    if (m.get d).code = 0 ∧ ∃ v : Verdict, m'[d]? = some v ∧ v.isRestorable = true
    then some .restored else m[d]? := by
  simp only [mergeVerdicts, answers, Std.ExtTreeMap.getElem?_union,
    Std.ExtTreeMap.getElem?_filterMap', Bool.and_eq_true, Verdict.agrees_iff]
  cases hd : m'[d]? with
  | none => simp
  | some v =>
    have h₀ : Verdict.noResponse.code = 0 := rfl
    by_cases hr : v.isRestorable = true <;> by_cases hc : (m.get d).code = 0 <;>
      simp [hr, hc, h₀]

theorem getElem?_mergeSelections (m m' : Selections) (u : UserId) : (mergeSelections m m')[u]? =
    match m[u]?, m'[u]? with
    | some own, some s => some (own.enable s.hosts)
    | some own, none => some own
    | none, s? => s? := by
  simp only [mergeSelections, Std.ExtTreeMap.getElem?_union, Std.ExtTreeMap.getElem?_map]
  cases m[u]? <;> cases m'[u]? <;> simp

theorem getElem?_verdicts_coerce : (coerce existing).verdicts[d]? = some v ↔
    v = .restored ∧ ∃ w : Verdict, existing.verdicts[d]? = some w ∧ w.isRestorable = true := by
  simp only [coerce, Std.ExtTreeMap.getElem?_map, Std.ExtTreeMap.getElem?_filter',
    Option.map_eq_some_iff, Option.filter_eq_some_iff]
  constructor
  · rintro ⟨w, hw, rfl⟩; exact ⟨rfl, w, hw⟩
  · rintro ⟨rfl, w, hw⟩; exact ⟨w, hw, rfl⟩

end Backup

namespace Selection

theorem enable_enable (s : Selection) (hosts : Domains) :
    (s.enable hosts).enable hosts = s.enable hosts := by
  have h : s.hosts ∪ hosts ∪ hosts = s.hosts ∪ hosts := by
    ext d
    simp only [Std.ExtTreeSet.mem_union_iff, or_assoc, or_self]
  exact congrArg (Selection.mk s.user · s.optedOut) h

theorem enable_union (s : Selection) (hosts hosts' : Domains) :
    s.enable (hosts ∪ hosts') = (s.enable hosts).enable hosts' := by
  have h : s.hosts ∪ (hosts ∪ hosts') = s.hosts ∪ hosts ∪ hosts' := by
    ext d
    simp only [Std.ExtTreeSet.mem_union_iff, or_assoc]
  exact congrArg (Selection.mk s.user · s.optedOut) h

theorem enable_empty (user : UserId) (hosts : Domains) :
    (Selection.empty user).enable hosts = { user, hosts } := by
  have h : (∅ : Domains) ∪ hosts = hosts := by
    ext d
    simp [Std.ExtTreeSet.mem_union_iff]
  exact congrArg (Selection.mk user · false) h

end Selection

attribute [ext] Record

namespace Record

variable {r r' : Record} {u w : UserId} {f : Selection → Selection}

section Select

theorem getElem?_select : (r.select u f).selections[w]? =
    if w = u then some (f (r.selection u)) else r.selections[w]? := by
  simp only [select, Std.ExtTreeMap.getElem?_insert, Std.LawfulEqCmp.compare_eq_iff_eq]
  by_cases h : u = w
  · simp [h]
  · simp [h, Ne.symm h]

theorem selection_select : (r.select u f).selection w =
    if w = u then f (r.selection u) else r.selection w := by
  rw [selection, getElem?_select]
  split
  · rfl
  · rfl

/-- Users who are named twice in a row still select the hosts once. -/
theorem getElem?_foldl_select_enable (users : List UserId) (hosts : Domains) :
    (users.foldl (fun r user => r.select user (·.enable hosts)) r).selections[w]? =
      if w ∈ users then some ((r.selection w).enable hosts) else r.selections[w]? := by
  induction users generalizing r with
  | nil => simp
  | cons u users ih =>
    rw [List.foldl_cons, ih, getElem?_select, selection_select]
    by_cases hw : w = u
    · subst hw
      simp [Selection.enable_enable]
    · simp [hw]

end Select

/-- Every selection stands under its own user, and every verdict is canonical. -/
structure Sound (r : Record) : Prop where
  keyed : r.selections.Keyed
  canonical : r.verdicts.Canonical

theorem sound_blank (name : String) (token : Token) (autoVerify : Bool) :
    (blank name token autoVerify).Sound :=
  ⟨fun _ _ h => by simp [blank] at h, fun _ _ h => by simp [blank] at h⟩

theorem Sound.assign (h : r.Sound) {v : Verdict} (hv : v.IsCanonical) (ds : Domains) :
    (r.assign ds v).Sound :=
  ⟨h.keyed, h.canonical.assign hv ds⟩

theorem Sound.user_selection (h : r.Sound) : (r.selection u).user = u := by
  unfold selection
  cases hs : r.selections[u]? with
  | none => rfl
  | some s => exact h.keyed u s hs

theorem Sound.select (h : r.Sound) (hf : ∀ s, (f s).user = s.user) : (r.select u f).Sound := by
  refine ⟨fun w s hs => ?_, h.canonical⟩
  rw [getElem?_select] at hs
  split at hs
  · rename_i hw
    cases hs
    rw [hf, h.user_selection, hw]
  · exact h.keyed w s hs

theorem Sound.removeUser (h : r.Sound) : (r.removeUser u).Sound := by
  refine ⟨fun w s hs => ?_, h.canonical⟩
  simp only [Record.removeUser, Std.ExtTreeMap.getElem?_erase] at hs
  split at hs
  · cases hs
  · exact h.keyed w s hs

theorem Sound.merge (h : r.Sound) (h' : r'.Sound) : (Backup.merge r r').Sound := by
  refine ⟨fun w s hs => ?_, fun d v hv => ?_⟩
  · simp only [Backup.merge, Backup.getElem?_mergeSelections] at hs
    split at hs
    · rename_i own _ ho _
      cases hs
      exact (h.keyed w own ho : own.user = w)
    · rename_i ho _
      cases hs
      exact h.keyed w _ ho
    · exact h'.keyed w s hs
  · simp only [Backup.merge, Backup.getElem?_mergeVerdicts] at hv
    split at hv
    · cases hv; rfl
    · exact h.canonical d v hv

/-- Whatever the verdicts of a record, those that are kept of it are canonical. -/
theorem sound_coerce (h : r.selections.Keyed) : (Backup.coerce r).Sound := by
  refine ⟨h, fun d v hv => ?_⟩
  obtain ⟨rfl, -⟩ := Backup.getElem?_verdicts_coerce.mp hv
  rfl

end Record

namespace Upgrade

variable {verdicts : Verdicts} {selections : Selections} {ds : Domains}

theorem canonical_carryVerdicts (h : verdicts.Canonical) :
    (carryVerdicts verdicts ds).Canonical :=
  fun d v hv => h d v (getElem?_carryVerdicts.mp hv).1

theorem keyed_carrySelections (h : selections.Keyed) : (carrySelections selections ds).Keyed := by
  intro u s hs
  simp only [carrySelections, Std.ExtTreeMap.getElem?_map, Option.map_eq_some_iff] at hs
  obtain ⟨own, ho, rfl⟩ := hs
  exact h u own ho

end Upgrade

namespace Entry

theorem keyed_ofList (users : List UserEntry) :
    Selections.Keyed (.ofList (users.map fun u => (u.user, u.selection))) := by
  intro u s hs
  obtain ⟨e, -, he⟩ := List.mem_map.mp (Collections.mem_of_getElem?_ofList hs)
  cases he
  rfl

/-- An entry with canonical verdicts gives a sound record. -/
theorem sound_record {e : Entry} (h : e.verdicts.Canonical) : e.record.Sound :=
  ⟨keyed_ofList e.users, h⟩

end Entry
end LinkTrust
