import LinkTrust.Verdict
import Std.Data.ExtTreeMap
import Std.Data.ExtTreeSet

/-! # Domains, users and callers

Domains, hosts and package names are texts, compared code point by code point. Sets and maps over
them are extensional and list their elements in increasing order.
-/

namespace LinkTrust

/-- A user of the device. -/
abbrev UserId := UInt32

/-- The identity of a calling process. -/
abbrev Uid := UInt32

/-- A set of domains, of hosts or of package names. -/
abbrev Domains := Std.ExtTreeSet String

/-- What is recorded about the domains of one package. -/
abbrev Verdicts := Std.ExtTreeMap String Verdict

namespace Domains

variable {β : Type}

def subset (s t : Domains) : Bool := s.toList.all (t.contains ·)

theorem subset_iff {s t : Domains} : s.subset t = true ↔ ∀ d ∈ s, d ∈ t := by
  simp [subset, Std.ExtTreeSet.mem_toList]

/-- The map that gives one value to all elements. -/
def mapTo (s : Domains) (b : β) : Std.ExtTreeMap String β :=
  s.toList.foldl (fun m d => m.insert d b) ∅

theorem getElem?_foldl_insert (l : List String) (m : Std.ExtTreeMap String β) (b : β)
    (d : String) :
    (l.foldl (fun m d => m.insert d b) m)[d]? = if d ∈ l then some b else m[d]? := by
  induction l generalizing m with
  | nil => simp
  | cons e l ih =>
    rw [List.foldl_cons, ih, Std.ExtTreeMap.getElem?_insert]
    by_cases h : d ∈ l
    · simp [h]
    · by_cases he : e = d
      · simp [he]
      · simp [h, he, Ne.symm he]

@[simp] theorem getElem?_mapTo (s : Domains) (b : β) (d : String) :
    (s.mapTo b)[d]? = if d ∈ s then some b else none := by
  simp [mapTo, getElem?_foldl_insert, Std.ExtTreeSet.mem_toList]

end Domains

namespace Verdicts

/-- The verdict on a domain; one that is not recorded has had no response. -/
def get (m : Verdicts) (d : String) : Verdict := m[d]?.getD .noResponse

/-- Gives one verdict to all domains of a set. -/
def assign (m : Verdicts) (ds : Domains) (v : Verdict) : Verdicts := m ∪ ds.mapTo v

/-- Adds the domains of a set that are not recorded. -/
def cover (m : Verdicts) (ds : Domains) : Verdicts := ds.mapTo .noResponse ∪ m

@[simp] theorem getElem?_assign (m : Verdicts) (ds : Domains) (v : Verdict) (d : String) :
    (m.assign ds v)[d]? = if d ∈ ds then some v else m[d]? := by
  rw [assign, Std.ExtTreeMap.getElem?_union, Domains.getElem?_mapTo]
  split <;> simp

@[simp] theorem getElem?_cover (m : Verdicts) (ds : Domains) (d : String) :
    (m.cover ds)[d]? = m[d]?.or (if d ∈ ds then some .noResponse else none) := by
  rw [cover, Std.ExtTreeMap.getElem?_union, Domains.getElem?_mapTo]

end Verdicts
end LinkTrust
