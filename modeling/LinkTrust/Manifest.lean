import LinkTrust.Domain
import LinkTrust.Text.Blank

/-! # Manifests

What a package declares about the links that it opens. Its web domains are the hosts of its web
filters, and its auto-verify domains the hosts of those web filters that ask for verification.
Hosts count without surrounding blanks and in small letters.
-/

namespace LinkTrust

structure LinkFilter where
  autoVerify : Bool := false
  browsable : Bool := false
  schemes : List String := []
  hosts : List String := []
deriving DecidableEq, Repr

namespace LinkFilter

/-- The usual filter for web links. -/
def web (autoVerify : Bool) (hosts : List String) : LinkFilter :=
  { autoVerify, browsable := true, schemes := ["http", "https"], hosts }

/-- Whether the filter takes web links and nothing else. -/
def handlesWeb (f : LinkFilter) : Bool :=
  f.browsable && !f.schemes.isEmpty &&
    f.schemes.all fun s => Text.lower s = "http" || Text.lower s = "https"

/-- The hosts of the filter in the form in which they are compared; one that is blank is left
out. -/
def domains (f : LinkFilter) : List String :=
  (f.hosts.map fun h => Text.lower (String.ofList (Text.trim h.toList))).filter (· ≠ "")

end LinkFilter

structure Manifest where
  package : String
  filters : List LinkFilter := []
deriving DecidableEq, Repr

namespace Manifest

/-- The domains of the web filters of some kind. -/
def collect (m : Manifest) (kind : LinkFilter → Bool) : Domains :=
  .ofList ((m.filters.filter fun f => f.handlesWeb && kind f).flatMap LinkFilter.domains)

def autoVerifyDomains (m : Manifest) : Domains := m.collect LinkFilter.autoVerify

def webDomains (m : Manifest) : Domains := m.collect fun _ => true

theorem mem_collect {m : Manifest} {kind : LinkFilter → Bool} {d : String} :
    d ∈ m.collect kind ↔ ∃ f ∈ m.filters, f.handlesWeb = true ∧ kind f = true ∧ d ∈ f.domains := by
  simp only [collect, Std.ExtTreeSet.mem_ofList, List.contains_iff_mem, List.mem_flatMap,
    List.mem_filter, Bool.and_eq_true]
  simp only [and_assoc]

end Manifest
end LinkTrust
