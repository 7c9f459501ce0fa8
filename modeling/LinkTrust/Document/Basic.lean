import LinkTrust.Record

/-! # Settings documents

What is kept of all records between two runs: one list of entries for the packages that are or will
be installed, and one for those restored from a backup. An entry is a record with its users in a
list.
-/

namespace LinkTrust

/-- One user's choices in a document. -/
structure UserEntry where
  user : UserId
  hosts : Domains := ∅
  /-- The user lets links open in the package. -/
  allowed : Bool := true
deriving DecidableEq

/-- One package in a document. -/
structure Entry where
  name : String
  token : Token
  autoVerify : Bool := false
  verdicts : Verdicts := ∅
  users : List UserEntry := []
deriving DecidableEq

structure Document where
  active : List Entry := []
  restored : List Entry := []
deriving DecidableEq

namespace UserEntry

def ofSelection (s : Selection) : UserEntry :=
  { user := s.user, hosts := s.hosts, allowed := !s.optedOut }

def selection (u : UserEntry) : Selection :=
  { user := u.user, hosts := u.hosts, optedOut := !u.allowed }

@[simp] theorem selection_ofSelection (s : Selection) : (ofSelection s).selection = s := by
  simp [ofSelection, selection]

@[simp] theorem ofSelection_selection (u : UserEntry) : ofSelection u.selection = u := by
  simp [ofSelection, selection]

end UserEntry

namespace Entry

def ofRecord (r : Record) : Entry :=
  { name := r.name, token := r.token, autoVerify := r.autoVerify, verdicts := r.verdicts
    users := r.selections.toList.map fun (_, s) => .ofSelection s }

/-- The record of an entry; of two entries for one user the later counts. -/
def record (e : Entry) : Record :=
  { name := e.name, token := e.token, autoVerify := e.autoVerify, verdicts := e.verdicts
    selections := .ofList (e.users.map fun u => (u.user, u.selection)) }

end Entry

namespace Document

def size (d : Document) : Nat := d.active.length + d.restored.length

def isEmpty (d : Document) : Bool := d.size = 0

/-- All entries, the active ones first. -/
def entries (d : Document) : List Entry := d.active ++ d.restored

end Document
end LinkTrust
