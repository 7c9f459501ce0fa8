import LinkTrust.Domain
import LinkTrust.Token

/-! # Records

The live record of one package: its verdicts, and what each user has selected. A user without a
selection counts as having the empty one.
-/

namespace LinkTrust

/-- One user's choices about one package. -/
structure Selection where
  user : UserId
  hosts : Domains := ∅
  /-- The user does not want links to open in the package. -/
  optedOut : Bool := false
deriving DecidableEq

namespace Selection

def empty (user : UserId) : Selection := { user }

def enable (s : Selection) (hosts : Domains) : Selection := { s with hosts := s.hosts ∪ hosts }

def disable (s : Selection) (hosts : Domains) : Selection := { s with hosts := s.hosts \ hosts }

/-- Keeps the hosts that are still declared. -/
def retain (s : Selection) (declared : Domains) : Selection :=
  { s with hosts := s.hosts ∩ declared }

def optOut (s : Selection) (value : Bool) : Selection := { s with optedOut := value }

end Selection

abbrev Selections := Std.ExtTreeMap UserId Selection

structure Record where
  name : String
  token : Token
  /-- The package has asked for the verification of some domain. -/
  autoVerify : Bool
  verdicts : Verdicts := ∅
  selections : Selections := ∅
deriving DecidableEq

namespace Record

def blank (name : String) (token : Token) (autoVerify : Bool) : Record :=
  { name, token, autoVerify }

/-- Whether the verifier may still decide about a domain. -/
def isOpen (r : Record) (d : String) : Bool := (r.verdicts.get d).isModifiable

/-- The recorded domains about which the verifier may still decide. -/
def modifiableDomains (r : Record) : List String :=
  (r.verdicts.filter fun _ v => v.isModifiable).keys

def assign (r : Record) (ds : Domains) (v : Verdict) : Record :=
  { r with verdicts := r.verdicts.assign ds v }

def selection (r : Record) (user : UserId) : Selection :=
  r.selections[user]?.getD (.empty user)

/-- Changes a user's selection, which is created if there is none. -/
def select (r : Record) (user : UserId) (f : Selection → Selection) : Record :=
  { r with selections := r.selections.insert user (f (r.selection user)) }

def removeUser (r : Record) (user : UserId) : Record :=
  { r with selections := r.selections.erase user }

end Record
end LinkTrust
