import LinkTrust.Backup
import LinkTrust.Document.Basic
import LinkTrust.Roster

/-! # Stores

All records: those of attached packages, those read from disk that wait for their package, and those
restored from a backup that do. Documents are read into the stores, and a document of everything is
taken from them.
-/

namespace LinkTrust

/-- Records that wait for their package, by its name. -/
abbrev Waiting := Std.ExtTreeMap String Record

structure Stores where
  attached : Roster Record := {}
  pending : Waiting := ∅
  restored : Waiting := ∅
deriving DecidableEq

/-- Where the record of a package that is added comes from. -/
inductive Origin where
  | fresh
  | pending (record : Record)
  | restored (record : Record)
deriving DecidableEq

namespace Origin

def isFresh : Origin → Bool
  | fresh => true
  | _ => false

def record? : Origin → Option Record
  | fresh => none
  | pending r => some r
  | restored r => some r

end Origin

namespace Stores

/-- Whether a record that waits has the token. -/
def isAwaited (s : Stores) (token : Token) : Bool :=
  (s.pending.values ++ s.restored.values).any (·.token = token)

/-- Whether any record has the token. -/
def containsToken (s : Stores) (token : Token) : Bool :=
  s.attached.containsToken token || s.isAwaited token

/-- The record that waits for a package; one read from disk hides one from a backup. -/
def origin (s : Stores) (name : String) : Origin :=
  match s.pending[name]?, s.restored[name]? with
  | some r, _ => .pending r
  | none, some r => .restored r
  | none, none => .fresh

/-- Whether a package has both a record from disk and a hidden one from a backup. -/
def isShadowed (s : Stores) (name : String) : Bool :=
  s.pending.contains name && s.restored.contains name

/-- Drops whatever waits for a package. -/
def settle (s : Stores) (name : String) : Stores :=
  { s with pending := s.pending.erase name, restored := s.restored.erase name }

def attach (s : Stores) (name : String) (token : Token) (r : Record) : Stores :=
  { s with attached := s.attached.enter name token r }

/-- Forgets a user's choices about packages that wait. -/
def removeWaitingUser (s : Stores) (user : UserId) : Stores :=
  { s with
    pending := s.pending.map fun _ r => r.removeUser user
    restored := s.restored.map fun _ r => r.removeUser user }

def removeUser (s : Stores) (user : UserId) : Stores :=
  { s.removeWaitingUser user with attached := s.attached.mapValues (·.removeUser user) }

/-- Reads an active entry. It waits for its package; if the package is attached already under
another token, the entry counts as one from a backup. -/
def readActive (s : Stores) (incoming : Record) : Stores :=
  match s.attached.get? incoming.name with
  | some existing =>
    if existing.token = incoming.token then s
    else { s with attached := s.attached.modify incoming.name (Backup.merge · incoming) }
  | none => { s with pending := s.pending.insert incoming.name incoming }

def readRestored (s : Stores) (incoming : Record) : Stores :=
  { s with restored := s.restored.insert incoming.name incoming }

/-- Reads a document that was taken from stores. -/
def read (s : Stores) (d : Document) : Stores :=
  (d.restored.map Entry.record).foldl readRestored
    ((d.active.map Entry.record).foldl readActive s)

/-- Restores a record: it joins the attached, pending or restored record of its package, the first
that there is, and otherwise waits with its trusted verdicts. -/
def restoreRecord (s : Stores) (incoming : Record) : Stores :=
  if s.attached.contains incoming.name then
    { s with attached := s.attached.modify incoming.name (Backup.merge · incoming) }
  else if s.pending.contains incoming.name then
    { s with pending := s.pending.modify incoming.name (Backup.merge · incoming) }
  else if s.restored.contains incoming.name then
    { s with restored := s.restored.modify incoming.name (Backup.merge · incoming) }
  else { s with restored := s.restored.insert incoming.name (Backup.coerce incoming) }

/-- Restores the entries of a backup, whichever list they stand in. -/
def restore (s : Stores) (d : Document) : Stores :=
  (d.entries.map Entry.record).foldl restoreRecord s

/-- The document of all records: attached and pending ones are active. -/
def snapshot (s : Stores) : Document :=
  { active := ((s.attached.values ++ s.pending.values).map Entry.ofRecord).mergeSort
      fun e f => e.name ≤ f.name
    restored := s.restored.values.map Entry.ofRecord }

end Stores
end LinkTrust
