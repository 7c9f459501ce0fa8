import LinkTrust.Token
import Std.Data.ExtTreeMap

/-! # Rosters

Values that can be found under a name and under a token. `Coherent` says that the two indices agree;
every operation keeps it. Entering a value under a name and a token drops whatever either of them
stood for.
-/

namespace LinkTrust

structure Roster (α : Type) where
  byName : Std.ExtTreeMap String (Token × α) := ∅
  nameOf : Std.ExtTreeMap Token String := ∅
deriving DecidableEq

namespace Roster

variable {α : Type}

/-- A token leads to a name exactly if the entry of that name has the token. -/
def Coherent (r : Roster α) : Prop :=
  ∀ (token : Token) (name : String),
    r.nameOf[token]? = some name ↔ ∃ value : α, r.byName[name]? = some (token, value)

def empty : Roster α := {}

def size (r : Roster α) : Nat := r.byName.size

def isEmpty (r : Roster α) : Bool := r.byName.isEmpty

def contains (r : Roster α) (name : String) : Bool := r.byName.contains name

def get? (r : Roster α) (name : String) : Option α := r.byName[name]?.map (·.2)

def containsToken (r : Roster α) (token : Token) : Bool := r.nameOf.contains token

def getByToken? (r : Roster α) (token : Token) : Option α := r.nameOf[token]?.bind r.get?

/-- Changes the value under a name, if there is one. -/
def modify (r : Roster α) (name : String) (f : α → α) : Roster α :=
  { r with byName := r.byName.modify name fun (token, value) => (token, f value) }

def modifyByToken (r : Roster α) (token : Token) (f : α → α) : Roster α :=
  match r.nameOf[token]? with
  | some name => r.modify name f
  | none => r

def mapValues (r : Roster α) (f : α → α) : Roster α :=
  { r with byName := r.byName.map fun _ (token, value) => (token, f value) }

/-- Frees a token by dropping the entry of another name that has it. -/
def free (r : Roster α) (name : String) (token : Token) : Roster α :=
  match r.nameOf[token]? with
  | some other => if other = name then r else { r with byName := r.byName.erase other }
  | none => r

/-- Enters a value; the answer is the value that the name stood for before. -/
def put (r : Roster α) (name : String) (token : Token) (value : α) : Option α × Roster α :=
  let freed := r.free name token
  let previous := freed.byName[name]?
  let nameOf :=
    match previous with
    | some (old, _) => if old = token then freed.nameOf else freed.nameOf.erase old
    | none => freed.nameOf
  (previous.map (·.2),
    { byName := freed.byName.insert name (token, value), nameOf := nameOf.insert token name })

def enter (r : Roster α) (name : String) (token : Token) (value : α) : Roster α :=
  (r.put name token value).2

/-- Drops the entry of a name; the answer is its value. -/
def remove (r : Roster α) (name : String) : Option α × Roster α :=
  match r.byName[name]? with
  | some (token, value) =>
    (some value, { byName := r.byName.erase name, nameOf := r.nameOf.erase token })
  | none => (none, r)

/-- Drops the entry that has a token; the answer is its value. -/
def removeByToken (r : Roster α) (token : Token) : Option α × Roster α :=
  match r.nameOf[token]? with
  | some name =>
    (r.get? name, { byName := r.byName.erase name, nameOf := r.nameOf.erase token })
  | none => (none, r)

/-- The names, tokens and values in the order of the names. -/
def toList (r : Roster α) : List (String × Token × α) := r.byName.toList

def values (r : Roster α) : List α := r.toList.map fun (_, _, value) => value

def valueAt? (r : Roster α) (index : Nat) : Option α := r.values[index]?

@[simp] theorem coherent_empty : (empty : Roster α).Coherent := by
  intro token name
  simp [empty]

end Roster
end LinkTrust
