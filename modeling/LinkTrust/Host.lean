import LinkTrust.Installation
import LinkTrust.Policy

/-! # The host

The side of the package manager: the installed packages, who is calling, and how often it was asked
to write the settings.
-/

namespace LinkTrust

structure Host where
  installed : Std.ExtTreeMap String Installation := ∅
  caller : Caller := {}
  writes : Nat := 0
deriving DecidableEq

namespace Host

def install (h : Host) (i : Installation) : Host :=
  { h with installed := h.installed.insert i.name i }

/-- The settings of a package, if it is installed. -/
def installation? (h : Host) (name : String) : Option Installation := h.installed[name]?

/-- The manifest of a package, if it is installed and can be resolved. -/
def manifest? (h : Host) (name : String) : Option Manifest :=
  h.installed[name]?.bind (·.manifest?)

/-- Both lookups go to one table: a package whose reports are resolved by way of its settings is one
whose manifest is found, and the other way round. -/
@[simp] theorem bind_installation? (h : Host) (name : String) :
    (h.installation? name).bind (·.manifest?) = h.manifest? name := rfl

def uninstall (h : Host) (name : String) : Host :=
  { h with installed := h.installed.erase name }

/-- Keeps a package installed but its manifest out of reach. -/
def makeUnavailable (h : Host) (name : String) : Host :=
  { h with installed := h.installed.modify name fun i => { i with manifest? := none } }

def setCaller (h : Host) (caller : Caller) : Host := { h with caller }

/-- Asks for the settings to be written at some time. -/
def scheduleWrite (h : Host) : Host := { h with writes := h.writes + 1 }

end Host
end LinkTrust
