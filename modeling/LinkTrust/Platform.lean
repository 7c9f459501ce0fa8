import LinkTrust.Domain
import LinkTrust.Json.Printer
import LinkTrust.Text.Blank

/-! # The platform

What the platform vouches for: the packages whose links it approves itself, and the processes that
it trusts in every role. Both are taken from environment variables or from a JSON value.
-/

namespace LinkTrust

/-- Environment variables with the bytes of their values. -/
abbrev Environment := Std.ExtTreeMap String Bytes

namespace Environment

/-- The value of a variable; one that is no text counts as unset. -/
def text? (env : Environment) (name : String) : Option String := env[name]?.bind Utf8.decode?

end Environment

structure Platform where
  linkedApps : Domains := ∅
  systemUids : Std.ExtTreeSet Uid
deriving DecidableEq

namespace Platform

def rootUid : Uid := 0

def systemUid : Uid := 1000

def defaultUids : Std.ExtTreeSet Uid := .ofList [rootUid, systemUid]

def default : Platform := { systemUids := defaultUids }

def isLinked (p : Platform) (name : String) : Bool := p.linkedApps.contains name

def uid? (s : String) : Option Uid :=
  (Decimal.ofText? s).bind fun n => if n < 0x100000000 then some (UInt32.ofNat n) else none

def uids (s : String) : Std.ExtTreeSet Uid := .ofList ((Text.items s).filterMap uid?)

/-- The platform that the environment describes. Items that are no uids do not count; without any
uid the default ones are trusted. -/
def ofEnvironment (env : Environment) : Platform :=
  { linkedApps := match env.text? "DV_LINKED_APPS" with
      | some s => .ofList (Text.items s)
      | none => ∅
    systemUids := match env.text? "DV_SYSTEM_UIDS" with
      | some s => if (uids s).isEmpty then defaultUids else uids s
      | none => defaultUids }

open Json

def toValue (p : Platform) : Value :=
  .ofFields [("linked_apps", .array (p.linkedApps.toList.map .ofText)),
    ("system_uids", .array (p.systemUids.toList.map fun uid => .ofInteger uid.toNat))]

def ofValue? (v : Value) : Option Platform := do
  match ← v.fields? ["linked_apps", "system_uids"] with
  | [apps, uids] =>
    return { linkedApps := .ofList (← Value.required (Value.list? Value.text?) apps)
             systemUids := .ofList (← Value.required (Value.list? Value.uint32?) uids) }
  | _ => none

def encode (p : Platform) : Bytes := p.toValue.render .compact

def decode? (bytes : Bytes) : Option Platform := (Value.parse? bytes).bind ofValue?

end Platform
end LinkTrust
