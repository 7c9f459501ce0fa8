import LinkTrust.Manifest
import LinkTrust.Token

/-! # Installations

An installed package as the host describes it. The manifest is missing while the package cannot be
resolved. Users' choices and the approval from before verification existed are kept as preferences.
-/

namespace LinkTrust

inductive LegacyPreference where
  | undefined | ask | always | never | alwaysAsk
deriving DecidableEq, Repr

structure Installation where
  name : String
  token? : Option Token := none
  manifest? : Option Manifest := none
  preferences : Std.ExtTreeMap UserId LegacyPreference := ∅
  legacyApproval? : Option LegacyPreference := none
deriving DecidableEq

namespace Installation

/-- The token that the host has assigned, or the nil token. -/
def token (i : Installation) : Token := i.token?.getD .nil

def autoVerifyDomains (i : Installation) : Domains :=
  (i.manifest?.map Manifest.autoVerifyDomains).getD ∅

def webDomains (i : Installation) : Domains :=
  (i.manifest?.map Manifest.webDomains).getD ∅

/-- The users who always opened links in the package. -/
def usersAlways (i : Installation) : List UserId :=
  (i.preferences.filter fun _ p => p = .always).keys

/-- Whether all domains of the package were approved. -/
def isAlwaysApproved (i : Installation) : Bool := i.legacyApproval? = some .always

end Installation
end LinkTrust
