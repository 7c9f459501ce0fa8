import LinkTrust.Logging.Directive
import LinkTrust.Platform

/-! # Log settings

How much is logged and in which form. A log filter is a list of directives with commas between them.
-/

namespace LinkTrust

structure Logging where
  filter : String := "info"
  json : Bool := false
deriving DecidableEq, Repr

/-- Why logging could not be set up. -/
inductive LoggingError where
  | filter
  | install
deriving DecidableEq, Repr

namespace Logging

def default : Logging := {}

/-- The settings in the environment: the first filter that is set, and JSON if it is switched on.
No letters but A to Z have those of the word as small letters. -/
def ofEnvironment (env : Environment) : Logging :=
  { filter := (env.text? "DV_LOG_LEVEL" <|> env.text? "RUST_LOG").getD default.filter
    json := match env.text? "DV_JSON_LOGS" with
      | some s => Text.lower s = "true" || s = "1"
      | none => false }

/-- Whether every directive of the filter can be read; empty ones do not count. -/
def isValidFilter (s : String) : Bool :=
  ((Text.splitAt ',' s.toList).filter (· ≠ [])).all Directive.isValid

/-- Sets up logging where it may have been set up before, which is possible once. -/
def install (l : Logging) (installed : Bool) : Except LoggingError Unit :=
  if !isValidFilter l.filter then .error .filter
  else if installed then .error .install
  else .ok ()

end Logging
end LinkTrust
