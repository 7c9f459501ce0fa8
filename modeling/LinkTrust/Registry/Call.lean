import LinkTrust.Registry.Packages
import LinkTrust.Registry.Selections
import LinkTrust.Registry.Storage

/-! # Calls

All that can happen to a registry, as data: the calls of the verifier and of users, those of the
package manager, and changes of the host. `perform` makes one call and `after` a row of them.
-/

namespace LinkTrust

inductive Call where
  | install (i : Installation)
  | uninstall (name : String)
  | makeUnavailable (name : String)
  | setCaller (caller : Caller)
  | setAgent (agent : Agent)
  | hasAgent
  | sendMessage (message : UInt32)
  | resend
  | newToken (candidates : List Token)
  | addPackage (i : Installation)
  | migratePackage (old new : Installation)
  | removePackage (name : String)
  | removeUser (user : UserId)
  | writeState (sink : Sink)
  | readState (source : Source)
  | restoreState (source : Source)
  | verifiedNames
  | verificationSet (name : String)
  | setVerdict (token : Token) (domains : Domains) (verdict : Verdict)
  /-- Without a user, this and the next two calls are about the user of the caller. -/
  | setLinkHandling (name : String) (allowed : Bool) (user? : Option UserId)
  | setSelection (token : Token) (hosts : Domains) (enabled : Bool) (user? : Option UserId)
  | selection (name : String) (user? : Option UserId)

inductive Answer where
  | done
  | flag (value : Bool)
  | count (value : Nat)
  | names (value : List String)
  | batch (value : Domains)
  | token (value : Option Token)
  | text (value : Bytes)
  | verificationSet (value : Option VerificationSet)
  | selection (value : Option SelectionView)
  | rejected (error : Error)
deriving DecidableEq

namespace Answer

variable {α : Type}

def ofExcept (f : α → Answer) : Except Error α → Answer
  | .ok a => f a
  | .error e => .rejected e

end Answer

namespace Registry

def userOr (s : Registry) (user? : Option UserId) : UserId := user?.getD s.host.caller.user

/-- Makes one call. -/
def perform (s : Registry) : Call → Reply Answer
  | .install i => { result := .done, registry := { s with host := s.host.install i } }
  | .uninstall name =>
    { result := .flag (s.host.installation? name).isSome
      registry := { s with host := s.host.uninstall name } }
  | .makeUnavailable name =>
    { result := .done, registry := { s with host := s.host.makeUnavailable name } }
  | .setCaller caller => { result := .done, registry := { s with host := s.host.setCaller caller } }
  | .setAgent agent => (s.setAgent agent).map fun _ => .done
  | .hasAgent => { result := .flag s.agent.isAvailable, registry := s }
  | .sendMessage message => (s.sendMessage message).map .flag
  | .resend => s.resend.map .batch
  | .newToken candidates => (s.newToken candidates).map .token
  | .addPackage i => (s.addPackage i).map fun _ => .done
  | .migratePackage old new => (s.migratePackage old new).map fun _ => .done
  | .removePackage name => (s.removePackage name).map fun _ => .done
  | .removeUser user => (s.removeUser user).map fun _ => .done
  | .writeState sink => (s.writeState sink).map (.ofExcept .text)
  | .readState source => (s.readState source).map (.ofExcept fun _ => .done)
  | .restoreState source => (s.restoreState source).map (.ofExcept fun _ => .done)
  | .verifiedNames => s.verifiedNames.map (.ofExcept .names)
  | .verificationSet name => (s.verificationSet name).map (.ofExcept .verificationSet)
  | .setVerdict token domains verdict =>
    (s.setVerdict token domains verdict).map (.ofExcept .count)
  | .setLinkHandling name allowed user? =>
    (s.setLinkHandling name allowed (s.userOr user?)).map (.ofExcept fun _ => .done)
  | .setSelection token hosts enabled user? =>
    (s.setSelection token hosts enabled (s.userOr user?)).map (.ofExcept fun _ => .done)
  | .selection name user? =>
    (s.selection name (s.userOr user?)).map (.ofExcept .selection)

/-- The registry after a row of calls. -/
def after (s : Registry) (calls : List Call) : Registry :=
  calls.foldl (fun s call => (s.perform call).registry) s

end Registry
end LinkTrust
