import LinkTrust.Document.Transfer
import LinkTrust.Event
import LinkTrust.Host
import LinkTrust.Stores

/-! # The registry

The registry of packages and their links, with the host that it serves and the agent that it asks.
A call answers with a result, the registry after it, and what was logged. A call that is rejected
leaves the registry as it was.
-/

namespace LinkTrust

structure Registry where
  platform : Platform
  policy : Policy
  host : Host := {}
  agent : Agent := .unavailable
  stores : Stores := {}
deriving DecidableEq

/-- What comes of a call. -/
structure Reply (α : Type) where
  result : α
  registry : Registry
  events : List Event := []

/-- Why a call is rejected, and what is logged about it. -/
structure Rejection where
  error : Error
  event? : Option Event := none
deriving DecidableEq

namespace Reply

variable {α β : Type}

def map (f : α → β) (r : Reply α) : Reply β :=
  { result := f r.result, registry := r.registry, events := r.events }

end Reply

namespace Registry

variable {α : Type}

/-- A registry without packages and without an agent. -/
def create (platform : Platform) (policy : Policy) : Registry := { platform, policy }

/-- What is logged when a registry is created. -/
def creation (s : Registry) : Event :=
  .created s.platform.linkedApps.size s.platform.systemUids.size

def reject (s : Registry) (r : Rejection) : Reply (Except Error α) :=
  { result := .error r.error, registry := s, events := r.event?.toList }

/-- Whether the caller may make a call. -/
def authorize (s : Registry) (demand : Demand) : Except Rejection Unit :=
  match s.policy.check s.agent s.host.caller demand with
  | .ok () => .ok ()
  | .error error => .error ⟨error, some (.callerRejected demand.role s.host.caller.uid)⟩

def scheduleWrite (s : Registry) : Registry := { s with host := s.host.scheduleWrite }

def mapAttached (s : Registry) (f : Roster Record → Roster Record) : Registry :=
  { s with stores := { s.stores with attached := f s.stores.attached } }

/-- Sends a request to the agent. -/
def broadcast (s : Registry) (names : Domains) : Reply Unit :=
  { result := ()
    registry := { s with agent := s.agent.send names }
    events := if s.agent.isAvailable then [] else [.requestDropped names.size] }

/-- Asks the agent to verify one package. -/
def request (s : Registry) (name : String) : Reply Unit :=
  let sent := s.broadcast (.ofList [name])
  { sent with events := .requesting name :: sent.events }

/-- Ends a change of the stores: the settings are to be written, and the agent is asked about a
package if there is reason to. -/
def conclude (s : Registry) (events : List Event) (asked? : Option String) : Reply Unit :=
  let s := s.scheduleWrite
  match asked? with
  | some name =>
    let sent := s.request name
    { sent with events := events ++ sent.events }
  | none => { result := (), registry := s, events }

/-- Connects another agent. -/
def setAgent (s : Registry) (agent : Agent) : Reply Unit :=
  { result := (), registry := { s with agent }, events := [.agentReplaced agent.isAvailable] }

/-- Passes a message to the agent; the answer is whether it was handled. -/
def sendMessage (s : Registry) (message : UInt32) : Reply Bool :=
  { result := s.agent.isAvailable, registry := { s with agent := s.agent.deliver message } }

end Registry
end LinkTrust
