import LinkTrust.Domain

/-! # Verification agents

The channel to the agent that verifies domains. Until an agent is connected, requests are dropped;
a connected agent keeps all that it has received, the oldest first.
-/

namespace LinkTrust

/-- What a connected agent has received. -/
structure Inbox where
  verifier? : Option Uid := none
  broadcasts : List Domains := []
  messages : List UInt32 := []
deriving DecidableEq

inductive Agent where
  | unavailable
  | connected (inbox : Inbox)
deriving DecidableEq

namespace Inbox

/-- All packages that were named, in the order in which they were. -/
def notified (i : Inbox) : List String := i.broadcasts.flatMap (·.toList)

def clear (i : Inbox) : Inbox := { i with broadcasts := [], messages := [] }

end Inbox

namespace Agent

def connect (verifier? : Option Uid) : Agent := .connected { verifier? }

def isAvailable : Agent → Bool
  | unavailable => false
  | connected _ => true

/-- Whether a caller is the agent. -/
def isVerifier (a : Agent) (uid : Uid) : Bool :=
  match a with
  | unavailable => false
  | connected i => i.verifier? = some uid

/-- Asks the agent to verify some packages. -/
def send (a : Agent) (names : Domains) : Agent :=
  match a with
  | unavailable => unavailable
  | connected i => connected { i with broadcasts := i.broadcasts ++ [names] }

/-- Passes on a message, which only a connected agent handles. -/
def deliver (a : Agent) (message : UInt32) : Agent :=
  match a with
  | unavailable => unavailable
  | connected i => connected { i with messages := i.messages ++ [message] }

end Agent
end LinkTrust
