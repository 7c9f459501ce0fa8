import LinkTrust.Agent
import LinkTrust.Error
import LinkTrust.Platform

/-! # Policies

Who may make which call. The platform's processes may make every call; the verifier's and the
querent's calls are open to the connected agent too, and a user's selections to any caller that acts
for this user. An open policy allows every call.
-/

namespace LinkTrust

/-- A calling process and the user it acts for. -/
structure Caller where
  uid : Uid := 0
  user : UserId := 0
deriving DecidableEq, Repr

/-- What a call demands of its caller. -/
inductive Demand where
  | verifier
  | querent
  /-- The caller may change the selections of this user. -/
  | selectorFor (target : UserId)
deriving DecidableEq, Repr

namespace Demand

def role : Demand → Role
  | verifier => .verifier
  | querent => .querent
  | selectorFor _ => .userSelector

end Demand

inductive Policy where
  | trusting (uids : Std.ExtTreeSet Uid)
  | openToAll
deriving DecidableEq

namespace Policy

def ofPlatform (p : Platform) : Policy := .trusting p.systemUids

def default : Policy := ofPlatform .default

def allows (p : Policy) (agent : Agent) (caller : Caller) (demand : Demand) : Bool :=
  match p with
  | openToAll => true
  | trusting uids =>
    uids.contains caller.uid ||
      match demand with
      | .verifier => agent.isVerifier caller.uid
      | .querent => agent.isVerifier caller.uid
      | .selectorFor target => caller.user = target

def check (p : Policy) (agent : Agent) (caller : Caller) (demand : Demand) : Except Error Unit :=
  if p.allows agent caller demand then .ok ()
  else .error (.notAuthorized demand.role caller.uid)

end Policy
end LinkTrust
