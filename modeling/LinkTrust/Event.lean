import LinkTrust.Error

/-! # Events

What is logged: each event with its level, its message and its fields as texts.
-/

namespace LinkTrust

inductive Level where
  | error | warn | info | debug
deriving DecidableEq, Repr

inductive Event where
  | created (linkedApps systemUids : Nat)
  | agentReplaced (available : Bool)
  | callerRejected (role : Role) (uid : Uid)
  | verdictRejected (verdict : Verdict)
  | domainsRejected (name : String) (requested declared : Nat)
  | verdictRecorded (name : String) (verdict : Verdict) (requested modified : Nat)
  | linkHandlingUpdated (name : String) (user : UserId) (allowed : Bool)
  | selectionUpdated (name : String) (user : UserId) (enabled : Bool) (domains : Nat)
  | nothingToResend
  | resending (packages : Nat)
  | requesting (name : String)
  | requestDropped (packages : Nat)
  | tokenCollided (token : Token)
  | tokenMissing (name : String)
  | shadowedDropped (name : String)
  | linksApproved (name : String) (domains : Nat)
  | approvalMigrated (name : String) (domains : Nat)
  | attached (name : String) (token : Token) (fresh : Bool) (domains : Nat)
  | migrationInconsistent (name : String) (old new : Token) (hasRecord hasOld hasNew : Bool)
  | migrated (name : String) (old new : Token) (carried domains : Nat)
  | removed (name : String)
  | nothingToRemove (name : String)
  | userRemoved (user : UserId)
  | written (active restored : Nat)
  | readLate (name : String)
  | readWaiting (pending restored : Nat)
  | read (entries : Nat)
  | restored (entries : Nat)
deriving DecidableEq, Repr

namespace Event

def level : Event → Level
  | tokenMissing .. | migrationInconsistent .. => .error
  | callerRejected .. | verdictRejected .. | domainsRejected .. | tokenCollided ..
  | readLate .. => .warn
  | created .. | agentReplaced .. | resending .. | attached .. | migrated .. | removed ..
  | userRemoved .. | read .. | restored .. => .info
  | verdictRecorded .. | linkHandlingUpdated .. | selectionUpdated .. | nothingToResend
  | requesting .. | requestDropped .. | shadowedDropped .. | linksApproved ..
  | approvalMigrated .. | nothingToRemove .. | written .. | readWaiting .. => .debug

def message : Event → String
  | created .. => "Domain verification service created"
  | agentReplaced .. => "Verification proxy replaced"
  | callerRejected .. => "Rejected caller without required role"
  | verdictRejected .. => "Rejected verifier state outside the settable range"
  | domainsRejected .. => "Rejected undeclared domains"
  | verdictRecorded .. => "Recorded verification result"
  | linkHandlingUpdated .. => "Updated link handling"
  | selectionUpdated .. => "Updated user selection"
  | nothingToResend => "No packages awaiting verification"
  | resending .. => "Re-sending pending verification requests"
  | requesting .. => "Requesting verification"
  | requestDropped .. => "No verification agent connected, dropping request"
  | tokenCollided .. => "Domain set id collision, regenerating"
  | tokenMissing .. => "Package has no domain set id, not attaching"
  | shadowedDropped .. => "Dropped restored state shadowed by pending"
  | linksApproved .. => "Applied platform link approval"
  | approvalMigrated .. => "Migrated legacy approval"
  | attached .. => "Attached package"
  | migrationInconsistent .. => "Inconsistent state during migration, attaching blank state"
  | migrated .. => "Migrated package state"
  | removed .. => "Removed package state"
  | nothingToRemove .. => "No attached state to remove"
  | userRemoved .. => "Removed user selections"
  | written .. => "Wrote domain verification settings"
  | readLate .. => "Settings read after package attach, merging"
  | readWaiting .. | read .. => "Read domain verification settings"
  | restored .. => "Restored domain verification settings"

def flag (b : Bool) : String := if b then "true" else "false"

/-- The fields of an event, each with its value as a text. -/
def fields : Event → List (String × String)
  | created apps uids => [("linked_apps", apps.repr), ("system_uids", uids.repr)]
  | agentReplaced available => [("available", flag available)]
  | callerRejected role uid => [("role", role.render), ("uid", uid.toNat.repr)]
  | verdictRejected verdict => [("state", verdict.render)]
  | domainsRejected name requested declared =>
    [("package", name), ("requested", requested.repr), ("declared", declared.repr)]
  | verdictRecorded name verdict requested modified =>
    [("package", name), ("state", verdict.render), ("requested", requested.repr),
      ("modified", modified.repr)]
  | linkHandlingUpdated name user allowed =>
    [("package", name), ("user_id", user.toNat.repr), ("allowed", flag allowed)]
  | selectionUpdated name user enabled domains =>
    [("package", name), ("user_id", user.toNat.repr), ("enabled", flag enabled),
      ("domains", domains.repr)]
  | nothingToResend => []
  | resending packages | requestDropped packages => [("packages", packages.repr)]
  | tokenCollided token => [("id", token.render)]
  | requesting name | tokenMissing name | shadowedDropped name | removed name
  | nothingToRemove name | readLate name => [("package", name)]
  | linksApproved name domains | approvalMigrated name domains =>
    [("package", name), ("domains", domains.repr)]
  | attached name token fresh domains =>
    [("package", name), ("id", token.render), ("fresh", flag fresh), ("domains", domains.repr)]
  | migrationInconsistent name old new hasRecord hasOld hasNew =>
    [("package", name), ("old_id", old.render), ("new_id", new.render),
      ("has_old_state", flag hasRecord), ("has_old_pkg", flag hasOld),
      ("has_new_pkg", flag hasNew)]
  | migrated name old new carried domains =>
    [("package", name), ("old_id", old.render), ("new_id", new.render),
      ("carried", carried.repr), ("domains", domains.repr)]
  | userRemoved user => [("user_id", user.toNat.repr)]
  | written actives backups => [("active", actives.repr), ("restored", backups.repr)]
  | readWaiting pending backups => [("pending", pending.repr), ("restored", backups.repr)]
  | read entries | restored entries => [("entries", entries.repr)]

end Event
end LinkTrust
