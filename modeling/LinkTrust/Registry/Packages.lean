import LinkTrust.Registry.Basic
import LinkTrust.Upgrade

/-! # Packages

The calls of the package manager. A package that is added takes over the record that waits for it,
or starts with a fresh one. An upgraded package keeps what may be carried; if the registry and the
package manager disagree about it, it starts over. The links of some packages are approved by the
platform, and the agent is not asked about these.
-/

namespace LinkTrust.Registry

/-- Approves the domains of a package whose links the platform vouches for. -/
def approve (s : Registry) (r : Record) (domains : Domains) : Record :=
  if s.platform.isLinked r.name then r.assign domains .approved else r

def approvalEvents (s : Registry) (r : Record) (domains : Domains) : List Event :=
  if s.platform.isLinked r.name then [.linksApproved r.name domains.size] else []

/-- Takes over the choices from before verification existed. -/
def adoptPreferences (r : Record) (i : Installation) : Record :=
  let r := i.usersAlways.foldl (fun r user => r.select user (·.enable i.webDomains)) r
  if i.isAlwaysApproved then r.assign i.autoVerifyDomains .migrated else r

/-- The record with which a package starts, before any approval. -/
def startingRecord (s : Registry) (i : Installation) : Record :=
  match (s.stores.origin i.name).record? with
  | some r => { r with token := i.token, autoVerify := !i.autoVerifyDomains.isEmpty }
  | none => .blank i.name i.token !i.autoVerifyDomains.isEmpty

/-- The record under which a package is attached. -/
def attachedRecord (s : Registry) (i : Installation) : Record :=
  let r := s.startingRecord i
  if (s.stores.origin i.name).isFresh && !s.platform.isLinked r.name then adoptPreferences r i
  else s.approve r i.autoVerifyDomains

/-- Whether the agent is asked about a package that is added. -/
def isAskedAbout (s : Registry) (i : Installation) : Bool :=
  !i.autoVerifyDomains.isEmpty && (s.stores.origin i.name).isFresh &&
    !s.platform.isLinked (s.startingRecord i).name

def attachEvents (s : Registry) (i : Installation) : List Event :=
  let r := s.startingRecord i
  let fresh := (s.stores.origin i.name).isFresh
  (if s.stores.isShadowed i.name then [.shadowedDropped i.name] else []) ++
    s.approvalEvents r i.autoVerifyDomains ++
    (if !s.platform.isLinked r.name && fresh && i.isAlwaysApproved then
      [.approvalMigrated r.name i.autoVerifyDomains.size]
    else []) ++
    [.attached i.name i.token fresh i.autoVerifyDomains.size]

/-- Attaches a package. The agent is asked about a fresh one with domains to verify. -/
def addPackage (s : Registry) (i : Installation) : Reply Unit :=
  if i.token.isNil then { result := (), registry := s, events := [.tokenMissing i.name] }
  else
    let stores := (s.stores.settle i.name).attach i.name i.token (s.attachedRecord i)
    { s with stores }.conclude (s.attachEvents i) (if s.isAskedAbout i then some i.name else none)

/-- What an upgraded package keeps of its record, before any approval. -/
def carriedRecord (old : Record) (new : Installation) (m : Manifest) : Record :=
  { name := new.name
    token := new.token
    autoVerify := !m.autoVerifyDomains.isEmpty
    verdicts := Upgrade.carryVerdicts old.verdicts m.autoVerifyDomains
    selections := Upgrade.carrySelections old.selections m.webDomains }

/-- The blank record of a package that starts over. -/
def blankRecord (new : Installation) : Record :=
  .blank new.name new.token
    (match new.manifest? with
      | some m => !m.autoVerifyDomains.isEmpty
      | none => true)

/-- Replaces a package by its upgrade. -/
def migratePackage (s : Registry) (old new : Installation) : Reply Unit :=
  let (record?, attached) := s.stores.attached.removeByToken old.token
  let enter (r : Record) : Registry :=
    s.mapAttached fun _ => attached.enter new.name new.token r
  match record?, old.manifest?, new.manifest? with
  | some r, some _, some m =>
    let carried := carriedRecord r new m
    let approved := s.approve carried m.autoVerifyDomains
    (enter approved).conclude
      (s.approvalEvents carried m.autoVerifyDomains ++
        [.migrated new.name old.token new.token approved.verdicts.size m.autoVerifyDomains.size])
      (if !m.autoVerifyDomains.isEmpty && !s.platform.isLinked new.name then some new.name
        else none)
  | _, _, _ =>
    (enter (blankRecord new)).conclude
      [.migrationInconsistent new.name old.token new.token record?.isSome old.manifest?.isSome
        new.manifest?.isSome]
      none

/-- Drops the record of a package that is removed. -/
def removePackage (s : Registry) (name : String) : Reply Unit :=
  let (record?, attached) := s.stores.attached.remove name
  (s.mapAttached fun _ => attached).conclude
    [if record?.isSome then .removed name else .nothingToRemove name] none

/-- Forgets all choices of a user. -/
def removeUser (s : Registry) (user : UserId) : Reply Unit :=
  { s with stores := s.stores.removeUser user }.conclude [.userRemoved user] none

def isUnused (s : Registry) (token : Token) : Bool :=
  !token.isNil && !s.stores.containsToken token

/-- The first of some random tokens that no record has. -/
def newToken (s : Registry) (candidates : List Token) : Reply (Option Token) :=
  { result := candidates.find? s.isUnused
    registry := s
    events := (candidates.takeWhile fun t => !s.isUnused t).map .tokenCollided }

end LinkTrust.Registry
