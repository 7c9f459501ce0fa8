import LinkTrust.Record

/-! # Backups

How a record from a backup joins one that exists. It only answers domains without a response, with
a verdict that was trusted where it came from; users that are new are taken over, and the hosts of
the others are added. With nothing to join, all but the trusted verdicts is dropped.
-/

namespace LinkTrust.Backup

/-- The verdicts that a backup adds to recorded ones. -/
def answers (existing incoming : Verdicts) : Verdicts :=
  incoming.filterMap fun d v =>
    if v.isRestorable && (existing.get d).agrees .noResponse then some .restored else none

def mergeVerdicts (existing incoming : Verdicts) : Verdicts :=
  existing ∪ answers existing incoming

def mergeSelections (existing incoming : Selections) : Selections :=
  existing ∪ incoming.map fun user s =>
    match existing[user]? with
    | some own => own.enable s.hosts
    | none => s

/-- Joins a record from a backup to an existing one. -/
def merge (existing incoming : Record) : Record :=
  { existing with
    verdicts := mergeVerdicts existing.verdicts incoming.verdicts
    selections := mergeSelections existing.selections incoming.selections }

/-- What is kept of a record that has nothing to join. -/
def coerce (r : Record) : Record :=
  { r with verdicts := (r.verdicts.filter fun _ v => v.isRestorable).map fun _ _ => .restored }

end LinkTrust.Backup
