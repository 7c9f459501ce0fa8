import LinkTrust.Registry.Basic

/-! # Storage

Writing all records to a sink, reading back what was written, and restoring a backup. A document
that cannot be read changes nothing.
-/

namespace LinkTrust.Registry

/-- Writes all records; the answer is the text that was written. -/
def writeState (s : Registry) (sink : Sink) : Reply (Except Error Bytes) :=
  let d := s.stores.snapshot
  match d.writeTo sink with
  | .error e => s.reject { error := .transfer e }
  | .ok text =>
    { result := .ok text, registry := s, events := [.written d.active.length d.restored.length] }

/-- What is logged about reading a document: each active entry whose package is attached already,
and then how many records wait. -/
def readEvents (s : Registry) (d : Document) : List Event :=
  let stores := s.stores.read d
  ((d.active.filter fun e => s.stores.attached.contains e.name).map fun e => .readLate e.name) ++
    [.readWaiting stores.pending.size stores.restored.size, .read d.size]

/-- Reads what was written before. -/
def readState (s : Registry) (source : Source) : Reply (Except Error Unit) :=
  match Document.readFrom source with
  | .error e => s.reject { error := .transfer e }
  | .ok d =>
    { result := .ok (), registry := { s with stores := s.stores.read d }, events := s.readEvents d }

/-- Restores a backup. -/
def restoreState (s : Registry) (source : Source) : Reply (Except Error Unit) :=
  match Document.readFrom source with
  | .error e => s.reject { error := .transfer e }
  | .ok d =>
    { result := .ok ()
      registry := { s with stores := s.stores.restore d }.scheduleWrite
      events := [.restored d.size] }

end LinkTrust.Registry
