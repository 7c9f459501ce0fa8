import LinkTrust.Document.Format
import LinkTrust.Error
import LinkTrust.Json.Reader

/-! # Reading and writing documents

A source may fail before its end is seen, and a sink may refuse a write. A document is accepted only
from a source that was read to its end, and of a document that could not be written the sink holds a
beginning of the text.
-/

namespace LinkTrust

/-- Bytes to read. A source that fails after some bytes does so also if these are all it has, since
its end is not yet known then. -/
structure Source where
  bytes : Bytes
  failsAfter : Option Nat := none
deriving DecidableEq, Repr

namespace Source

/-- What is to be had from a source. -/
def stream (s : Source) : Json.Stream :=
  match s.failsAfter with
  | some n => .failingAfter n s.bytes
  | none => ⟨s.bytes, .over⟩

end Source

/-- Something to write to: why a write that brings the number of bytes to a given total is refused,
if it is, and why the final flush is. -/
structure Sink where
  refusal : Nat → Option String := fun _ => none
  flushRefusal : Option String := none

/-- What came of writing: the bytes that the sink holds, and the reason of a refusal. -/
structure Delivery where
  taken : Bytes
  refusal : Option String
deriving DecidableEq, Repr

namespace Sink

/-- Offers pieces to a sink that holds `taken` bytes until one is refused. -/
def offer (s : Sink) (taken : Bytes) : List Bytes → Delivery
  | [] => ⟨taken, s.flushRefusal⟩
  | p :: ps =>
    match s.refusal (taken.length + p.length) with
    | some reason => ⟨taken, some reason⟩
    | none => s.offer (taken ++ p) ps

end Sink

namespace Document

/-- Reads the document that a source holds and nothing else. -/
def readFrom (source : Source) : Except TransferError Document :=
  match (Json.Value.ofStream? source.stream).bind ofValue? with
  | some d => .ok d
  | none => .error .decode

def deliver (d : Document) (sink : Sink) : Delivery := sink.offer [] d.pieces

/-- Writes a document; the answer is the text that the sink then holds. -/
def writeTo (d : Document) (sink : Sink) : Except TransferError Bytes :=
  match (d.deliver sink).refusal with
  | some reason => .error (.encode reason)
  | none => .ok (d.deliver sink).taken

end Document
end LinkTrust
