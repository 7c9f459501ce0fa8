import LinkTrust.Json.Value

/-! # Reading JSON byte by byte

A stream gives bytes until it is over or fails. The reader takes lexemes as soon as they are
complete and stops at the end of a value; that nothing follows the value is known only when the
stream has been asked for its end.
-/

namespace LinkTrust.Json

/-- What comes when all bytes of a stream have been taken. -/
inductive Ending where
  | over
  | fault
deriving DecidableEq, Repr

structure Stream where
  bytes : Bytes
  ending : Ending := .over
deriving DecidableEq, Repr

namespace Stream

def cons (b : UInt8) (s : Stream) : Stream := { s with bytes := b :: s.bytes }

/-- Gives some number of bytes at most and fails when it is asked for more. -/
def failingAfter : Nat → Bytes → Stream
  | 0, _ => ⟨[], .fault⟩
  | _ + 1, [] => ⟨[], .over⟩
  | n + 1, b :: bs => (failingAfter n bs).cons b

end Stream

/-- A byte that may stand between lexemes. -/
def isBlank (b : UInt8) : Bool :=
  match Char.ofUInt8 b with
  | ' ' | '\t' | '\n' | '\r' => true
  | _ => false

/-- Where the lexer and the parser stand between two bytes. -/
structure Reader where
  mode : Mode := .gap
  position : Position := .value []

namespace Reader

/-- One byte; the parser takes the lexemes that it completes. -/
def step? (r : Reader) (b : UInt8) : Option Reader :=
  (r.mode.step b).bind fun (mode, lexemes) => (r.position.run? lexemes).map (Reader.mk mode)

/-- The value, if it is complete. -/
def value? (r : Reader) : Option Value :=
  match r.mode with
  | .gap => r.position.value?
  | _ => none

/-- The value that the end of the bytes completes. -/
def finish? (r : Reader) : Option Value :=
  r.mode.finish.bind fun lexemes => (r.position.run? lexemes).bind Position.value?

/-- Takes bytes until a value is complete, and gives the bytes that are left with it. -/
def read? (r : Reader) (ending : Ending) : Bytes → Option (Value × Bytes)
  | [] =>
    match r.value?, ending with
    | some v, _ => some (v, [])
    | none, .over => r.finish?.map (·, [])
    | none, .fault => none
  | b :: bs =>
    match r.value? with
    | some v => some (v, b :: bs)
    | none =>
      match r.step? b with
      | some r => r.read? ending bs
      | none => none

end Reader

/-- Whether there are only blanks until the end, which must be seen. -/
def isOver (ending : Ending) : Bytes → Bool
  | [] => ending = .over
  | b :: bs => isBlank b && isOver ending bs

namespace Reader

/-- Takes all bytes: those of a value and the blanks after it. -/
def all? (r : Reader) (ending : Ending) (bytes : Bytes) : Option Value :=
  match r.read? ending bytes with
  | some (v, rest) => if isOver ending rest then some v else none
  | none => none

end Reader

/-- The value that a stream holds, if it is one value with at most blanks around it and the stream
can be read to its end. -/
def Value.ofStream? (s : Stream) : Option Value := ({} : Reader).all? s.ending s.bytes

end LinkTrust.Json
