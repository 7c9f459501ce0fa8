import LinkTrust.Document.Basic
import LinkTrust.Json.Printer

/-! # The text of a settings document

A document is written as one JSON value on several lines. It reads back from any JSON value with
the right fields: unknown fields are ignored, and fields that may be missing have defaults.
-/

namespace LinkTrust

open Json

namespace Token

def toValue (t : Token) : Value := .ofText t.render

def ofValue? (v : Value) : Option Token := v.text?.bind parse?

end Token

namespace Verdict

def toValue (v : Verdict) : Value := .ofInteger v.code.toInt

def ofValue? (v : Value) : Option Verdict := v.int32?.map ofCode

end Verdict

namespace UserEntry

def toValue (u : UserEntry) : Value :=
  .ofFields [("userId", .ofInteger u.user.toNat),
    ("enabledHosts", .array (u.hosts.toList.map .ofText)),
    ("allowLinkHandling", .boolean u.allowed)]

def ofValue? (v : Value) : Option UserEntry := do
  match ← v.fields? ["userId", "enabledHosts", "allowLinkHandling"] with
  | [user, hosts, allowed] =>
    return { user := ← Value.required Value.uint32? user
             hosts := .ofList (← Value.optional [] (Value.list? Value.text?) hosts)
             allowed := ← Value.optional true Value.boolean? allowed }
  | _ => none

end UserEntry

namespace Entry

def toValue (e : Entry) : Value :=
  .ofFields [("packageName", .ofText e.name), ("id", e.token.toValue),
    ("hasAutoVerifyDomains", .boolean e.autoVerify),
    ("states", .ofFields (e.verdicts.toList.map fun (d, v) => (d, v.toValue))),
    ("userStates", .array (e.users.map UserEntry.toValue))]

def ofValue? (v : Value) : Option Entry := do
  match ← v.fields? ["packageName", "id", "hasAutoVerifyDomains", "states", "userStates"] with
  | [name, token, autoVerify, verdicts, users] =>
    return { name := ← Value.required Value.text? name
             token := ← Value.required Token.ofValue? token
             autoVerify := ← Value.optional false Value.boolean? autoVerify
             verdicts := .ofList (← Value.optional [] (Value.members? Verdict.ofValue?) verdicts)
             users := ← Value.optional [] (Value.list? UserEntry.ofValue?) users }
  | _ => none

end Entry

namespace Document

def toValue (d : Document) : Value :=
  .ofFields [("active", .array (d.active.map Entry.toValue)),
    ("restored", .array (d.restored.map Entry.toValue))]

def ofValue? (v : Value) : Option Document := do
  match ← v.fields? ["active", "restored"] with
  | [active, restored] =>
    return { active := ← Value.optional [] (Value.list? Entry.ofValue?) active
             restored := ← Value.optional [] (Value.list? Entry.ofValue?) restored }
  | _ => none

/-- The text of a document, in the pieces in which it is written. -/
def pieces (d : Document) : List Bytes := d.toValue.pieces .indented 0

def encode (d : Document) : Bytes := d.pieces.flatten

def decode? (bytes : Bytes) : Option Document := (Value.parse? bytes).bind ofValue?

end Document
end LinkTrust
