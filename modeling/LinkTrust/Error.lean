import LinkTrust.Domain
import LinkTrust.Text.Quoted
import LinkTrust.Token

/-! # Errors

Why a call is refused, and the message for each reason.
-/

namespace LinkTrust

/-- What a caller must be to make a call. -/
inductive Role where
  | verifier
  | querent
  | userSelector
deriving DecidableEq, Repr

namespace Role

def render : Role → String
  | verifier => "verifier"
  | querent => "querent"
  | userSelector => "user selector"

end Role

/-- What is wrong with a token or a set of domains. -/
inductive InvalidSetReason where
  | noToken
  | unknownToken
  | noDomains
  | undeclared
deriving DecidableEq, Repr

namespace InvalidSetReason

def message : InvalidSetReason → String
  | noToken => "domain set id is null"
  | unknownToken => "domain set id is not attached"
  | noDomains => "domain set is empty"
  | undeclared => "domain set contains unknown domains"

end InvalidSetReason

/-- Why a document could not be read or written. -/
inductive TransferError where
  | decode
  | encode (reason : String)
deriving DecidableEq, Repr

namespace TransferError

def message : TransferError → String
  | decode => "Failed to decode settings"
  | encode reason => s!"Failed to encode settings: {reason}"

end TransferError

inductive Error where
  | invalidSet (token? : Option Token) (name? : Option String) (reason : InvalidSetReason)
  | packageUnavailable (name : String)
  | invalidArgument (detail : String)
  | notAuthorized (role : Role) (uid : Uid)
  | transfer (error : TransferError)
deriving DecidableEq, Repr

namespace Error

/-- A verdict that no verifier may report. -/
def unsettable (v : Verdict) : Error :=
  .invalidArgument
    s!"verifier may only set SUCCESS or codes >= FIRST_VERIFIER_DEFINED, got {v.code.toInt}"

def message : Error → String
  | invalidSet token? name? reason =>
    let token := match token? with
      | some t => s!"Some(DomainSetId({t.render}))"
      | none => "None"
    let name := match name? with
      | some n => s!"Some({Text.quoted n})"
      | none => "None"
    s!"Invalid domain set {token} for {name}: {reason.message}"
  | packageUnavailable name => s!"Package unavailable: {name}"
  | invalidArgument detail => s!"Invalid argument: {detail}"
  | notAuthorized role uid => s!"Caller uid {uid.toNat} is not an approved {role.render}"
  | transfer error => s!"Persistence error: {error.message}"

end Error
end LinkTrust
