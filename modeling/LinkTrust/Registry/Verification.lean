import LinkTrust.Registry.Basic

/-! # Verification

The verifier's calls: which packages have domains to verify, the verdicts on a package's domains,
and the report of a verdict. A final verdict is not replaced, and a report counts the verdicts that
it has changed. `resend` asks the agent about all packages that still wait for a verdict.
-/

namespace LinkTrust

/-- The verdicts on the domains of one package. -/
structure VerificationSet where
  token : Token
  name : String
  verdicts : Verdicts
deriving DecidableEq

/-- Which of its domains a package must have declared. -/
inductive DomainKind where
  | autoVerify
  | web
deriving DecidableEq, Repr

namespace Manifest

def declared (m : Manifest) : DomainKind → Domains
  | .autoVerify => m.autoVerifyDomains
  | .web => m.webDomains

end Manifest

namespace Registry

/-- The record that a token stands for, if the package has declared all of a non-empty set of
domains. Of several faults the first is reported: no token, an unknown token, a package that cannot
be resolved, no domains, and an undeclared domain. -/
def resolve (s : Registry) (token : Token) (domains : Domains) (kind : DomainKind) :
    Except Rejection Record :=
  if token.isNil then .error { error := .invalidSet none none .noToken }
  else
    match s.stores.attached.getByToken? token with
    | none => .error { error := .invalidSet (some token) none .unknownToken }
    | some r =>
      match (s.host.installation? r.name).bind (·.manifest?) with
      | none => .error { error := .packageUnavailable r.name }
      | some m =>
        if domains.isEmpty then
          .error { error := .invalidSet (some token) (some r.name) .noDomains }
        else if domains.subset (m.declared kind) then .ok r
        else
          .error {
            error := .invalidSet (some token) (some r.name) .undeclared
            event? := some (.domainsRejected r.name domains.size (m.declared kind).size) }

/-- The packages that have domains to verify. -/
def verifiedNames (s : Registry) : Reply (Except Error (List String)) :=
  match s.authorize .verifier with
  | .error r => s.reject r
  | .ok () =>
    { result := .ok ((s.stores.attached.values.filter (·.autoVerify)).map (·.name))
      registry := s }

/-- The verdicts on a package's domains, those to be verified included; none if the package is not
attached or has no domain to verify. -/
def verificationSet? (s : Registry) (name : String) : Except Error (Option VerificationSet) :=
  match s.stores.attached.get? name with
  | none => .ok none
  | some r =>
    match s.host.manifest? name with
    | none => .error (.packageUnavailable name)
    | some m =>
      if m.autoVerifyDomains.isEmpty then .ok none
      else .ok (some { token := r.token, name, verdicts := r.verdicts.cover m.autoVerifyDomains })

def verificationSet (s : Registry) (name : String) :
    Reply (Except Error (Option VerificationSet)) :=
  match s.authorize .querent with
  | .error r => s.reject r
  | .ok () => { result := s.verificationSet? name, registry := s }

def checkSettable (v : Verdict) : Except Rejection Unit :=
  if v.isSettable then .ok ()
  else .error { error := .unsettable v, event? := some (.verdictRejected v) }

/-- The record to which a verdict may be reported. -/
def reportable (s : Registry) (token : Token) (domains : Domains) (v : Verdict) :
    Except Rejection Record := do
  s.authorize .verifier
  checkSettable v
  s.resolve token domains .autoVerify

/-- Reports a verdict on some domains of a package; the answer is on how many it is new. -/
def setVerdict (s : Registry) (token : Token) (domains : Domains) (v : Verdict) :
    Reply (Except Error Nat) :=
  match s.reportable token domains v with
  | .error r => s.reject r
  | .ok r =>
    let undecided := domains.filter r.isOpen
    { result := .ok undecided.size
      registry := (s.mapAttached
        (·.modifyByToken token (·.assign undecided v.normalized))).scheduleWrite
      events := [.verdictRecorded r.name v.normalized domains.size undecided.size] }

/-- Whether the verifier may still decide about a domain that a package asks to have verified. -/
def isUnanswered (s : Registry) (r : Record) : Bool :=
  match s.host.manifest? r.name with
  | none => false
  | some m => m.autoVerifyDomains.toList.any r.isOpen

/-- The packages that wait for a verdict. -/
def unanswered (s : Registry) : Domains :=
  .ofList ((s.stores.attached.values.filter fun r => r.autoVerify && s.isUnanswered r).map
    (·.name))

/-- Asks the agent once more about all packages that wait for a verdict. -/
def resend (s : Registry) : Reply Domains :=
  let names := s.unanswered
  if names.isEmpty then { result := names, registry := s, events := [.nothingToResend] }
  else
    let sent := s.broadcast names
    { result := names, registry := sent.registry, events := .resending names.size :: sent.events }

end Registry
end LinkTrust
