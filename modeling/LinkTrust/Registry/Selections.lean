import LinkTrust.Registry.Verification

/-! # Selections

The calls about one user's choices: whether links open in a package at all, and in which of its web
domains the user wants them to.
-/

namespace LinkTrust

/-- A user's choices about one package, for each of its web domains. -/
structure SelectionView where
  token : Token
  name : String
  user : UserId
  openLinks : Bool
  hosts : Std.ExtTreeMap String Bool
deriving DecidableEq

namespace Registry

/-- Lets links open in a package, or keeps them from it. -/
def setLinkHandling (s : Registry) (name : String) (allowed : Bool) (user : UserId) :
    Reply (Except Error Unit) :=
  match s.authorize (.selectorFor user) with
  | .error r => s.reject r
  | .ok () =>
    if s.stores.attached.contains name then
      { result := .ok ()
        registry := (s.mapAttached
          (·.modify name (·.select user (·.optOut !allowed)))).scheduleWrite
        events := [.linkHandlingUpdated name user allowed] }
    else s.reject { error := .packageUnavailable name }

/-- The record in which a user may select hosts. -/
def selectable (s : Registry) (token : Token) (hosts : Domains) (user : UserId) :
    Except Rejection Record := do
  s.authorize (.selectorFor user)
  s.resolve token hosts .web

/-- Selects some hosts of a package, or takes them back. -/
def setSelection (s : Registry) (token : Token) (hosts : Domains) (enabled : Bool)
    (user : UserId) : Reply (Except Error Unit) :=
  match s.selectable token hosts user with
  | .error r => s.reject r
  | .ok r =>
    { result := .ok ()
      registry := (s.mapAttached (·.modifyByToken token (·.select user fun selection =>
        if enabled then selection.enable hosts else selection.disable hosts))).scheduleWrite
      events := [.selectionUpdated r.name user enabled hosts.size] }

/-- What a user has selected; nothing if the package is not attached. -/
def selection? (s : Registry) (name : String) (user : UserId) :
    Except Error (Option SelectionView) :=
  match s.stores.attached.get? name with
  | none => .ok none
  | some r =>
    match s.host.manifest? name with
    | none => .error (.packageUnavailable name)
    | some m =>
      .ok (some {
        token := r.token, name, user
        openLinks := !(r.selection user).optedOut
        hosts := m.webDomains.mapTo false ∪ (r.selection user).hosts.mapTo true })

def selection (s : Registry) (name : String) (user : UserId) :
    Reply (Except Error (Option SelectionView)) :=
  match s.authorize (.selectorFor user) with
  | .error r => s.reject r
  | .ok () => { result := s.selection? name user, registry := s }

end Registry
end LinkTrust
