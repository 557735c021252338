import CorridorTrust.Bundle.Request
import CorridorTrust.Bundle.Verdict
import CorridorTrust.Evidence.Verifier

/-!
Judgements on a bundle. Every mandatory identifier must be given; then each token, in the order of the
roles, must resolve to a payload whose terms hold now; then each signed token must be verified. The
first check that fails gives the reason.
-/

namespace CorridorTrust

open Time (Instant)

abbrev Check := Except Reason Unit

namespace Judgement

def checkPresence (ts : TokenSet) : Check :=
  match Role.mandatory.find? fun role => Text.isBlankText (ts.get role) with
  | some role => .error (.missing role)
  | none => .ok ()

def resolve (source : PayloadSource) (uri : String) : Except Reason Terms :=
  match source uri with
  | .ok bs =>
    if bs = [] then .error (.metadataMissing uri)
    else
      match Terms.read bs with
      | .ok terms => .ok terms
      | .error _ => .error (.metadataInvalid uri)
  | .error fault =>
    .error (if fault.isNotFound then .metadataMissing uri else .metadataInvalid uri)

def checkRevoked (uri : String) (terms : Terms) : Check :=
  if terms.isRevoked then .error (.tokenRevoked uri) else .ok ()

def checkNotBefore (uri : String) (terms : Terms) (now : Instant) : Check :=
  match Terms.bound terms.notBefore with
  | .ok (some nbf) => if now.before nbf then .error (.tokenNotYetValid uri) else .ok ()
  | .ok none => .ok ()
  | .error _ => .error (.invalidNotBefore uri)

def checkExpiry (uri : String) (terms : Terms) (now : Instant) : Check :=
  match Terms.bound terms.expires with
  | .ok (some exp) => if exp.before now then .error (.tokenExpired uri) else .ok ()
  | .ok none => .ok ()
  | .error _ => .error (.invalidExpiry uri)

def checkTerms (source : PayloadSource) (now : Instant) (uri : String) : Check := do
  let terms ← resolve source uri
  checkRevoked uri terms
  checkNotBefore uri terms now
  checkExpiry uri terms now

def checkRole (v : Verifier) (source : PayloadSource) (role : Role) (uri : String) : Check :=
  match v.verifyRole source role uri with
  | .ok () => .ok ()
  | .error _ => .error (.invalidRole role)

def check (v : Verifier) (source : PayloadSource) (request : Request) (now : Instant) : Check := do
  checkPresence request.tokens
  Role.mandatory.forM fun role => checkTerms source now (request.tokens.get role)
  Role.signed.forM fun role => checkRole v source role (request.tokens.get role)

def verdict (outcome : Check) (epoch : Epoch) : Verdict :=
  match outcome with
  | .ok () => .accepted epoch
  | .error reason => .rejected reason epoch

def judge (v : Verifier) (source : PayloadSource) (request : Request) (now : Instant)
    (epoch : Epoch) : Verdict :=
  verdict (check v source request now) epoch

end Judgement

end CorridorTrust
