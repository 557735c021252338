import CorridorTrust.Corridor.Role

namespace CorridorTrust

inductive Reason where
  | missing (role : Role)
  | metadataMissing (uri : String)
  | metadataInvalid (uri : String)
  | tokenRevoked (uri : String)
  | tokenNotYetValid (uri : String)
  | tokenExpired (uri : String)
  | invalidNotBefore (uri : String)
  | invalidExpiry (uri : String)
  | invalidRole (role : Role)
  | invalidRequest
deriving DecidableEq, Repr

namespace Reason

def uri? : Reason → Option String
  | .metadataMissing uri => some uri
  | .metadataInvalid uri => some uri
  | .tokenRevoked uri => some uri
  | .tokenNotYetValid uri => some uri
  | .tokenExpired uri => some uri
  | .invalidNotBefore uri => some uri
  | .invalidExpiry uri => some uri
  | .missing _ | .invalidRole _ | .invalidRequest => none

def text : Reason → String
  | .missing role => "missing_" ++ role.text
  | .metadataMissing uri => "metadata_missing:" ++ uri
  | .metadataInvalid uri => "metadata_invalid:" ++ uri
  | .tokenRevoked uri => "token_revoked:" ++ uri
  | .tokenNotYetValid uri => "token_not_yet_valid:" ++ uri
  | .tokenExpired uri => "token_expired:" ++ uri
  | .invalidNotBefore uri => "invalid_nbf:" ++ uri
  | .invalidExpiry uri => "invalid_exp:" ++ uri
  | .invalidRole role => "invalid_" ++ role.text
  | .invalidRequest => "invalid_request"

end Reason

end CorridorTrust
