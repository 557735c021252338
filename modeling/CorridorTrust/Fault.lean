import CorridorTrust.Corridor.Role
import CorridorTrust.Storage.FileFault
import CorridorTrust.Text.Quoted
import CorridorTrust.Time.Timestamp

namespace CorridorTrust

def jsonDetail : String := "<json>"

def base64Detail : String := "<base64>"

inductive Subject where
  | token (uri : String)
  | named (key slug : String)
  | payload (uri : String)
  | content (path : String)
  | directory (path : String)
  | manifest (path : String)
  | settings (path : String)
  | keySet (path : String)
  | other (what : String)
deriving DecidableEq, Repr

def Subject.text : Subject → String
  | .token uri => "token " ++ uri
  | .named key slug => "token " ++ key ++ "/" ++ slug
  | .payload uri => "payload for " ++ uri
  | .content path => "content " ++ path
  | .directory path => "static directory " ++ path
  | .manifest path => "manifest " ++ path
  | .settings path => "config " ++ path
  | .keySet path => "key set " ++ path
  | .other what => what

inductive IdentifierFault where
  | tag (raw : String)
  | slug (s : String)
  | reference (s : String)
  | missing
deriving DecidableEq, Repr

def IdentifierFault.text : IdentifierFault → String
  | .tag raw => "unknown token type: " ++ raw
  | .slug s => "invalid token identifier: " ++ Text.quoted s
  | .reference s => "content reference " ++ Text.quoted s
  | .missing => "missing uri"

inductive KeyFault where
  | noName
  | encoding (kid : String)
  | length (kid : String)
  | noPoint
  | signatureEncoding
  | signatureLength
  | noKeys (path : String)
deriving DecidableEq, Repr

def KeyFault.text : KeyFault → String
  | .noName => "jwk without kid"
  | .encoding kid => "jwk " ++ kid ++ ": bad x: " ++ base64Detail
  | .length kid => "jwk " ++ kid ++ ": x must be 32 bytes"
  | .noPoint => "invalid verifying key: signature error: Cannot decompress Edwards point"
  | .signatureEncoding => "invalid base64 signature: " ++ base64Detail
  | .signatureLength => "signature must be 64 bytes"
  | .noKeys path => path ++ " has no Ed25519 keys"

inductive FormatFault where
  | json (what : String)
  | payload
  | fixture (reference : String)
deriving DecidableEq, Repr

def FormatFault.text : FormatFault → String
  | .json what => what ++ ": " ++ jsonDetail
  | .payload => "token payload is not a JSON object"
  | .fixture reference => "fixture " ++ reference ++ " is not valid JSON"

inductive SettingsFault where
  | json (path : String)
  | epoch (raw : String)
  | verifier (name : String)
deriving DecidableEq, Repr

def SettingsFault.text : SettingsFault → String
  | .json path => path ++ ": " ++ jsonDetail
  | .epoch raw => "RTGF_INITIAL_EPOCH must be an integer, got " ++ Text.quoted raw
  | .verifier name => "unknown verifier " ++ Text.quoted name

inductive Fault where
  | notFound (what : Subject)
  | invalidIdentifier (cause : IdentifierFault)
  | emptyIndex
  | duplicateUri (uri : String)
  | duplicateSlug (tag : Tag) (slug : String)
  | invalidWindow (uri : String)
  | unexpectedTag (uri : String) (expected : Tag) (actual : String)
  | unsignedRole (role : Role)
  | invalidSignature
  | missingProof (uri : String)
  | unknownKey (kid : String)
  | invalidKey (cause : KeyFault)
  | unreadable (reference : String) (cause : FileFault)
  | invalidFormat (cause : FormatFault)
  | invalidTimestamp (value : String) (defect : Time.Defect)
  | settings (cause : SettingsFault)
  | io (cause : FileFault)
deriving DecidableEq, Repr

namespace Fault

def isNotFound : Fault → Bool
  | .notFound _ => true
  | _ => false

def message : Fault → String
  | .notFound what => "Not found: " ++ what.text
  | .invalidIdentifier cause => "Invalid token identifier: " ++ cause.text
  | .emptyIndex => "Registry index has no entries"
  | .duplicateUri uri => "Duplicate token uri: " ++ uri
  | .duplicateSlug tag slug => "Duplicate slug " ++ Text.quoted slug ++ " for token type " ++ tag.key
  | .invalidWindow uri => "Token " ++ uri ++ " has nbf after exp"
  | .unexpectedTag uri expected actual =>
    "Token " ++ uri ++ " has unexpected type " ++ Text.quoted actual ++
      " (want " ++ expected.text ++ ")"
  | .unsignedRole role => "Role " ++ role.text ++ " does not carry a signed token"
  | .invalidSignature => "Signature verification failed"
  | .missingProof uri => "Token " ++ uri ++ " carries no proof"
  | .unknownKey kid => "Unknown key id: " ++ kid
  | .invalidKey cause => "Invalid key: " ++ cause.text
  | .unreadable reference cause => "Payload unreadable for " ++ reference ++ ": " ++ cause.text
  | .invalidFormat cause => "Invalid file format: " ++ cause.text
  | .invalidTimestamp value defect =>
    "Invalid timestamp " ++ Text.quoted value ++ ": " ++ defect.message
  | .settings cause => "Configuration error: " ++ cause.text
  | .io cause => "IO error: " ++ cause.text

def chain (f : Fault) : String :=
  match f with
  | .io cause => f.message ++ ": " ++ cause.text
  | f => f.message

end Fault

def Tag.parse (raw : String) : Except Fault Tag :=
  match Tag.ofText? raw with
  | some t => .ok t
  | none => .error (.invalidIdentifier (.tag raw))

def Time.Instant.parse (s : String) : Except Fault Time.Instant :=
  match Time.Timestamp.read s with
  | .ok t => .ok t
  | .error defect => .error (.invalidTimestamp s defect)

end CorridorTrust
