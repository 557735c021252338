import CorridorTrust.Codec.Base64
import CorridorTrust.Curve.Ed25519
import CorridorTrust.Evidence.Payload
import CorridorTrust.Json.Printer

namespace CorridorTrust.Seal

open Json (Value Members)
open Ed25519 (PublicKey SecretKey)

def unsigned (ms : Members) : Value := (Value.object (ms.erase "proof")).normalize

def canonicalText (ms : Members) : String := (unsigned ms).compact

def message (ms : Members) : Bytes := Utf8.ofString (canonicalText ms)

def sign (key : SecretKey) (message : Bytes) : String :=
  String.ofList (Base64.encode Base64.standard (Ed25519.sign key message))

def verify (key : PublicKey) (message : Bytes) (signature : String) : Except Fault Unit :=
  match Base64.decode? Base64.standard signature.toList with
  | none => .error (.invalidKey .signatureEncoding)
  | some bs =>
    if bs.length ≠ 64 then .error (.invalidKey .signatureLength)
    else if Ed25519.verify key message bs then .ok ()
    else .error .invalidSignature

def attach (key : SecretKey) (kid : String) (ms : Members) : Members :=
  ms.insert "proof" (Proof.toJson ⟨kid, sign key (message ms)⟩)

end CorridorTrust.Seal
