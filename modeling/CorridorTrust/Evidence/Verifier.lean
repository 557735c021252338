import CorridorTrust.Evidence.KeySet
import CorridorTrust.Evidence.Seal
import CorridorTrust.Publication.Snapshot

namespace CorridorTrust

open Json (Members)

inductive Verifier where
  | structural
  | ed25519 (keys : KeySet)
deriving DecidableEq, Repr

namespace Verifier

def name : Verifier → String
  | .structural => "structural"
  | .ed25519 _ => "ed25519"

def checkSigned (role : Role) : Except Fault Unit :=
  if role.isSigned then .ok () else .error (.unsignedRole role)

def checkType (role : Role) (uri : String) (ms : Members) : Except Fault Unit :=
  let declared := Payload.declaredType ms
  if role.accepts declared then .ok ()
  else .error (.unexpectedTag uri role.canonicalTag declared)

def checkProof (keys : KeySet) (uri : String) (ms : Members) : Except Fault Unit := do
  let proof ← Proof.ofMembers uri ms
  let key ← keys.get proof.kid
  Seal.verify key (Seal.message ms) proof.signature

def verifyRole (v : Verifier) (source : PayloadSource) (role : Role) (uri : String) :
    Except Fault Unit := do
  checkSigned role
  let ms ← Payload.read (← source uri)
  match v with
  | .structural => pure ()
  | .ed25519 keys => checkProof keys uri ms
  checkType role uri ms

end Verifier

end CorridorTrust
