import CorridorTrust.Fault
import CorridorTrust.Json.Record

/-!
Payloads: the JSON objects that tokens resolve to. The terms of a payload are its window and whether
it is revoked; its type and its proof are read apart from them, so that neither spoils the other.
-/

namespace CorridorTrust

open Json (Value Tree Members)
open Time (Instant)

structure Terms where
  notBefore : Option String
  expires : Option String
  revoked : Option Bool
deriving DecidableEq, Repr

structure Proof where
  kid : String
  signature : String
deriving DecidableEq, Repr

namespace Payload

def read (bs : Bytes) : Except Fault Members :=
  match Value.read? bs with
  | some (.object ms) => .ok ms
  | some _ => .error (.invalidFormat .payload)
  | none => .error (.invalidFormat (.json "token payload"))

def declaredType (ms : Members) : String :=
  match ms.get? "type" with
  | some (.string s) => s
  | _ => ""

end Payload

namespace Terms

def ofTree? (t : Tree) : Option Terms := do
  let f ← t.fields? ["nbf", "exp", "revoked"]
  some {
    notBefore := ← Tree.orElse none (Tree.nullable Tree.string?) (f "nbf")
    expires := ← Tree.orElse none (Tree.nullable Tree.string?) (f "exp")
    revoked := ← Tree.orElse none (Tree.nullable Tree.bool?) (f "revoked") }

def ofMembers (ms : Members) : Except Fault Terms :=
  match ofTree? (Value.object ms).toTree with
  | some terms => .ok terms
  | none => .error (.invalidFormat (.json "token payload"))

def read (bs : Bytes) : Except Fault Terms := do
  ofMembers (← Payload.read bs)

def isRevoked (p : Terms) : Bool := p.revoked.getD false

def bound (raw : Option String) : Except Fault (Option Instant) :=
  match raw with
  | none => .ok none
  | some s => if Text.isBlankText s then .ok none else (Instant.parse (Text.trim s)).map some

def toJson (p : Terms) : Value :=
  let text (s : Option String) : Value := s.elim .null .string
  .object [("nbf", text p.notBefore), ("exp", text p.expires),
    ("revoked", p.revoked.elim .null .bool)]

end Terms

namespace Proof

def ofTree? (t : Tree) : Option Proof := do
  let f ← t.fields? ["kid", "sig"]
  some {
    kid := ← Tree.required Tree.string? (f "kid")
    signature := ← Tree.required Tree.string? (f "sig") }

def toJson (p : Proof) : Value := .object [("kid", .string p.kid), ("sig", .string p.signature)]

def ofMembers (uri : String) (ms : Members) : Except Fault Proof :=
  match (ms.get? "proof").bind fun v => ofTree? v.toTree with
  | some p => .ok p
  | none => .error (.missingProof uri)

end Proof

end CorridorTrust
