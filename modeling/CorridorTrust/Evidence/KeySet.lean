import CorridorTrust.Codec.Base64
import CorridorTrust.Curve.Ed25519
import CorridorTrust.Fault
import CorridorTrust.Json.Printer
import CorridorTrust.Json.Record
import CorridorTrust.Text.Match

/-!
Key sets: the public keys of issuers by key id, read from the document that publishes them. Keys of
other kinds are passed over; of two keys with one id the later holds.
-/

namespace CorridorTrust

open Ed25519 (PublicKey)
open Json (Value Tree)

structure Jwk where
  kty : String
  crv : String
  kid : String
  x : String
deriving DecidableEq, Repr

structure KeySet where
  keys : List (String × PublicKey)
  sorted : keys.Pairwise fun a b => a.1 < b.1
deriving DecidableEq, Repr

def readKey (bs : Bytes) : Except Fault PublicKey :=
  match PublicKey.ofBytes? bs with
  | some key => .ok key
  | none => .error (.invalidKey .noPoint)

namespace Jwk

def ofBytes (kid : String) (key : Bytes) : Jwk :=
  ⟨"OKP", "Ed25519", kid, String.ofList (Base64.encode Base64.address key)⟩

def isEd25519 (k : Jwk) : Bool := k.kty == "OKP" && k.crv == "Ed25519"

def publicKey (k : Jwk) : Except Fault PublicKey :=
  match Base64.decode? Base64.address (Text.stripEnd '=' k.x).toList with
  | none => .error (.invalidKey (.encoding k.kid))
  | some bs =>
    if bs.length ≠ 32 then .error (.invalidKey (.length k.kid)) else readKey bs

def toJson (k : Jwk) : Value :=
  .object [("kty", .string k.kty), ("crv", .string k.crv), ("kid", .string k.kid),
    ("x", .string k.x)]

def ofTree? (t : Tree) : Option Jwk := do
  let f ← t.fields? ["kty", "crv", "kid", "x"]
  some {
    kty := ← Tree.required Tree.string? (f "kty")
    crv := ← Tree.orElse "" Tree.string? (f "crv")
    kid := ← Tree.orElse "" Tree.string? (f "kid")
    x := ← Tree.orElse "" Tree.string? (f "x") }

end Jwk

namespace KeySet

def empty : KeySet := ⟨[], .nil⟩

def put (kid : String) (key : PublicKey) : List (String × PublicKey) →
    List (String × PublicKey)
  | [] => [(kid, key)]
  | (k, v) :: ks =>
    if kid < k then (kid, key) :: (k, v) :: ks
    else if kid = k then (kid, key) :: ks
    else (k, v) :: put kid key ks

theorem mem_put {kid : String} {key : PublicKey} {ks : List (String × PublicKey)}
    {a : String × PublicKey} (h : a ∈ put kid key ks) : a = (kid, key) ∨ a ∈ ks := by
  fun_induction put kid key ks <;> grind

theorem pairwise_put (kid : String) (key : PublicKey) {ks : List (String × PublicKey)}
    (h : ks.Pairwise fun a b => a.1 < b.1) :
    (put kid key ks).Pairwise fun a b => a.1 < b.1 := by
  induction ks with
  | nil => simp [put]
  | cons k ks ih =>
    obtain ⟨hk, hks⟩ := List.pairwise_cons.1 h
    unfold put
    split
    next hlt =>
      refine List.pairwise_cons.2 ⟨fun a ha => ?_, h⟩
      rcases List.mem_cons.1 ha with rfl | ha
      · exact hlt
      · exact String.lt_trans hlt (hk a ha)
    next hlt =>
      split
      next heq =>
        subst heq
        exact List.pairwise_cons.2 ⟨hk, hks⟩
      next hne =>
        refine List.pairwise_cons.2 ⟨fun a ha => ?_, ih hks⟩
        rcases mem_put ha with rfl | ha
        · exact Std.lt_of_le_of_ne (String.not_lt.1 hlt) (Ne.symm hne)
        · exact hk a ha

def insert (s : KeySet) (kid : String) (key : PublicKey) : KeySet :=
  ⟨put kid key s.keys, pairwise_put kid key s.sorted⟩

def size (s : KeySet) : Nat := s.keys.length

def get (s : KeySet) (kid : String) : Except Fault PublicKey :=
  match s.keys.lookup kid with
  | some key => .ok key
  | none => .error (.unknownKey kid)

def addJwk (s : KeySet) (k : Jwk) : Except Fault KeySet :=
  if !k.isEd25519 then .ok s
  else if k.kid = "" then .error (.invalidKey .noName)
  else do return s.insert k.kid (← k.publicKey)

def documentOfTree? (t : Tree) : Option (List Jwk) := do
  let f ← t.fields? ["keys"]
  Tree.required (Tree.list? Jwk.ofTree?) (f "keys")

def read (bs : Bytes) : Except Fault KeySet :=
  match (Tree.read? bs).bind documentOfTree? with
  | none => .error (.invalidFormat (.json "jwks"))
  | some ks => ks.foldlM addJwk empty

def toJson (s : KeySet) : Value :=
  .object [("keys", .array (s.keys.map fun k => (Jwk.ofBytes k.1 k.2.bytes).toJson.normalize))]

end KeySet

end CorridorTrust
