import CorridorTrust.Curve.Edwards
import CorridorTrust.Digest.Sha512

/-!
Ed25519 signatures. A signature is a point and a scalar below the group order. It is accepted when
the point recomputed from scalar, key and message has the very bytes of the signature's point; keys
of small order are keys like others.
-/

namespace CorridorTrust.Ed25519

open Curve

def order : Nat := Nat.pow 2 252 + 27742317777372353535851937790883648493

structure PublicKey where
  bytes : Bytes
  point : Point
  size : bytes.length = 32
  decodes : Point.decode? bytes = some point
deriving DecidableEq, Repr

def PublicKey.ofBytes? (bs : Bytes) : Option PublicKey :=
  if size : bs.length = 32 then
    (Point.decode? bs).pmap (fun point decodes => ⟨bs, point, size, decodes⟩) fun _ decodes => decodes
  else none

structure SecretKey where
  seed : Bytes
deriving DecidableEq, Repr

namespace SecretKey

def scalar (k : SecretKey) : Nat :=
  let n := ofLittleEndian ((Sha512.digest k.seed).take 32)
  Nat.pow 2 254 + n % Nat.pow 2 254 / 8 * 8

def nonceKey (k : SecretKey) : Bytes := (Sha512.digest k.seed).drop 32

def publicBytes (k : SecretKey) : Bytes := (Point.base.smul k.scalar).encode

end SecretKey

def hashToScalar (bs : Bytes) : Nat := ofLittleEndian (Sha512.digest bs) % order

def sign (k : SecretKey) (message : Bytes) : Bytes :=
  let A := k.publicBytes
  let r := hashToScalar (k.nonceKey ++ message)
  let R := (Point.base.smul r).encode
  let h := hashToScalar (R ++ A ++ message)
  R ++ toLittleEndian 32 ((r + h * k.scalar) % order)

def verify (key : PublicKey) (message signature : Bytes) : Bool :=
  let R := signature.take 32
  let s := ofLittleEndian (signature.drop 32)
  let h := hashToScalar (R ++ key.bytes ++ message)
  signature.length = 64 && s < order &&
    ((key.point.neg.smul h).add (Point.base.smul s)).encode == R

end CorridorTrust.Ed25519
