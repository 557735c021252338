import CorridorTrust.Curve.PrimeField
import CorridorTrust.Text.Utf8

namespace CorridorTrust.Curve

open PrimeField

/-- A point with `x = X / Z`, `y = Y / Z` and `T = X * Y / Z`. -/
structure Point where
  X : Nat
  Y : Nat
  Z : Nat
  T : Nat
deriving DecidableEq, Repr

namespace Point

def d : Nat := 37095705934669439343138083508754565189542113879843219016388785533085940283555

def zero : Point := ⟨0, 1, 1, 0⟩

def ofAffine (x y : Nat) : Point := ⟨x, y, 1, mul x y⟩

def base : Point :=
  ofAffine 15112221349535400772501151409588531511454012693041857206046113283949847762202
    46316835694926478169428394003475163141307993866256225615783033603165251855960

def add (P Q : Point) : Point :=
  let a := mul (sub P.Y P.X) (sub Q.Y Q.X)
  let b := mul (PrimeField.add P.Y P.X) (PrimeField.add Q.Y Q.X)
  let c := mul (mul 2 d) (mul P.T Q.T)
  let e := mul 2 (mul P.Z Q.Z)
  let (f, g, h, k) := (sub b a, sub e c, PrimeField.add e c, PrimeField.add b a)
  ⟨mul f g, mul h k, mul g h, mul f k⟩

def neg (P : Point) : Point := ⟨PrimeField.neg P.X, P.Y, P.Z, PrimeField.neg P.T⟩

def smul (P : Point) (n : Nat) : Point :=
  if n = 0 then zero
  else
    let Q := smul (add P P) (n / 2)
    if n % 2 = 1 then add P Q else Q
termination_by n

end Point

def ofLittleEndian (bs : Bytes) : Nat := bs.foldr (fun b n => b.toNat + 256 * n) 0

def toLittleEndian : Nat → Nat → Bytes
  | 0, _ => []
  | count + 1, n => (n % 256).toUInt8 :: toLittleEndian count (n / 256)

def signBit : Nat := Nat.pow 2 255

namespace Point

def encode (P : Point) : Bytes :=
  let z := inv P.Z
  toLittleEndian 32 (mul P.Y z + signBit * (mul P.X z % 2))

def decode? (bs : Bytes) : Option Point := do
  let n := ofLittleEndian bs
  let y := n % signBit % p
  let x ← sqrtRatio? (sub (mul y y) 1) (PrimeField.add (mul d (mul y y)) 1)
  some (ofAffine (if n / signBit = 1 then PrimeField.neg x else x) y)

end Point

end CorridorTrust.Curve
