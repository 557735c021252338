namespace CorridorTrust.Curve.PrimeField

def p : Nat := Nat.pow 2 255 - 19

def add (a b : Nat) : Nat := (a + b) % p

def neg (a : Nat) : Nat := (p - a % p) % p

def sub (a b : Nat) : Nat := (a + (p - b % p)) % p

def mul (a b : Nat) : Nat := a * b % p

def pow (a n : Nat) : Nat :=
  if n = 0 then 1
  else
    let r := pow (mul a a) (n / 2)
    if n % 2 = 1 then mul a r else r
termination_by n

def inv (a : Nat) : Nat := pow a (p - 2)

def sqrtMinusOne : Nat :=
  19681161376707505956807079304988542015446066515923890162744021073123829784752

def sqrtRatio? (u v : Nat) : Option Nat :=
  let v₃ := mul (mul v v) v
  let r := mul (mul u v₃) (pow (mul (mul u (mul v₃ v₃)) v) ((p - 5) / 8))
  let c := mul v (mul r r)
  let root :=
    if c = u % p then some r
    else if c = neg u then some (mul r sqrtMinusOne)
    else none
  root.map fun x => if x % 2 = 0 then x else neg x

end CorridorTrust.Curve.PrimeField
