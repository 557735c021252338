import CorridorTrust.Text.Utf8

/-!
The SHA-2 digests over words of `w` bits. A message is padded to whole blocks of sixteen words; each
block is stretched to one word for each round, and the rounds mix them into eight words of state.
-/

namespace CorridorTrust.Sha2

structure State (w : Nat) where
  a : BitVec w
  b : BitVec w
  c : BitVec w
  d : BitVec w
  e : BitVec w
  f : BitVec w
  g : BitVec w
  h : BitVec w

structure Variant (w : Nat) where
  constants : List (BitVec w)
  initial : State w
  small₀ : Nat × Nat × Nat
  small₁ : Nat × Nat × Nat
  large₀ : Nat × Nat × Nat
  large₁ : Nat × Nat × Nat

variable {w : Nat}

def small (r : Nat × Nat × Nat) (x : BitVec w) : BitVec w :=
  x.rotateRight r.1 ^^^ x.rotateRight r.2.1 ^^^ (x >>> r.2.2)

def large (r : Nat × Nat × Nat) (x : BitVec w) : BitVec w :=
  x.rotateRight r.1 ^^^ x.rotateRight r.2.1 ^^^ x.rotateRight r.2.2

def round (v : Variant w) (s : State w) (k x : BitVec w) : State w :=
  let choice := (s.e &&& s.f) ^^^ (~~~s.e &&& s.g)
  let majority := (s.a &&& s.b) ^^^ (s.a &&& s.c) ^^^ (s.b &&& s.c)
  let t₁ := s.h + large v.large₁ s.e + choice + k + x
  let t₂ := large v.large₀ s.a + majority
  ⟨t₁ + t₂, s.a, s.b, s.c, s.d + t₁, s.e, s.f, s.g⟩

def schedule (v : Variant w) (block : Array (BitVec w)) : Array (BitVec w) :=
  (List.range' 16 (v.constants.length - 16)).foldl
    (fun x i => x.push (small v.small₁ (x.getD (i - 2) 0) + x.getD (i - 7) 0 +
      small v.small₀ (x.getD (i - 15) 0) + x.getD (i - 16) 0)) block

def add (s t : State w) : State w :=
  ⟨s.a + t.a, s.b + t.b, s.c + t.c, s.d + t.d, s.e + t.e, s.f + t.f, s.g + t.g, s.h + t.h⟩

def compress (v : Variant w) (s : State w) (block : Array (BitVec w)) : State w :=
  add s ((v.constants.zip (schedule v block).toList).foldl (fun s kx => round v s kx.1 kx.2) s)

def toBytes (count n : Nat) : Bytes :=
  match count with
  | 0 => []
  | count + 1 => toBytes count (n / 256) ++ [(n % 256).toUInt8]

def ofBytes (bs : Bytes) : Nat := bs.foldl (fun n b => 256 * n + b.toNat) 0

def pad (w : Nat) (message : Bytes) : Bytes :=
  let block := 2 * w
  let used := (message.length + 1 + w / 4) % block
  message ++ 0x80 :: List.replicate ((block - used) % block) 0 ++
    toBytes (w / 4) (8 * message.length)

def pieces {α : Type} (size : Nat) (xs : List α) : List (List α) :=
  if size = 0 ∨ xs.length = 0 then []
  else xs.take size :: pieces size (xs.drop size)
termination_by xs.length

def blocks (w : Nat) (message : Bytes) : List (Array (BitVec w)) :=
  (pieces (2 * w) (pad w message)).map fun block =>
    ((pieces (w / 8) block).map fun word => BitVec.ofNat w (ofBytes word)).toArray

def digest (v : Variant w) (message : Bytes) : Bytes :=
  let s := (blocks w message).foldl (compress v) v.initial
  [s.a, s.b, s.c, s.d, s.e, s.f, s.g, s.h].flatMap fun x => toBytes (w / 8) x.toNat

end CorridorTrust.Sha2
