import CorridorTrust.Fault
import CorridorTrust.Json.Value

namespace CorridorTrust

abbrev ContentSource := String → Except Fault Bytes

structure Store where
  items : List (String × Bytes)
deriving DecidableEq, Repr

namespace Store

def empty : Store := ⟨[]⟩

def size (s : Store) : Nat := s.items.length

def has (s : Store) (reference : String) : Bool := (s.items.lookup reference).isSome

def insert (s : Store) (reference : String) (bs : Bytes) : Store :=
  ⟨(reference, bs) :: s.items.filter (·.1 != reference)⟩

def read (s : Store) : ContentSource := fun reference =>
  match s.items.lookup reference with
  | some bs => .ok bs
  | none => .error (.notFound (.content reference))

def preloadOne (source : ContentSource) (s : Store) (reference : String) : Except Fault Store :=
  if s.has reference then .ok s
  else do
    let bs ← source reference
    if (Json.Value.read? bs).isSome then return s.insert reference bs
    else throw (.invalidFormat (.fixture reference))

def preload (source : ContentSource) (references : List String) : Except Fault Store :=
  references.foldlM (preloadOne source) empty

end Store

end CorridorTrust
