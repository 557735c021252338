import CorridorTrust.Json.Value

/-!
Records. A record is read from an object, where unknown members are passed over and a known one may
stand only once, or from an array that lists the fields in their order. Every key must be a text.
-/

namespace CorridorTrust.Json.Tree

abbrev Fields := String → Option Tree

/-- The field's one member; the outer `none` says that it stands twice. -/
def single (ms : List (Option String × Tree)) (name : String) : Option (Option Tree) :=
  match ms.filter fun m => m.1 == some name with
  | [] => some none
  | [m] => some (some m.2)
  | _ => none

def fields? (names : List String) : Tree → Option Fields
  | .array es =>
    if es.length ≤ names.length then some fun name => es[names.idxOf name]? else none
  | .object ms =>
    if ms.all (fun m => m.1.isSome) && names.all (fun name => (single ms name).isSome) then
      some fun name => (single ms name).join
    else none
  | _ => none

def required {α : Type} (read : Tree → Option α) : Option Tree → Option α
  | none => none
  | some t => read t

def orElse {α : Type} (absent : α) (read : Tree → Option α) : Option Tree → Option α
  | none => some absent
  | some t => read t

def nullable {α : Type} (read : Tree → Option α) : Tree → Option (Option α)
  | .null => some none
  | t => (read t).map some

def string? : Tree → Option String
  | .string s => s
  | _ => none

def bool? : Tree → Option Bool
  | .bool b => some b
  | _ => none

def word? : Tree → Option UInt64
  | .number (some (.integer n)) => if 0 ≤ n ∧ n < UInt64.size then some n.toNat.toUInt64 else none
  | _ => none

def list? {α : Type} (read : Tree → Option α) : Tree → Option (List α)
  | .array es => es.mapM read
  | _ => none

def name? : Tree → Option String
  | .string s => s
  | .object [(k, .null)] => k
  | _ => none

end CorridorTrust.Json.Tree
