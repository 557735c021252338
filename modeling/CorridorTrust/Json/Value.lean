import CorridorTrust.Json.Tree

namespace CorridorTrust.Json

inductive Value where
  | null
  | bool (b : Bool)
  | number (n : Number)
  | string (s : String)
  | array (elements : List Value)
  | object (members : List (String × Value))
deriving Repr, Inhabited

abbrev Members := List (String × Value)

namespace Members

def insert (k : String) (v : Value) : Members → Members
  | [] => [(k, v)]
  | (k', v') :: ms =>
    if k < k' then (k, v) :: (k', v') :: ms
    else if k = k' then (k, v) :: ms
    else (k', v') :: insert k v ms

def get? (k : String) (ms : Members) : Option Value := ms.lookup k

def erase (k : String) (ms : Members) : Members := ms.filter fun m => m.1 != k

def ofList (ms : Members) : Members := ms.foldl (fun acc m => insert m.1 m.2 acc) []

end Members

namespace Tree

mutual

def toValue? : Nat → Tree → Option Value
  | _, .null => some .null
  | _, .bool b => some (.bool b)
  | _, .number n => n.map .number
  | _, .string s => s.map .string
  | 0, .array _ => none
  | depth + 1, .array es => (toValues? depth es).map .array
  | 0, .object _ => none
  | depth + 1, .object ms => (toMembers? depth ms).map fun ms => .object (Members.ofList ms)

def toValues? : Nat → List Tree → Option (List Value)
  | _, [] => some []
  | depth, t :: ts => do some ((← toValue? depth t) :: (← toValues? depth ts))

def toMembers? : Nat → List (Option String × Tree) → Option Members
  | _, [] => some []
  | depth, (k, t) :: ms => do some ((← k, ← toValue? depth t) :: (← toMembers? depth ms))

end

end Tree

namespace Value

mutual

def toTree : Value → Tree
  | .null => .null
  | .bool b => .bool b
  | .number n => .number (some n)
  | .string s => .string (some s)
  | .array es => .array (toTrees es)
  | .object ms => .object (toTreeMembers ms)

def toTrees : List Value → List Tree
  | [] => []
  | v :: vs => toTree v :: toTrees vs

def toTreeMembers : Members → List (Option String × Tree)
  | [] => []
  | (k, v) :: ms => (some k, toTree v) :: toTreeMembers ms

end

def maxDepth : Nat := 127

def ofTree? (t : Tree) : Option Value := t.toValue? maxDepth

def read? (bs : Bytes) : Option Value := (Tree.read? bs).bind ofTree?

mutual

def normalize : Value → Value
  | .array es => .array (normalizeList es)
  | .object ms => .object (Members.ofList (normalizeMembers ms))
  | v => v

def normalizeList : List Value → List Value
  | [] => []
  | v :: vs => normalize v :: normalizeList vs

def normalizeMembers : Members → Members
  | [] => []
  | (k, v) :: ms => (k, normalize v) :: normalizeMembers ms

end

def string? : Value → Option String
  | .string s => some s
  | _ => none

def ofNat (n : Nat) : Value := .number (.integer n)

end Value

end CorridorTrust.Json
