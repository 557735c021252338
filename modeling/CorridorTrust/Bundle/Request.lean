import CorridorTrust.Corridor.Role
import CorridorTrust.Json.Printer
import CorridorTrust.Json.Record

namespace CorridorTrust

open Json (Value Tree)

structure TokenSet where
  rmt : String
  imt : String
  cort : String
  psrt : String
  amls : Option String
  amlv : Option String
deriving DecidableEq, Repr

structure Request where
  tokens : TokenSet
deriving DecidableEq, Repr

namespace TokenSet

def empty : TokenSet := ⟨"", "", "", "", none, none⟩

def get (ts : TokenSet) : Role → String
  | .rmt => ts.rmt
  | .imt => ts.imt
  | .cort => ts.cort
  | .psrt => ts.psrt
  | .amls => ts.amls.getD ""
  | .amlv => ts.amlv.getD ""

def ofTree? (t : Tree) : Option TokenSet := do
  let f ← t.fields? ["rmt", "imt", "cort", "psrt", "amls", "amlv"]
  some {
    rmt := ← Tree.orElse "" Tree.string? (f "rmt")
    imt := ← Tree.orElse "" Tree.string? (f "imt")
    cort := ← Tree.orElse "" Tree.string? (f "cort")
    psrt := ← Tree.orElse "" Tree.string? (f "psrt")
    amls := ← Tree.orElse none (Tree.nullable Tree.string?) (f "amls")
    amlv := ← Tree.orElse none (Tree.nullable Tree.string?) (f "amlv") }

def toJson (ts : TokenSet) : Value :=
  .object (
    [("rmt", .string ts.rmt), ("imt", .string ts.imt), ("cort", .string ts.cort),
      ("psrt", .string ts.psrt)] ++
    (ts.amls.toList.map fun s => ("amls", .string s)) ++
    (ts.amlv.toList.map fun s => ("amlv", .string s)))

end TokenSet

namespace Request

def ofTree? (t : Tree) : Option Request := do
  let f ← t.fields? ["tokens"]
  some { tokens := ← Tree.orElse TokenSet.empty TokenSet.ofTree? (f "tokens") }

def read? (bs : Bytes) : Option Request := (Tree.read? bs).bind ofTree?

def toJson (r : Request) : Value := .object [("tokens", r.tokens.toJson)]

end Request

end CorridorTrust
