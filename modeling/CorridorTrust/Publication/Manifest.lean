import CorridorTrust.Publication.Entry

namespace CorridorTrust

open Json (Value Tree)

structure Manifest where
  version : String
  tokens : List Entry
deriving DecidableEq, Repr

namespace Manifest

def references (m : Manifest) : List String := Text.sortedSet (m.tokens.map (·.content))

def validate (m : Manifest) : Except Fault Unit := m.tokens.forM Entry.checkWindow

def toJson (m : Manifest) : Value :=
  .object [("version", .string m.version), ("tokens", .array (m.tokens.map Entry.toJson))]

def ofTree? (t : Tree) : Option Manifest := do
  let f ← t.fields? ["version", "tokens"]
  some {
    version := ← Tree.orElse "" Tree.string? (f "version")
    tokens := ← Tree.required (Tree.list? Entry.ofTree?) (f "tokens") }

def read (bs : Bytes) : Except Fault Manifest :=
  match (Tree.read? bs).bind ofTree? with
  | none => .error (.invalidFormat (.json "manifest"))
  | some m => do
    m.validate
    return m

end Manifest

end CorridorTrust
