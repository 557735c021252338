import CorridorTrust.Corridor.Role
import CorridorTrust.Json.Printer
import CorridorTrust.Publication.Entry

namespace CorridorTrust

open Json (Value Tree)

structure Corridor where
  id : String
  required : List Tag
deriving DecidableEq, Repr

structure CatalogSettings where
  issuer : String
  corridors : List Corridor
deriving DecidableEq, Repr

structure Catalog where
  publication : String
  issuer : String
  keys : String
  corridors : List Corridor
deriving DecidableEq, Repr

namespace Corridor

def roles (c : Corridor) : List Role :=
  Role.all.filter fun role => c.required.any fun tag => role.accepts tag.text

def ofTree? (t : Tree) : Option Corridor := do
  let f ← t.fields? ["id", "requiredTokens"]
  some {
    id := ← Tree.required Tree.string? (f "id")
    required := ← Tree.required (Tree.list? Tag.ofTree?) (f "requiredTokens") }

def toJson (c : Corridor) : Value :=
  .object [("id", .string c.id),
    ("requiredTokens", .array (c.required.map fun tag => .string tag.text))]

end Corridor

namespace CatalogSettings

def default : CatalogSettings where
  issuer := "did:org:rtgf.eu"
  corridors := [⟨"EU:THA:CRAFT-01", [.rmt, .imt, .cort, .psrt]⟩]

def ofTree? (t : Tree) : Option CatalogSettings := do
  let f ← t.fields? ["issuer", "corridors"]
  some {
    issuer := ← Tree.orElse default.issuer Tree.string? (f "issuer")
    corridors := ← Tree.orElse default.corridors (Tree.list? Corridor.ofTree?) (f "corridors") }

def read? (bs : Bytes) : Option CatalogSettings := (Tree.read? bs).bind ofTree?

def toJson (s : CatalogSettings) : Value :=
  .object [("issuer", .string s.issuer), ("corridors", .array (s.corridors.map Corridor.toJson))]

end CatalogSettings

namespace Catalog

def keysAddress (base : Option String) : String :=
  match base.map fun b => Text.stripEnd '/' (Text.trim b) with
  | none => "/jwks.json"
  | some b => b ++ "/jwks.json"

def publish (publication : String) (s : CatalogSettings) (base : Option String) : Catalog :=
  ⟨publication, s.issuer, keysAddress base, s.corridors⟩

def corridor? (c : Catalog) (id : String) : Option Corridor := c.corridors.find? (·.id == id)

def toJson (c : Catalog) : Value :=
  .object [("registrySnapshotId", .string c.publication),
    ("issuers", .array [.object [("iss", .string c.issuer), ("jwks", .string c.keys)]]),
    ("corridors", .array (c.corridors.map Corridor.toJson))]

end Catalog

end CorridorTrust
