import CorridorTrust.Fault
import CorridorTrust.Json.Printer
import CorridorTrust.Json.Record

namespace CorridorTrust

open Json (Value Tree)
open Time (Instant)

structure Entry where
  uri : String
  tag : Tag
  slug : Option String
  content : String
  hash : String
  version : String
  issued : Option Instant
  notBefore : Option Instant
  expires : Option Instant
  revoked : Bool
deriving DecidableEq, Repr

def Tag.ofTree? (t : Tree) : Option Tag := t.string?.bind Tag.ofText?

namespace Time.Instant

def ofText? (s : String) : Option (Option Instant) :=
  if Text.isBlankText s then some none else (Timestamp.read s).toOption.map some

def ofTree? (t : Tree) : Option (Option Instant) := do
  match ← Tree.nullable Tree.string? t with
  | none => some none
  | some s => ofText? s

def toJson : Option Instant → Value
  | none => .string ""
  | some t => .string t.toText

end Time.Instant

namespace Entry

def new (uri : String) (tag : Tag) (content : String) : Entry :=
  ⟨uri, tag, none, content, "", "", none, none, none, false⟩

def slugKey (e : Entry) : Option (Tag × String) :=
  match e.slug with
  | some s => if s = "" then none else some (e.tag, s)
  | none => none

def hasWindow (e : Entry) : Bool :=
  match e.notBefore, e.expires with
  | some nbf, some exp => !exp.before nbf
  | _, _ => true

def checkWindow (e : Entry) : Except Fault Unit :=
  if e.hasWindow then .ok () else .error (.invalidWindow e.uri)

def toJson (e : Entry) : Value :=
  .object (
    [("uri", .string e.uri), ("type", .string e.tag.text)] ++
    (e.slug.toList.map fun s => ("slug", .string s)) ++
    [("content_ref", .string e.content), ("hash", .string e.hash), ("version", .string e.version),
      ("issued_at", Instant.toJson e.issued), ("nbf", Instant.toJson e.notBefore),
      ("exp", Instant.toJson e.expires), ("revoked", .bool e.revoked)])

def fieldNames : List String :=
  ["uri", "type", "slug", "content_ref", "hash", "version", "issued_at", "nbf", "exp", "revoked"]

def ofTree? (t : Tree) : Option Entry := do
  let f ← t.fields? fieldNames
  some {
    uri := ← Tree.required Tree.string? (f "uri")
    tag := ← Tree.required Tag.ofTree? (f "type")
    slug := ← Tree.orElse none (Tree.nullable Tree.string?) (f "slug")
    content := ← Tree.required Tree.string? (f "content_ref")
    hash := ← Tree.orElse "" Tree.string? (f "hash")
    version := ← Tree.orElse "" Tree.string? (f "version")
    issued := ← Tree.orElse none Instant.ofTree? (f "issued_at")
    notBefore := ← Tree.orElse none Instant.ofTree? (f "nbf")
    expires := ← Tree.orElse none Instant.ofTree? (f "exp")
    revoked := ← Tree.orElse false Tree.bool? (f "revoked") }

end Entry

end CorridorTrust
