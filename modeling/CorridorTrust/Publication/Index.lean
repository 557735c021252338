import CorridorTrust.Codec.Hex
import CorridorTrust.Digest.Sha256
import CorridorTrust.Publication.Entry

/-!
Indexes: the entries of one publication in the order of their identifiers, found by identifier or by
tag and slug. Identifiers are distinct, and so are the pairs of tag and slug. The digest of the
entries' JSON text names the publication.
-/

namespace CorridorTrust

structure Index where
  entries : List Entry
deriving DecidableEq, Repr

namespace Index

def sort (es : List Entry) : List Entry := es.mergeSort fun a b => decide (a.uri ≤ b.uri)

def checkDistinct (seen : List Entry) : List Entry → Except Fault Unit
  | [] => .ok ()
  | e :: es =>
    if seen.any (·.uri == e.uri) then .error (.duplicateUri e.uri)
    else
      match e.slugKey with
      | none => checkDistinct (e :: seen) es
      | some k =>
        if seen.any (·.slugKey == some k) then .error (.duplicateSlug k.1 k.2)
        else checkDistinct (e :: seen) es

def build (es : List Entry) : Except Fault Index :=
  if es.isEmpty then .error .emptyIndex
  else do
    checkDistinct [] (sort es)
    return ⟨sort es⟩

def digestText (x : Index) : String := (Json.Value.array (x.entries.map Entry.toJson)).compact

def id (x : Index) : String := "sha256:" ++ Hex.encode (Sha256.digest (Utf8.ofString x.digestText))

def find (x : Index) (uri : String) : Except Fault Entry :=
  match x.entries.find? (·.uri == uri) with
  | some e => .ok e
  | none => .error (.notFound (.token uri))

def checkSlug (slug : String) : Except Fault Unit :=
  if slug = "" ∨ Text.contains slug ".." then .error (.invalidIdentifier (.slug slug)) else .ok ()

def findNamed (x : Index) (raw slug : String) : Except Fault Entry := do
  checkSlug slug
  let key := Tag.keyOf raw
  match x.entries.find? fun e => e.tag.key == key && e.slug == some slug with
  | some e => return e
  | none => throw (.notFound (.named key slug))

end Index

end CorridorTrust
