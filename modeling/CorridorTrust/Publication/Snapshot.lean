import CorridorTrust.Publication.Index
import CorridorTrust.Publication.Manifest
import CorridorTrust.Storage.Folder

/-!
Snapshots: an index with the payloads of its entries. A snapshot is loaded in three stages that fail
in this order: the folder, the payloads by increasing reference, the index.
-/

namespace CorridorTrust

abbrev PayloadSource := String → Except Fault Bytes

structure Snapshot where
  index : Index
  content : ContentSource

namespace Snapshot

def load (t : FileTree) (folder : String) (m : Manifest) : Except Fault Snapshot := do
  let f ← Folder.openAt t folder
  let store ← Store.preload (f.read t) m.references
  let index ← Index.build m.tokens
  return ⟨index, store.read⟩

def id (s : Snapshot) : String := s.index.id

def get (s : Snapshot) (uri : String) : Except Fault Bytes := do
  s.content (← s.index.find uri).content

def getNamed (s : Snapshot) (raw slug : String) : Except Fault Bytes := do
  s.content (← s.index.findNamed raw slug).content

def payload (s : Snapshot) : PayloadSource := fun uri => do
  let bs ← s.get uri
  if bs = [] then throw (.notFound (.payload uri)) else return bs

end Snapshot

end CorridorTrust
