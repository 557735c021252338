import CorridorTrust.Storage.FileTree
import CorridorTrust.Storage.Store

namespace CorridorTrust

structure Folder where
  base : String
deriving DecidableEq, Repr

namespace Folder

def openAt (t : FileTree) (base : String) : Except Fault Folder :=
  if t.isDirectory base then .ok ⟨base⟩ else .error (.notFound (.directory base))

def resolve (f : Folder) (reference : String) : Except Fault String :=
  if Path.isReference reference then .ok (Path.join f.base reference)
  else .error (.invalidIdentifier (.reference reference))

def read (f : Folder) (t : FileTree) : ContentSource := fun reference => do
  let path ← f.resolve reference
  match t.read path with
  | .ok bs => return bs
  | .error .missing => throw (.notFound (.content path))
  | .error cause => throw (.unreadable reference cause)

end Folder

end CorridorTrust
