import CorridorTrust.Storage.Path
import CorridorTrust.Storage.FileFault
import CorridorTrust.Text.Utf8

/-!
Trees of files. A node is kept under its place; the top is a directory, and so is everything above
it. A path is followed name by name, and goes on only from a directory.
-/

namespace CorridorTrust

inductive Node where
  | directory
  | file (bs : Bytes)
deriving DecidableEq, Repr

structure FileTree where
  nodes : List (List String × Node)
deriving DecidableEq, Repr

namespace FileTree

def empty : FileTree := ⟨[]⟩

def node? (t : FileTree) (place : List String) : Option Node :=
  if Path.isTop place then some .directory else t.nodes.lookup place

def maxName : Nat := 255

def maxPath : Nat := 4096

def pathFault? (path : String) : Option FileFault :=
  if path.toList.contains '\x00' then some .invalidName
  else if path = "" then some .missing
  else if maxPath ≤ path.utf8ByteSize then some .nameTooLong
  else none

def follow (t : FileTree) (place : List String) : List String → Except FileFault (List String)
  | [] => .ok place
  | name :: rest =>
    if t.node? place ≠ some .directory then .error .notDirectory
    else if maxName < name.utf8ByteSize then .error .nameTooLong
    else if (t.node? (Path.enter place name)).isNone then .error .missing
    else t.follow (Path.enter place name) rest

def resolve (t : FileTree) (path : String) : Except FileFault (List String) :=
  match pathFault? path with
  | some fault => .error fault
  | none => t.follow (Path.start path) (Path.segments path)

def read (t : FileTree) (path : String) : Except FileFault Bytes := do
  match t.node? (← t.resolve path) with
  | some (.file bs) => return bs
  | _ => throw .isDirectory

def isDirectory (t : FileTree) (path : String) : Bool :=
  match t.resolve path with
  | .ok place => t.node? place == some .directory
  | .error _ => false

def doesExist (t : FileTree) (path : String) : Bool := (t.resolve path).toBool

/-- What keeps a file from being made at a path where there is none. The directory must be there, and
a slash after the name asks for a directory. -/
def createFault? (t : FileTree) (path : String) : Option FileFault :=
  let names := (Path.segments path).reverse
  match pathFault? path, names.dropWhile (· == "") with
  | some fault, _ => some fault
  | none, [] => some .isDirectory
  | none, name :: above =>
    match t.follow (Path.start path) above.reverse with
    | .error fault => some fault
    | .ok place =>
      if t.node? place ≠ some .directory then some .notDirectory
      else if names.head? = some "" ∨ name = "." ∨ name = ".." then some .isDirectory
      else if maxName < name.utf8ByteSize then some .nameTooLong
      else none

def set (t : FileTree) (place : List String) (n : Node) : FileTree :=
  ⟨(place, n) :: t.nodes.filter (·.1 != place)⟩

def above (place : List String) : List (List String) :=
  (List.range place.length).map fun k => place.take (k + 1)

def setDirectories (t : FileTree) (place : List String) : FileTree :=
  (above place).foldl (fun t place => t.set place .directory) t

def makeDirectory (t : FileTree) (path : String) : FileTree := t.setDirectories (Path.place path)

def write (t : FileTree) (path : String) (bs : Bytes) : FileTree :=
  (t.setDirectories (Path.place path).dropLast).set (Path.place path) (.file bs)

def remove (t : FileTree) (path : String) : FileTree :=
  ⟨t.nodes.filter fun n => !(Path.place path).isPrefixOf n.1⟩

end FileTree

end CorridorTrust
