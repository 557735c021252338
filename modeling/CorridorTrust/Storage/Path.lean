import CorridorTrust.Text.Match

/-!
Paths and the places they name. A place is a list of names that leads down from the directory paths
are taken from; it begins with two dots for each step above that directory, or with a slash.
-/

namespace CorridorTrust.Path

def segments (path : String) : List String := (Text.split '/' path.toList).map String.ofList

def isAbsolute (path : String) : Bool := path.toList.head? == some '/'

def start (path : String) : List String := if isAbsolute path then ["/"] else []

/-- The directory paths are taken from, and those above it. -/
def isTop (place : List String) : Bool := place == ["/"] || place.all (· == "..")

def parent (place : List String) : List String :=
  if place = ["/"] then place
  else if isTop place then place ++ [".."]
  else place.dropLast

def enter (place : List String) (name : String) : List String :=
  if name = "" ∨ name = "." then place
  else if name = ".." then parent place
  else place ++ [name]

def place (path : String) : List String := (segments path).foldl enter (start path)

def stages (path : String) : List String :=
  let names := segments path
  (List.range names.length).map fun k => String.intercalate "/" (names.take (k + 1))

def join (base path : String) : String :=
  if isAbsolute path then path
  else if base = "" ∨ base.toList.getLast? = some '/' then base ++ path
  else base ++ "/" ++ path

inductive Component where
  | root
  | current
  | parent
  | normal (name : String)
deriving DecidableEq, Repr

def component? (name : String) : Option Component :=
  if name = "" ∨ name = "." then none
  else if name = ".." then some .parent
  else some (.normal name)

/-- Empty names are no components, and a single dot is one only where a path begins with it. -/
def components (path : String) : List Component :=
  let names := (segments path).filterMap component?
  if isAbsolute path then .root :: names
  else if (segments path).head? = some "." then .current :: names
  else names

def Component.isBelow : Component → Bool
  | .current | .normal _ => true
  | .root | .parent => false

def isReference (reference : String) : Bool :=
  reference != "" && (components reference).all Component.isBelow

end CorridorTrust.Path
