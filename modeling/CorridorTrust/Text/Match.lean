namespace CorridorTrust.Text

def foldCase (s : String) : String := String.ofList (s.toList.map Char.toLower)

def equalUpToCase (s t : String) : Bool := s.toList.isEqv t.toList fun c d => c.toLower == d.toLower

def stripEnd (c : Char) (s : String) : String :=
  String.ofList (s.toList.reverse.dropWhile (· == c)).reverse

def isPart (part : List Char) : List Char → Bool
  | [] => part.isEmpty
  | c :: cs => part.isPrefixOf (c :: cs) || isPart part cs

def contains (s part : String) : Bool := isPart part.toList s.toList

def split {α : Type} [DecidableEq α] (c : α) : List α → List (List α)
  | [] => [[]]
  | x :: xs =>
    if x = c then [] :: split c xs
    else
      match split c xs with
      | [] => [[x]]
      | piece :: pieces => (x :: piece) :: pieces

def insertSorted (s : String) : List String → List String
  | [] => [s]
  | t :: ts => if s < t then s :: t :: ts else if s = t then t :: ts else t :: insertSorted s ts

def sortedSet (ss : List String) : List String := ss.foldr insertSorted []

end CorridorTrust.Text
