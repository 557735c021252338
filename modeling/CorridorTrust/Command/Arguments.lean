import CorridorTrust.Text.Match

namespace CorridorTrust.Command

structure Flag where
  name : String
  letter : Option Char
  accepts : Option (String → Bool)

inductive Halt where
  | usage
  | version
deriving DecidableEq, Repr

structure Arguments where
  values : List (String × String)
  marks : List String
  words : List String
deriving DecidableEq, Repr

namespace Arguments

def empty : Arguments := ⟨[], [], []⟩

def value? (a : Arguments) (name : String) : Option String := a.values.lookup name

def has (a : Arguments) (name : String) : Bool := a.marks.contains name

def setValue (a : Arguments) (flag : Flag) (value : String) : Except Halt Arguments :=
  match flag.accepts with
  | none => .error .usage
  | some accepts =>
    if (a.value? flag.name).isSome || !accepts value then .error .usage
    else .ok { a with values := a.values ++ [(flag.name, value)] }

def mark (a : Arguments) (flag : Flag) : Except Halt Arguments :=
  if flag.name = "version" then .error .version
  else if a.has flag.name then .error .usage
  else .ok { a with marks := a.marks ++ [flag.name] }

def addWord (a : Arguments) (word : String) : Arguments := { a with words := a.words ++ [word] }

def looksLikeOption (s : String) : Bool :=
  match s.toList with
  | '-' :: _ :: _ => true
  | _ => false

def isLong (s : String) : Bool :=
  match s.toList with
  | '-' :: '-' :: _ => true
  | _ => false

def splitLong (s : String) : String × Option String :=
  let cs := s.toList.drop 2
  let name := String.ofList (cs.takeWhile (· ≠ '='))
  match cs.dropWhile (· ≠ '=') with
  | [] => (name, none)
  | _ :: value => (name, some (String.ofList value))

def readLetters (flags : List Flag) (a : Arguments) :
    List Char → Except Halt (Arguments × Option Flag)
  | [] => .ok (a, none)
  | c :: cs =>
    match flags.find? (·.letter == some c) with
    | none => .error .usage
    | some flag =>
      if flag.accepts.isNone then do
        readLetters flags (← a.mark flag) cs
      else
        match cs with
        | [] => .ok (a, some flag)
        | '=' :: value => do return (← a.setValue flag (String.ofList value), none)
        | value => do return (← a.setValue flag (String.ofList value), none)

def readLong (flags : List Flag) (a : Arguments) (s : String) :
    Except Halt (Arguments × Option Flag) :=
  let (name, value) := splitLong s
  match flags.find? (·.name == name), value with
  | none, _ => .error .usage
  | some flag, some value => do return (← a.setValue flag value, none)
  | some flag, none =>
    if flag.accepts.isSome then .ok (a, some flag) else do return (← a.mark flag, none)

def readOption (flags : List Flag) (a : Arguments) (s : String) :
    Except Halt (Arguments × Option Flag) :=
  if isLong s then readLong flags a s else readLetters flags a (s.toList.drop 1)

def read (flags : List Flag) (wordEnds : Bool) :
    List String → Option Flag → Arguments → Except Halt (Arguments × List String)
  | [], none, a => .ok (a, [])
  | [], some _, _ => .error .usage
  | s :: rest, some flag, a =>
    if looksLikeOption s then .error .usage
    else do read flags wordEnds rest none (← a.setValue flag s)
  | s :: rest, none, a =>
    if s = "--" then .ok (rest.foldl addWord a, [])
    else if looksLikeOption s then do
      let (a, waiting) ← readOption flags a s
      read flags wordEnds rest waiting a
    else if wordEnds then .ok (a, s :: rest)
    else read flags wordEnds rest none (a.addWord s)

end Arguments

end CorridorTrust.Command
