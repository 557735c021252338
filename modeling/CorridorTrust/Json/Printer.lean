import CorridorTrust.Json.Value

/-!
Printed values. The compact text is the value's tokens one after the other; the indented text has
the same tokens, each part of an array or object on a line of its own.
-/

namespace CorridorTrust.Json

def escapeChar (c : Char) : List Char :=
  if c = '"' then ['\\', '"']
  else if c = '\\' then ['\\', '\\']
  else if c = '\x08' then ['\\', 'b']
  else if c = '\x0c' then ['\\', 'f']
  else if c = '\n' then ['\\', 'n']
  else if c = '\r' then ['\\', 'r']
  else if c = '\t' then ['\\', 't']
  else if c.toNat < 0x20 then
    ['\\', 'u', '0', '0', Nat.digitChar (c.toNat / 16), Nat.digitChar (c.toNat % 16)]
  else [c]

def writeString (s : String) : List Char := '"' :: s.toList.flatMap escapeChar ++ ['"']

def Token.write : Token → List Char
  | .leftBrace => ['\x7b']
  | .rightBrace => ['\x7d']
  | .leftBracket => ['[']
  | .rightBracket => [']']
  | .comma => [',']
  | .colon => [':']
  | .null => ['n', 'u', 'l', 'l']
  | .bool true => ['t', 'r', 'u', 'e']
  | .bool false => ['f', 'a', 'l', 's', 'e']
  | .number n => n.write
  | .string s => writeString (s.getD "")

namespace Value

mutual

def tokens : Value → List Token
  | .null => [.null]
  | .bool b => [.bool b]
  | .number n => [.number n.numeral]
  | .string s => [.string (some s)]
  | .array [] => [.leftBracket, .rightBracket]
  | .array (v :: vs) => .leftBracket :: tokens v ++ elementTokens vs
  | .object [] => [.leftBrace, .rightBrace]
  | .object ((k, v) :: ms) =>
    .leftBrace :: .string (some k) :: .colon :: tokens v ++ memberTokens ms

def elementTokens : List Value → List Token
  | [] => [.rightBracket]
  | v :: vs => .comma :: tokens v ++ elementTokens vs

def memberTokens : Members → List Token
  | [] => [.rightBrace]
  | (k, v) :: ms => .comma :: .string (some k) :: .colon :: tokens v ++ memberTokens ms

end

def compactChars (v : Value) : List Char := v.tokens.flatMap Token.write

def compact (v : Value) : String := String.ofList v.compactChars

def newline (level : Nat) : List Char := '\n' :: List.replicate (2 * level) ' '

mutual

def indentedChars (level : Nat) : Value → List Char
  | .array (v :: vs) =>
    '[' :: newline (level + 1) ++ indentedChars (level + 1) v ++ indentedElements level vs
  | .object ((k, v) :: ms) =>
    '\x7b' :: newline (level + 1) ++ writeString k ++ [':', ' '] ++ indentedChars (level + 1) v ++
      indentedMembers level ms
  | .null => compactChars .null
  | .bool b => compactChars (.bool b)
  | .number n => compactChars (.number n)
  | .string s => compactChars (.string s)
  | .array [] => compactChars (.array [])
  | .object [] => compactChars (.object [])

def indentedElements (level : Nat) : List Value → List Char
  | [] => newline level ++ [']']
  | v :: vs => ',' :: newline (level + 1) ++ indentedChars (level + 1) v ++ indentedElements level vs

def indentedMembers (level : Nat) : Members → List Char
  | [] => newline level ++ ['\x7d']
  | (k, v) :: ms =>
    ',' :: newline (level + 1) ++ writeString k ++ [':', ' '] ++ indentedChars (level + 1) v ++
      indentedMembers level ms

end

def indented (v : Value) : String := String.ofList (indentedChars 0 v)

end Value

end CorridorTrust.Json
