import CorridorTrust.Json.Numeral
import CorridorTrust.Text.Utf8

/-!
Tokens of JSON text. Scanning checks the form of every string and numeral. A string may be well
formed and still name no text, when it holds a stray byte or half of a surrogate pair; it is then a
token without value.
-/

namespace CorridorTrust.Json

open Utf8 (Symbol)

inductive Token where
  | leftBrace
  | rightBrace
  | leftBracket
  | rightBracket
  | comma
  | colon
  | null
  | bool (b : Bool)
  | number (n : Numeral)
  | string (s : Option String)
deriving DecidableEq, Repr

inductive Piece where
  | char (c : Char)
  | unit (n : Nat)
  | stray
deriving DecidableEq, Repr

namespace Piece

def isHigh (n : Nat) : Bool := 0xD800 ≤ n && n < 0xDC00

def isLow (n : Nat) : Bool := 0xDC00 ≤ n && n < 0xE000

def text? : List Piece → Option (List Char)
  | [] => some []
  | .char c :: ps => (text? ps).map (c :: ·)
  | .unit m :: .unit n :: ps =>
    if isHigh m && isLow n then
      (text? ps).map (Char.ofNat (0x10000 + (m - 0xD800) * 0x400 + (n - 0xDC00)) :: ·)
    else if isHigh m || isLow m then none
    else (text? (.unit n :: ps)).map (Char.ofNat m :: ·)
  | .unit m :: ps => if isHigh m || isLow m then none else (text? ps).map (Char.ofNat m :: ·)
  | .stray :: _ => none

end Piece

namespace Token

def hexDigit? : Symbol → Option Nat
  | none => none
  | some c =>
    if c.isDigit then some (c.toNat - '0'.toNat)
    else if 'a' ≤ c ∧ c ≤ 'f' then some (c.toNat - 'a'.toNat + 10)
    else if 'A' ≤ c ∧ c ≤ 'F' then some (c.toNat - 'A'.toNat + 10)
    else none

def unit? (a b c d : Symbol) : Option Nat := do
  some (0x1000 * (← hexDigit? a) + 0x100 * (← hexDigit? b) + 0x10 * (← hexDigit? c) + (← hexDigit? d))

def escape? (c : Char) : Option Char :=
  match c with
  | '"' => some '"'
  | '\\' => some '\\'
  | '/' => some '/'
  | 'b' => some '\x08'
  | 'f' => some '\x0c'
  | 'n' => some '\n'
  | 'r' => some '\r'
  | 't' => some '\t'
  | _ => none

def isNumeralChar (c : Char) : Bool := c.isDigit || ['-', '+', '.', 'e', 'E'].contains c

def punctuation? (c : Char) : Option Token :=
  match c with
  | '\x7b' => some .leftBrace
  | '\x7d' => some .rightBrace
  | '[' => some .leftBracket
  | ']' => some .rightBracket
  | ',' => some .comma
  | ':' => some .colon
  | _ => none

def flush (numeral : List Char) : Option (List Token) :=
  if numeral = [] then some [] else (Numeral.read? numeral.reverse).map ([.number ·])

def isSpace (c : Char) : Bool := [' ', '\t', '\n', '\r'].contains c

mutual

def scanFrom : List Symbol → List Char → Option (List Token)
  | [], numeral => flush numeral
  | some 'n' :: some 'u' :: some 'l' :: some 'l' :: s, numeral => do
    some ((← flush numeral) ++ .null :: (← scanFrom s []))
  | some 't' :: some 'r' :: some 'u' :: some 'e' :: s, numeral => do
    some ((← flush numeral) ++ .bool true :: (← scanFrom s []))
  | some 'f' :: some 'a' :: some 'l' :: some 's' :: some 'e' :: s, numeral => do
    some ((← flush numeral) ++ .bool false :: (← scanFrom s []))
  | some c :: s, numeral =>
    if isNumeralChar c then scanFrom s (c :: numeral)
    else do
      let before ← flush numeral
      if isSpace c then
        some (before ++ (← scanFrom s []))
      else if c = '"' then
        some (before ++ (← scanString s []))
      else
        some (before ++ (← punctuation? c) :: (← scanFrom s []))
  | none :: _, _ => none

def scanString : List Symbol → List Piece → Option (List Token)
  | [], _ => none
  | some '\\' :: some 'u' :: a :: b :: c :: d :: s, ps =>
    match unit? a b c d with
    | some n => scanString s (.unit n :: ps)
    | none => none
  | some '\\' :: some c :: s, ps =>
    match escape? c with
    | some e => scanString s (.char e :: ps)
    | none => none
  | some c :: s, ps =>
    if c = '"' then
      (scanFrom s []).map (.string ((Piece.text? ps.reverse).map String.ofList) :: ·)
    else if c = '\\' ∨ c.toNat < 0x20 then none
    else scanString s (.char c :: ps)
  | none :: s, ps => scanString s (.stray :: ps)

end

def scan? (bs : Bytes) : Option (List Token) := scanFrom (Utf8.scan bs) []

end Token

end CorridorTrust.Json
