import CorridorTrust.Json.Token

namespace CorridorTrust.Json

inductive Tree where
  | null
  | bool (b : Bool)
  | number (n : Option Number)
  | string (s : Option String)
  | array (elements : List Tree)
  | object (members : List (Option String × Tree))
deriving Repr

namespace Tree

inductive Frame where
  | array (elements : List Tree)
  | object (members : List (Option String × Tree)) (key : Option String)

mutual

def start : List Token → List Frame → Option Tree
  | .null :: ts, fs => resume ts .null fs
  | .bool b :: ts, fs => resume ts (.bool b) fs
  | .number n :: ts, fs => resume ts (.number n.number?) fs
  | .string s :: ts, fs => resume ts (.string s) fs
  | .leftBracket :: .rightBracket :: ts, fs => resume ts (.array []) fs
  | .leftBracket :: ts, fs => start ts (.array [] :: fs)
  | .leftBrace :: .rightBrace :: ts, fs => resume ts (.object []) fs
  | .leftBrace :: .string k :: .colon :: ts, fs => start ts (.object [] k :: fs)
  | _, _ => none

def resume : List Token → Tree → List Frame → Option Tree
  | [], t, [] => some t
  | .comma :: ts, t, .array es :: fs => start ts (.array (t :: es) :: fs)
  | .rightBracket :: ts, t, .array es :: fs => resume ts (.array (t :: es).reverse) fs
  | .comma :: .string k :: .colon :: ts, t, .object ms key :: fs =>
    start ts (.object ((key, t) :: ms) k :: fs)
  | .rightBrace :: ts, t, .object ms key :: fs => resume ts (.object ((key, t) :: ms).reverse) fs
  | _, _, _ => none

end

def ofTokens? (ts : List Token) : Option Tree := start ts []

def read? (bs : Bytes) : Option Tree := (Token.scan? bs).bind ofTokens?

end Tree

end CorridorTrust.Json
