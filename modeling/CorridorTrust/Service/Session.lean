import CorridorTrust.Service.Rpc

namespace CorridorTrust.Session

open Json (Value)
open Rpc (World)

def lines (input : Bytes) : List Bytes :=
  let pieces := Text.split 10 input
  if pieces.getLast? = some [] then pieces.dropLast else pieces

def answer (w : World) (s : Service) (line : List Char) : Value × Service :=
  match Value.read? (Utf8.encode line) with
  | some q => Rpc.handle w s q
  | none => (Rpc.respond .null (.error .notJson), s)

inductive Step where
  | silent
  | reply (line : String) (next : Service)
  | failed

def step (w : World) (s : Service) (line : Bytes) : Step :=
  match Utf8.decode? line with
  | none => .failed
  | some cs =>
    let cs := Text.trimChars cs
    if cs = [] then .silent
    else
      let (response, next) := answer w s cs
      .reply response.compact next

def run (w : World) (s : Service) : List Bytes → List String × Bool
  | [] => ([], true)
  | line :: rest =>
    match step w s line with
    | .silent => run w s rest
    | .failed => ([], false)
    | .reply text next =>
      let (texts, complete) := run w next rest
      (text :: texts, complete)

end CorridorTrust.Session
