import CorridorTrust.Service.State

/-!
Calls of a service in the form of JSON-RPC. A call is answered with its id and either a result or an
error. Only two methods change the service: one counts the epoch up, the other reloads.
-/

namespace CorridorTrust.Rpc

open Json (Value Tree)
open Time (Instant)

structure World where
  files : FileTree
  clock : Instant

inductive Failure where
  | notJson
  | noMethod
  | unknownMethod (name : String)
  | badParams
  | badTime (fault : Fault)
  | refused (fault : Fault)
  | badPayload
deriving DecidableEq, Repr

namespace Failure

def code : Failure → Int
  | .notJson => -32700
  | .noMethod => -32600
  | .unknownMethod _ => -32601
  | .badParams => -32602
  | .badTime _ => -32602
  | .refused (.notFound _) => -32004
  | .refused (.invalidIdentifier _) => -32602
  | .refused _ => -32603
  | .badPayload => -32603

def message : Failure → String
  | .notJson => "parse error: " ++ jsonDetail
  | .noMethod => "missing method"
  | .unknownMethod name => "method not found: " ++ name
  | .badParams => jsonDetail
  | .badTime fault => fault.message
  | .refused fault => fault.message
  | .badPayload => "stored payload is not JSON: " ++ jsonDetail

end Failure

abbrev Answer := Except Failure Value

def respond (id : Value) : Answer → Value
  | .ok result => .object [("id", id), ("jsonrpc", .string "2.0"), ("result", result)]
  | .error failure =>
    .object [
      ("error", .object [("code", .number (.integer failure.code)),
        ("message", .string failure.message)]),
      ("id", id), ("jsonrpc", .string "2.0")]

structure VerifyParams where
  tokens : TokenSet
  now : Option String
deriving DecidableEq, Repr

def VerifyParams.ofTree? (t : Tree) : Option VerifyParams := do
  let f ← t.fields? ["tokens", "now"]
  some {
    tokens := ← Tree.orElse TokenSet.empty TokenSet.ofTree? (f "tokens")
    now := ← Tree.orElse none (Tree.nullable Tree.string?) (f "now") }

def uriOfTree? (t : Tree) : Option String := do
  let f ← t.fields? ["uri"]
  Tree.orElse "" Tree.string? (f "uri")

def nameOfTree? (t : Tree) : Option (String × String) := do
  let f ← t.fields? ["type", "slug"]
  some (← Tree.orElse "" Tree.string? (f "type"), ← Tree.orElse "" Tree.string? (f "slug"))

def member? (q : Value) (name : String) : Option Value :=
  match q with
  | .object ms => Json.Members.get? name ms
  | _ => none

def epochResult (s : Service) : Value := .object [("revEpoch", .ofNat s.epoch.value.toNat)]

def health (s : Service) : Value :=
  .object [
    ("registrySnapshotId", .string s.snapshot.id),
    ("revEpoch", .ofNat s.epoch.value.toNat),
    ("status", .string "ok"),
    ("tokens", .ofNat s.snapshot.index.entries.length),
    ("verifier", .string s.verifier.name)]

def instant (s : Service) (clock : Instant) (raw : Option String) : Except Failure Instant :=
  match raw with
  | none => .ok (s.now clock)
  | some text =>
    if Text.isBlankText text then .ok (s.now clock)
    else
      match Instant.parse (Text.trim text) with
      | .ok t => .ok t
      | .error fault => .error (.badTime fault)

def verify (w : World) (s : Service) (params : Value) : Answer :=
  match VerifyParams.ofTree? params.toTree with
  | none => .ok (Verdict.rejected .invalidRequest s.epoch).toJson.normalize
  | some p => do
    let now ← instant s w.clock p.now
    return (s.verify ⟨p.tokens⟩ now).toJson.normalize

def payload : Except Fault Bytes → Answer
  | .error fault => .error (.refused fault)
  | .ok bs =>
    match Value.read? bs with
    | some v => .ok v
    | none => .error .badPayload

def tokensGet (s : Service) (params : Value) : Answer :=
  match uriOfTree? params.toTree with
  | none => .error .badParams
  | some uri => payload (s.get uri)

def tokensLookup (s : Service) (params : Value) : Answer :=
  match nameOfTree? params.toTree with
  | none => .error .badParams
  | some (tag, slug) => payload (s.getNamed tag slug)

def reload (w : World) (s : Service) : Answer × Service :=
  match s.reload w.files with
  | .ok s => (.ok (.object [("registrySnapshotId", .string s.snapshot.id)]), s)
  | .error fault => (.error (.refused fault), s)

def call (w : World) (s : Service) (method : String) (params : Value) : Answer × Service :=
  match method with
  | "ping" => (.ok (.object []), s)
  | "healthz" => (.ok (health s), s)
  | "verify" => (verify w s params, s)
  | "revocations/get" => (.ok (epochResult s), s)
  | "revocations/bump" => (.ok (epochResult s.bump), s.bump)
  | "tokens/get" => (tokensGet s params, s)
  | "tokens/lookup" => (tokensLookup s params, s)
  | "catalog" => (.ok s.catalog.toJson.normalize, s)
  | "jwks" => (.ok s.keys, s)
  | "registry/reload" => reload w s
  | name => (.error (.unknownMethod name), s)

def handle (w : World) (s : Service) (q : Value) : Value × Service :=
  let id := (member? q "id").getD .null
  match (member? q "method").bind Value.string? with
  | none => (respond id (.error .noMethod), s)
  | some method =>
    let (answer, s) := call w s method ((member? q "params").getD (.object []))
    (respond id answer, s)

end CorridorTrust.Rpc
