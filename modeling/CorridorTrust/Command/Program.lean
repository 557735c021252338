import CorridorTrust.Command.Invocation
import CorridorTrust.Service.Session

/-!
The two programs, as functions of the world to what they print, write and exit with. Errors are shown
with what was being done, the outermost first.
-/

namespace CorridorTrust.Command

open Json (Value)
open Rpc (World)
open Time (Instant)

structure Context where
  world : World
  environment : Environment
  input : Bytes
  randomSeed : Bytes

structure Outcome where
  exit : Nat
  output : List String
  error : String
  written : List (String × Bytes)
deriving DecidableEq, Repr

namespace Outcome

def usage : Outcome := ⟨2, [], "error: invalid command line", []⟩

def version (program : String) : Outcome := ⟨0, [program ++ " 0.3.0"], "", []⟩

def unstarted (message : String) : Outcome := ⟨1, [], "Error: " ++ message, []⟩

def unreadable : Outcome := ⟨1, [], "Error: stdin read error", []⟩

def halted (program : String) : Halt → Outcome
  | .usage => usage
  | .version => version program

end Outcome

structure Report where
  lines : List String
  failure : Option String
  written : List (String × Bytes)

def Report.ofLines (lines : List String) : Report := ⟨lines, none, []⟩

def Report.failed (message : String) : Report := ⟨[], some message, []⟩

def Report.outcome (r : Report) : Outcome :=
  match r.failure with
  | none => ⟨0, r.lines, "", r.written⟩
  | some message => ⟨1, r.lines, "error: " ++ message, r.written⟩

def within {α : Type} (what : String) : Except Fault α → Except String α
  | .ok a => .ok a
  | .error fault => .error (what ++ ": " ++ fault.chain)

def loadSettings (c : Context) (loading : String) (o : RegistryOptions) :
    Except String Settings := do
  let s ← within loading (Settings.load c.world.files c.environment o.settings)
  let fixedTime ←
    match o.fixedTime with
    | none => pure s.fixedTime
    | some raw => some <$> within "invalid --fixed-time" (Instant.parse raw)
  return { s with
    folder := o.folder.getD s.folder
    manifest := o.manifest.or s.manifest
    verifier := o.verifier.getD s.verifier
    fixedTime := fixedTime }

def openService (c : Context) (s : Settings) : Except String Service :=
  within ("failed to open registry at " ++ s.folder) (Service.openWith c.world.files s)

def readFile (c : Context) (path : String) : Except String Bytes :=
  match c.world.files.read path with
  | .ok bs => .ok bs
  | .error cause => .error ("failed to read " ++ path ++ ": " ++ cause.text)

def isInput (path : String) : Bool :=
  match Path.segments path with
  | name :: rest => name == "-" && rest.all ["", "."].contains
  | [] => false

def readBundle (c : Context) : BundleSource → Except String Request
  | .options rmt imt cort psrt => .ok ⟨⟨rmt, imt, cort, psrt, none, none⟩⟩
  | .file path => do
    let bs ← if isInput path then pure c.input else readFile c path
    match Request.read? bs with
    | some request => return request
    | none => throw ("invalid verification request: " ++ jsonDetail)

def verdictLine (v : Verdict) : String :=
  let epoch := " (revEpoch " ++ toString v.epoch.value.toNat ++ ")"
  if v.valid then "VALID" ++ epoch else "REJECTED: " ++ v.reason ++ epoch

def verifyReport (s : Service) (now : Instant) (request : Request) (json verbose : Bool) : Report :=
  let v := s.verify request now
  let details :=
    if verbose then
      ["  Evaluated at: " ++ now.toText, "  Verifier:     " ++ s.verifier.name,
        "  Snapshot:     " ++ s.snapshot.id]
    else []
  ⟨(if json then v.toJson.indented else verdictLine v) :: details,
    if v.valid then none else some ("verification rejected: " ++ v.reason), []⟩

def payloadReport (payload : Except String Bytes) : Report :=
  match payload with
  | .error message => .failed message
  | .ok bs =>
    match Value.read? bs with
    | some v => .ofLines [v.indented]
    | none => .failed ("stored payload is not JSON: " ++ jsonDetail)

def filled (width : Nat) (s : String) : String :=
  s ++ String.ofList (List.replicate (width - s.length) ' ')

def entryLines (verbose : Bool) (e : Entry) : List String :=
  let line := "  " ++ filled 5 e.tag.text ++ " " ++ filled 42 e.uri ++ " slug=" ++ e.slug.getD "-" ++
    " exp=" ++ (e.expires.map Instant.toText).getD "-" ++ if e.revoked then " REVOKED" else ""
  let details :=
    ["        content: " ++ e.content] ++
    (if e.version = "" then [] else ["        version: " ++ e.version]) ++
    (if e.hash = "" then [] else ["        hash:    " ++ e.hash])
  if verbose then line :: details else [line]

def entriesReport (s : Service) (verbose : Bool) : Report :=
  let x := s.snapshot.index
  .ofLines (
    (toString x.entries.length ++ " token(s) in " ++ x.id) :: x.entries.flatMap (entryLines verbose))

def keyCount (document : Value) : Nat :=
  match Rpc.member? document "keys" with
  | some (.array ks) => ks.length
  | _ => 0

def checkReport (s : Service) : Report :=
  .ofLines [
    "Registry OK",
    "  Static dir: " ++ s.settings.folder,
    "  Tokens:     " ++ toString s.snapshot.index.entries.length,
    "  Snapshot:   " ++ s.snapshot.id,
    "  Verifier:   " ++ s.verifier.name,
    "  JWKS keys:  " ++ toString (keyCount s.keys),
    "  Rev epoch:  " ++ toString s.epoch.value.toNat]

def readSecret (c : Context) (path : String) : Except String Ed25519.SecretKey := do
  let bs ← readFile c path
  match Utf8.decode? bs with
  | none => throw ("failed to read " ++ path ++ ": stream did not contain valid UTF-8")
  | some cs =>
    match Hex.decode (Utf8.encode (Text.trimChars cs)) with
    | .error defect => throw ("secret key is not hex: " ++ defect.message)
    | .ok seed =>
      if seed.length = 32 then return ⟨seed⟩ else throw "secret key must be 32 bytes"

def sealed (c : Context) (payload kid secretFile : String) : Except String Value := do
  let key ← readSecret c secretFile
  match Value.read? (← readFile c payload) with
  | none => throw (payload ++ " is not JSON: " ++ jsonDetail)
  | some (.object ms) => return .object (Seal.attach key kid ms)
  | some _ => throw (payload ++ " is not a JSON object")

def sealReport (c : Context) (payload kid secretFile : String) : Report :=
  match sealed c payload kid secretFile with
  | .ok v => .ofLines [v.indented]
  | .error message => .failed message

def keygenReport (c : Context) (kid secretFile : String) : Report :=
  if c.world.files.doesExist secretFile then .failed (secretFile ++ " already exists")
  else
    match c.world.files.createFault? secretFile with
    | some fault => .failed ("failed to write " ++ secretFile ++ ": " ++ fault.text)
    | none =>
      let key : Ed25519.SecretKey := ⟨c.randomSeed⟩
      let jwk := (Jwk.ofBytes kid key.publicBytes).toJson.normalize
      ⟨[(Value.object [("keys", .array [jwk])]).indented], none,
        [(secretFile, Utf8.ofString (Hex.encode key.seed))]⟩

def serviceReport (c : Context) (i : Invocation) (s : Service) : Report :=
  match i.action with
  | .verify bundle json =>
    match readBundle c bundle with
    | .ok request => verifyReport s (s.now c.world.clock) request json i.verbose
    | .error message => .failed message
  | .token uri => payloadReport (within ("token " ++ uri) (s.get uri))
  | .lookup tag slug =>
    payloadReport (within ("token " ++ tag ++ "/" ++ slug) (s.getNamed tag slug))
  | .catalog => .ofLines [s.catalog.toJson.indented]
  | .entries => entriesReport s i.verbose
  | .check => checkReport s
  | .keygen _ _ | .seal _ _ _ => .failed "command does not use the registry"

def report (c : Context) (i : Invocation) : Report :=
  match i.action with
  | .keygen kid secretFile => keygenReport c kid secretFile
  | .seal payload kid secretFile => sealReport c payload kid secretFile
  | _ =>
    match loadSettings c "failed to load configuration" i.options >>= openService c with
    | .ok s => serviceReport c i s
    | .error message => .failed message

def run (c : Context) (args : List String) : Outcome :=
  match Invocation.read args with
  | .error halt => .halted "rtgf" halt
  | .ok i => (report c i).outcome

def serverSettings (c : Context) (i : ServerInvocation) : Except String Settings := do
  let s ← loadSettings c "failed to load registry configuration" i.options
  return { s with
    initialEpoch := i.initialEpoch.getD s.initialEpoch
    baseAddress := i.baseAddress.or s.baseAddress }

def startServer (c : Context) (i : ServerInvocation) : Except String Service := do
  openService c (← serverSettings c i)

def runServer (c : Context) (args : List String) : Outcome :=
  match ServerInvocation.read args with
  | .error halt => .halted "rtgf-registryd" halt
  | .ok i =>
    match startServer c i with
    | .error message => .unstarted message
    | .ok s =>
      match Session.run c.world s (Session.lines c.input) with
      | (lines, true) => ⟨0, lines, "", []⟩
      | (lines, false) => { Outcome.unreadable with output := lines }

end CorridorTrust.Command
