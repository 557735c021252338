import CorridorTrust.Bundle.Judgement
import CorridorTrust.Publication.Sandbox
import CorridorTrust.Service.Settings

/-!
A service in operation: the settings it was opened with, the snapshot it serves, the revocation epoch,
the verifier and the key document. Reloading replaces the snapshot and nothing else; when it fails,
nothing is replaced.
-/

namespace CorridorTrust

open Json (Value)
open Time (Instant)

structure Service where
  settings : Settings
  snapshot : Snapshot
  epoch : Epoch
  verifier : Verifier
  keys : Value

namespace Settings

def readManifest (t : FileTree) (path : String) : Except Fault Manifest :=
  match t.read path with
  | .ok bs => Manifest.read bs
  | .error .missing => .error (.notFound (.manifest path))
  | .error cause => .error (.io cause)

def loadManifest (t : FileTree) (s : Settings) : Except Fault Manifest :=
  match s.manifest with
  | some path => readManifest t path
  | none => .ok Manifest.sandbox

def loadSnapshot (t : FileTree) (s : Settings) : Except Fault Snapshot := do
  Snapshot.load t s.folder (← s.loadManifest t)

def readKeys (path : String) (bs : Bytes) : Except Fault KeySet := do
  let keys ← KeySet.read bs
  if keys.size = 0 then throw (.invalidKey (.noKeys path)) else return keys

/-- The document to publish, and the verifier. Only signatures need the file to exist. -/
def loadKeys (t : FileTree) (s : Settings) : Except Fault (Value × Verifier) :=
  match t.read s.keysPath, s.verifier with
  | .error .missing, .ed25519 => .error (.notFound (.keySet s.keysPath))
  | .error .missing, .structural => .ok (KeySet.empty.toJson, .structural)
  | .error cause, _ => .error (.io cause)
  | .ok bs, kind =>
    match Value.read? bs with
    | none => .error (.invalidFormat (.json s.keysPath))
    | some document =>
      match kind with
      | .structural => .ok (document, .structural)
      | .ed25519 => do return (document, .ed25519 (← readKeys s.keysPath bs))

end Settings

namespace Service

def ofParts (settings : Settings) (snapshot : Snapshot) (verifier : Verifier) (keys : Value) :
    Service :=
  ⟨settings, snapshot, ⟨settings.initialEpoch⟩, verifier, keys⟩

def openWith (t : FileTree) (settings : Settings) : Except Fault Service := do
  let snapshot ← settings.loadSnapshot t
  let (keys, verifier) ← settings.loadKeys t
  return ofParts settings snapshot verifier keys

def reload (s : Service) (t : FileTree) : Except Fault Service := do
  return { s with snapshot := ← s.settings.loadSnapshot t }

def bump (s : Service) : Service := { s with epoch := s.epoch.bump }

def verify (s : Service) (request : Request) (now : Instant) : Verdict :=
  Judgement.judge s.verifier s.snapshot.payload request now s.epoch

def get (s : Service) (uri : String) : Except Fault Bytes :=
  let uri := Text.trim uri
  if uri = "" then .error (.invalidIdentifier .missing) else s.snapshot.get uri

def getNamed (s : Service) (raw slug : String) : Except Fault Bytes := s.snapshot.getNamed raw slug

def catalog (s : Service) : Catalog :=
  Catalog.publish s.snapshot.id s.settings.catalog s.settings.baseAddress

def now (s : Service) (clock : Instant) : Instant := s.settings.fixedTime.getD clock

end Service

end CorridorTrust
