import CorridorTrust.Corridor.Catalog
import CorridorTrust.Evidence.Verifier

/-!
Settings of a service. They come from defaults, from a JSON file and from the environment, each layer
over the one before, field by field. Blank variables count as unset.
-/

namespace CorridorTrust

open Json (Value Tree)
open Time (Instant)

inductive VerifierKind where
  | structural
  | ed25519
deriving DecidableEq, Repr

structure Settings where
  folder : String
  manifest : Option String
  initialEpoch : UInt64
  baseAddress : Option String
  keysFile : String
  verifier : VerifierKind
  fixedTime : Option Instant
  catalog : CatalogSettings
deriving DecidableEq, Repr

abbrev Environment := String → Option String

namespace VerifierKind

def text : VerifierKind → String
  | .structural => "structural"
  | .ed25519 => "ed25519"

def ofText? (s : String) : Option VerifierKind :=
  [structural, ed25519].find? fun k => k.text == s

def ofTree? (t : Tree) : Option VerifierKind := t.name?.bind ofText?

theorem ofTree?_eq_some_iff {t : Tree} {k : VerifierKind} : ofTree? t = some k ↔
    t.name? = some "structural" ∧ k = .structural ∨ t.name? = some "ed25519" ∧ k = .ed25519 := by
  rw [ofTree?]
  cases t.name? with
  | none => simp
  | some s =>
    by_cases hs : s = "structural"
    · subst hs
      cases k <;> decide
    · by_cases hs' : s = "ed25519"
      · subst hs'
        cases k <;> decide
      · have hnone : ofText? s = none := by
          rw [ofText?, List.find?_eq_none]
          intro k _
          cases k <;> simp [text, Ne.symm hs, Ne.symm hs']
        simp [hnone, hs, hs']

def parse (raw : String) : Except Fault VerifierKind :=
  let name := Text.foldCase (Text.trim raw)
  match ofText? name with
  | some k => .ok k
  | none => .error (.settings (.verifier name))

end VerifierKind

namespace Settings

def variableNames : List String := ["RTGF_STATIC_DIR", "RTGF_URL", "RTGF_INITIAL_EPOCH", "FIXED_TIME"]

def default : Settings where
  folder := "./static/tokens"
  manifest := none
  initialEpoch := 1
  baseAddress := none
  keysFile := "jwks.json"
  verifier := .structural
  fixedTime := none
  catalog := .default

def keysPath (s : Settings) : String := Path.join s.folder s.keysFile

def fieldNames : List String :=
  ["static_dir", "manifest", "initial_epoch", "base_url", "jwks_file", "verifier", "fixed_time",
    "catalog"]

def ofTree? (t : Tree) : Option Settings := do
  let f ← t.fields? fieldNames
  some {
    folder := ← Tree.orElse default.folder Tree.string? (f "static_dir")
    manifest := ← Tree.orElse none (Tree.nullable Tree.string?) (f "manifest")
    initialEpoch := ← Tree.orElse default.initialEpoch Tree.word? (f "initial_epoch")
    baseAddress := ← Tree.orElse none (Tree.nullable Tree.string?) (f "base_url")
    keysFile := ← Tree.orElse default.keysFile Tree.string? (f "jwks_file")
    verifier := ← Tree.orElse default.verifier VerifierKind.ofTree? (f "verifier")
    fixedTime := ← Tree.orElse none Instant.ofTree? (f "fixed_time")
    catalog := ← Tree.orElse .default CatalogSettings.ofTree? (f "catalog") }

def toJson (s : Settings) : Value :=
  .object (
    [("static_dir", .string s.folder)] ++
    (s.manifest.toList.map fun path => ("manifest", .string path)) ++
    [("initial_epoch", .ofNat s.initialEpoch.toNat)] ++
    (s.baseAddress.toList.map fun base => ("base_url", .string base)) ++
    [("jwks_file", .string s.keysFile), ("verifier", .string s.verifier.text),
      ("fixed_time", Instant.toJson s.fixedTime), ("catalog", s.catalog.toJson)])

def readFile (t : FileTree) (path : String) : Except Fault Settings :=
  match t.read path with
  | .error .missing => .error (.notFound (.settings path))
  | .error cause => .error (.io cause)
  | .ok bs =>
    match (Tree.read? bs).bind ofTree? with
    | some s => .ok s
    | none => .error (.settings (.json path))

def readWord? (s : String) : Option UInt64 :=
  let ds :=
    match s.toList with
    | '+' :: ds => ds
    | ds => ds
  if ds ≠ [] ∧ ds.all Char.isDigit then
    let n := Decimal.ofDigits (ds.map Json.Numeral.digitOf)
    if n < UInt64.size then some n.toUInt64 else none
  else none

def given (env : Environment) (name : String) : Option String :=
  (env name).filter fun s => !Text.isBlankText s

def epochFrom (env : Environment) (s : Settings) : Except Fault UInt64 :=
  match given env "RTGF_INITIAL_EPOCH" with
  | none => .ok s.initialEpoch
  | some raw =>
    match readWord? (Text.trim raw) with
    | some n => .ok n
    | none => .error (.settings (.epoch raw))

def fixedTimeFrom (env : Environment) (s : Settings) : Option Instant :=
  match given env "FIXED_TIME" with
  | none => s.fixedTime
  | some raw => (Time.Timestamp.read raw).toOption.or s.fixedTime

def applyEnvironment (env : Environment) (s : Settings) : Except Fault Settings := do
  return { s with
    folder := (given env "RTGF_STATIC_DIR").getD s.folder
    baseAddress :=
      ((given env "RTGF_URL").map fun u => Text.stripEnd '/' (Text.trim u)).or s.baseAddress
    initialEpoch := ← epochFrom env s
    fixedTime := fixedTimeFrom env s }

def load (t : FileTree) (env : Environment) (path : Option String) : Except Fault Settings := do
  let s ←
    match path with
    | some path => readFile t path
    | none => pure default
  applyEnvironment env s

end Settings

end CorridorTrust
