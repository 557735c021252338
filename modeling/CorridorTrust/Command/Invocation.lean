import CorridorTrust.Command.Arguments
import CorridorTrust.Service.Settings

namespace CorridorTrust.Command

structure RegistryOptions where
  settings : Option String
  folder : Option String
  manifest : Option String
  verifier : Option VerifierKind
  fixedTime : Option String
deriving DecidableEq, Repr

inductive BundleSource where
  | options (rmt imt cort psrt : String)
  | file (path : String)
deriving DecidableEq, Repr

inductive Action where
  | verify (bundle : BundleSource) (json : Bool)
  | token (uri : String)
  | lookup (tag slug : String)
  | catalog
  | entries
  | check
  | keygen (kid secretFile : String)
  | seal (payload kid secretFile : String)
deriving DecidableEq, Repr

structure Invocation where
  options : RegistryOptions
  verbose : Bool
  action : Action
deriving DecidableEq, Repr

structure ServerInvocation where
  options : RegistryOptions
  initialEpoch : Option UInt64
  baseAddress : Option String
deriving DecidableEq, Repr

def anyText : String → Bool := fun _ => true

def nonEmpty (s : String) : Bool := s != ""

def isVerifier (s : String) : Bool := (VerifierKind.parse s).toBool

def option (name : String) (accepts : String → Bool) : Flag := ⟨name, none, some accepts⟩

def registryFlags : List Flag := [
  ⟨"config", some 'c', some nonEmpty⟩,
  option "static-dir" nonEmpty,
  option "manifest" nonEmpty,
  option "verifier" isVerifier,
  option "fixed-time" anyText]

def versionFlag : Flag := ⟨"version", some 'V', none⟩

def commonFlags : List Flag := registryFlags ++ [⟨"verbose", some 'v', none⟩]

def bundleOptions : List String := ["rmt", "imt", "cort", "psrt"]

def actionFlags : String → List Flag
  | "verify" =>
    bundleOptions.map (option · anyText) ++ [option "request" nonEmpty, ⟨"json", none, none⟩]
  | "keygen" => [option "kid" anyText, option "secret-file" nonEmpty]
  | "seal" => [option "kid" anyText, option "secret-file" nonEmpty]
  | _ => []

def registryOptions (value : String → Option String) : RegistryOptions where
  settings := value "config"
  folder := value "static-dir"
  manifest := value "manifest"
  verifier := (value "verifier").bind fun s => (VerifierKind.parse s).toOption
  fixedTime := value "fixed-time"

def bundleSource? (a : Arguments) : Option BundleSource :=
  let text (name : String) := (a.value? name).getD ""
  match a.value? "request" with
  | none => some (.options (text "rmt") (text "imt") (text "cort") (text "psrt"))
  | some path =>
    if bundleOptions.any fun name => (a.value? name).isSome then none else some (.file path)

def action? (name : String) (a : Arguments) : Option Action :=
  match name, a.words with
  | "verify", [] => (bundleSource? a).map fun source => .verify source (a.has "json")
  | "token", [uri] => some (.token uri)
  | "lookup", [tag, slug] => some (.lookup tag slug)
  | "catalog", [] => some .catalog
  | "entries", [] => some .entries
  | "check", [] => some .check
  | "keygen", [] => do some (.keygen (← a.value? "kid") (← a.value? "secret-file"))
  | "seal", [payload] => do
    if payload = "" then none else some (.seal payload (← a.value? "kid") (← a.value? "secret-file"))
  | _, _ => none

def Invocation.read (args : List String) : Except Halt Invocation := do
  let (before, rest) ← Arguments.read (versionFlag :: commonFlags) true args none .empty
  match before.words, rest with
  | [], name :: rest => do
    let (after, _) ← Arguments.read (commonFlags ++ actionFlags name) false rest none .empty
    match action? name after with
    | none => throw .usage
    | some action =>
      return {
        options := registryOptions fun name => (after.value? name).or (before.value? name)
        verbose := before.has "verbose" || after.has "verbose"
        action := action }
  | _, _ => throw .usage

def logLevels : List String := ["error", "warn", "info", "debug", "trace"]

def isLogLevel (s : String) : Bool :=
  logLevels.contains (Text.foldCase s) ||
    (Settings.readWord? s).any fun n => 1 ≤ n.toNat && n.toNat ≤ 5

def serverFlags : List Flag :=
  versionFlag :: registryFlags ++ [
    option "initial-epoch" fun s => (Settings.readWord? s).isSome,
    option "base-url" anyText,
    option "log-level" isLogLevel]

def ServerInvocation.read (args : List String) : Except Halt ServerInvocation := do
  let (a, rest) ← Arguments.read serverFlags true args none .empty
  if a.words ≠ [] ∨ rest ≠ [] then throw .usage
  return {
    options := registryOptions a.value?
    initialEpoch := (a.value? "initial-epoch").bind Settings.readWord?
    baseAddress := a.value? "base-url" }

end CorridorTrust.Command
