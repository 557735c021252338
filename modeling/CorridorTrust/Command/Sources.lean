import CorridorTrust.Command.Program

namespace CorridorTrust.Command

def payloadSources (t : FileTree) (s : Settings) : List String :=
  match s.loadManifest t with
  | .error _ => []
  | .ok m => m.references.filterMap fun reference => (Folder.resolve ⟨s.folder⟩ reference).toOption

def serviceSources (t : FileTree) (s : Settings) : List String :=
  s.manifest.toList ++ [s.folder, s.keysPath] ++ payloadSources t s

def settingsSources (o : RegistryOptions) (t : FileTree) (s : Except String Settings) :
    List String :=
  o.settings.toList ++
    match s with
    | .ok s => serviceSources t s
    | .error _ => []

def BundleSource.sources : BundleSource → List String
  | .options _ _ _ _ => []
  | .file path => if isInput path then [] else [path]

def BundleSource.readsInput : BundleSource → Bool
  | .options _ _ _ _ => false
  | .file path => isInput path

def Action.sources : Action → List String
  | .verify bundle _ => bundle.sources
  | .keygen _ secretFile => [secretFile]
  | .seal payload _ secretFile => [payload, secretFile]
  | _ => []

def Action.readsInput : Action → Bool
  | .verify bundle _ => bundle.readsInput
  | _ => false

def sources (c : Context) (i : Invocation) : List String :=
  i.action.sources ++ settingsSources i.options c.world.files (loadSettings c "" i.options)

def serverSources (c : Context) (i : ServerInvocation) : List String :=
  settingsSources i.options c.world.files (serverSettings c i)

end CorridorTrust.Command
