import CorridorTrust.Proofs.Json.Fields
import CorridorTrust.Proofs.Sequence
import CorridorTrust.Proofs.Service.Words
import CorridorTrust.Proofs.Text.Parts

/-!
Layers of settings. Each field has its value from the highest layer that gives one: the variable that governs
it, the file, the defaults. Loading fails exactly where the file is no settings or the variable of the epoch
no number, and a variable touches no field but its own.
-/

namespace CorridorTrust.Settings

open Json (Tree)
open Time (Instant)

variable {env env' : Environment} {name raw : String} {t : FileTree} {path : Option String} {bs : Bytes}
  {s s' base : Settings} {fault : Fault}

section Variables

def Gives (env : Environment) (name raw : String) : Prop :=
  env name = some raw ∧ ∃ c ∈ raw.toList, Text.isBlank c = false

lemma given_eq_some_iff : given env name = some raw ↔ Gives env name raw := by
  simp [given, Option.filter_eq_some_iff, Text.isBlankText, Gives]

lemma given_congr (h : env name = env' name) : given env name = given env' name := by
  rw [given, given, h]

def IsAddress (raw address : String) : Prop :=
  ∃ core count, Text.IsTrimmed raw.toList core ∧ core = address.toList ++ List.replicate count '/' ∧
    address.toList.getLast? ≠ some '/'

lemma isAddress_iff {address : String} :
    Text.stripEnd '/' (Text.trim raw) = address ↔ IsAddress raw address := by
  rw [← String.toList_inj, Text.toList_stripEnd_eq_iff, Text.trim, String.toList_ofList]
  simp only [IsAddress, ← Text.trimChars_eq_iff]
  constructor
  · rintro ⟨hlast, count, hcore⟩
    exact ⟨_, count, rfl, hcore, hlast⟩
  · rintro ⟨core, count, rfl, hcore, hlast⟩
    exact ⟨hlast, count, hcore⟩

def IsEpoch (raw : String) (n : UInt64) : Prop := ∃ core, Text.IsTrimmed raw.toList core ∧ IsWord core n

lemma isEpoch_iff {n : UInt64} : readWord? (Text.trim raw) = some n ↔ IsEpoch raw n := by
  simp [readWord?_eq_some_iff, IsEpoch, ← Text.trimChars_eq_iff, Text.trim]

end Variables

section Layers

variable {α : Type} {reads : String → α → Prop} {read : String → Option α} {below above above' : α}

/-- What the variable's text is read as, or the value below where the variable gives no such text. -/
def IsLayered (env : Environment) (name : String) (reads : String → α → Prop) (below above : α) : Prop :=
  (∃ raw, Gives env name raw ∧ reads raw above) ∨
    (∀ raw a, Gives env name raw → ¬reads raw a) ∧ above = below

lemma isLayered_iff (h : ∀ raw a, read raw = some a ↔ reads raw a) :
    IsLayered env name reads below above ↔ ((given env name).bind read).getD below = above := by
  simp only [IsLayered, ← given_eq_some_iff, ← h]
  cases given env name with
  | none => simp [eq_comm]
  | some raw =>
    cases hread : read raw with
    | none =>
      suffices below = above → ∀ raw' a, raw = raw' → read raw' ≠ some a by simpa [hread, eq_comm]
      rintro - _ a rfl
      simp [hread]
    | some a => simp [hread]

lemma IsLayered.eq_of_same (h : ∀ raw a, read raw = some a ↔ reads raw a) (hname : env name = env' name)
    (habove : IsLayered env name reads below above) (habove' : IsLayered env' name reads below above') :
    above = above' := by
  rw [isLayered_iff h] at habove habove'
  rw [← habove, ← habove', given_congr hname]

lemma IsLayered.again (h : IsLayered env name reads below above) :
    IsLayered env name reads above above := by
  rcases h with hgiven | ⟨hnone, -⟩
  · exact .inl hgiven
  · exact .inr ⟨hnone, rfl⟩

end Layers

section Environments

def IsFolder (raw folder : String) : Prop := folder = raw

def IsBaseAddress (raw : String) (o : Option String) : Prop := ∃ address, o = some address ∧ IsAddress raw address

def IsFixedTime (raw : String) (o : Option Instant) : Prop :=
  ∃ u, o = some u ∧ Time.Timestamp.read raw = .ok u

lemma isFolder_iff (raw folder : String) : some raw = some folder ↔ IsFolder raw folder := by
  simp [IsFolder, eq_comm]

lemma isBaseAddress_iff (raw : String) (o : Option String) :
    some (some (Text.stripEnd '/' (Text.trim raw))) = some o ↔ IsBaseAddress raw o := by
  simp [IsBaseAddress, ← isAddress_iff, eq_comm]

lemma isFixedTime_iff (raw : String) (o : Option Instant) :
    (Time.Timestamp.read raw).toOption.map some = some o ↔ IsFixedTime raw o := by
  cases h : Time.Timestamp.read raw <;> simp [IsFixedTime, Except.toOption, h, eq_comm]

structure Overlays (env : Environment) (base s : Settings) : Prop where
  readable : ∀ raw, Gives env "RTGF_INITIAL_EPOCH" raw → ∃ n, IsEpoch raw n
  folder : IsLayered env "RTGF_STATIC_DIR" IsFolder base.folder s.folder
  baseAddress : IsLayered env "RTGF_URL" IsBaseAddress base.baseAddress s.baseAddress
  initialEpoch : IsLayered env "RTGF_INITIAL_EPOCH" IsEpoch base.initialEpoch s.initialEpoch
  fixedTime : IsLayered env "FIXED_TIME" IsFixedTime base.fixedTime s.fixedTime
  manifest : s.manifest = base.manifest
  keysFile : s.keysFile = base.keysFile
  verifier : s.verifier = base.verifier
  catalog : s.catalog = base.catalog

lemma epochFrom_eq_ok_iff {n : UInt64} : epochFrom env base = .ok n ↔
    (∀ raw, Gives env "RTGF_INITIAL_EPOCH" raw → ∃ m, IsEpoch raw m) ∧
      IsLayered env "RTGF_INITIAL_EPOCH" IsEpoch base.initialEpoch n := by
  rw [isLayered_iff fun _ _ => isEpoch_iff, epochFrom]
  simp only [← given_eq_some_iff, ← isEpoch_iff]
  cases given env "RTGF_INITIAL_EPOCH" with
  | none => simp
  | some raw => cases h : readWord? (Text.trim raw) <;> simp [h]

lemma epochFrom_eq_error_iff : epochFrom env base = .error fault ↔
    ∃ raw, Gives env "RTGF_INITIAL_EPOCH" raw ∧ (∀ n, ¬IsEpoch raw n) ∧ fault = .settings (.epoch raw) := by
  rw [epochFrom]
  simp only [← given_eq_some_iff, ← isEpoch_iff]
  cases given env "RTGF_INITIAL_EPOCH" with
  | none => simp
  | some raw => cases h : readWord? (Text.trim raw) <;> simp [h, eq_comm]

lemma isLayered_folder : IsLayered env "RTGF_STATIC_DIR" IsFolder base.folder s.folder ↔
    (given env "RTGF_STATIC_DIR").getD base.folder = s.folder := by
  rw [isLayered_iff isFolder_iff]
  cases given env "RTGF_STATIC_DIR" <;> rfl

lemma isLayered_baseAddress : IsLayered env "RTGF_URL" IsBaseAddress base.baseAddress s.baseAddress ↔
    ((given env "RTGF_URL").map fun u => Text.stripEnd '/' (Text.trim u)).or base.baseAddress =
      s.baseAddress := by
  rw [isLayered_iff isBaseAddress_iff]
  cases given env "RTGF_URL" <;> rfl

lemma isLayered_fixedTime : IsLayered env "FIXED_TIME" IsFixedTime base.fixedTime s.fixedTime ↔
    fixedTimeFrom env base = s.fixedTime := by
  rw [isLayered_iff isFixedTime_iff, fixedTimeFrom]
  cases given env "FIXED_TIME" with
  | none => rfl
  | some raw => cases h : Time.Timestamp.read raw <;> simp [h, Except.toOption]

lemma applyEnvironment_eq_error_iff :
    applyEnvironment env base = .error fault ↔ epochFrom env base = .error fault := by
  rw [applyEnvironment]
  cases epochFrom env base <;> simp [pure, Except.pure]

lemma applyEnvironment_eq_ok_iff : applyEnvironment env base = .ok s ↔ Overlays env base s := by
  rw [applyEnvironment, Sequence.bind_eq_ok_iff]
  constructor
  · rintro ⟨n, hn, ⟨⟩⟩
    obtain ⟨hreadable, hlayered⟩ := epochFrom_eq_ok_iff.1 hn
    exact ⟨hreadable, isLayered_folder.2 rfl, isLayered_baseAddress.2 rfl, hlayered, isLayered_fixedTime.2 rfl,
      rfl, rfl, rfl, rfl⟩
  · intro h
    refine ⟨_, epochFrom_eq_ok_iff.2 ⟨h.readable, h.initialEpoch⟩, ?_⟩
    rw [isLayered_folder.1 h.folder, isLayered_baseAddress.1 h.baseAddress, isLayered_fixedTime.1 h.fixedTime,
      ← h.manifest, ← h.keysFile, ← h.verifier, ← h.catalog]
    rfl

lemma Overlays.again (h : Overlays env base s) : Overlays env s s where
  readable := h.readable
  folder := h.folder.again
  baseAddress := h.baseAddress.again
  initialEpoch := h.initialEpoch.again
  fixedTime := h.fixedTime.again
  manifest := rfl
  keysFile := rfl
  verifier := rfl
  catalog := rfl

structure AgreeWhere (same : String → Prop) (s s' : Settings) : Prop where
  folder : same "RTGF_STATIC_DIR" → s.folder = s'.folder
  baseAddress : same "RTGF_URL" → s.baseAddress = s'.baseAddress
  initialEpoch : same "RTGF_INITIAL_EPOCH" → s.initialEpoch = s'.initialEpoch
  fixedTime : same "FIXED_TIME" → s.fixedTime = s'.fixedTime
  manifest : s.manifest = s'.manifest
  keysFile : s.keysFile = s'.keysFile
  verifier : s.verifier = s'.verifier
  catalog : s.catalog = s'.catalog

lemma Overlays.agreeWhere (h : Overlays env base s) (h' : Overlays env' base s') :
    AgreeWhere (fun name => env name = env' name) s s' where
  folder hname := h.folder.eq_of_same isFolder_iff hname h'.folder
  baseAddress hname := h.baseAddress.eq_of_same isBaseAddress_iff hname h'.baseAddress
  initialEpoch hname := h.initialEpoch.eq_of_same (fun _ _ => isEpoch_iff) hname h'.initialEpoch
  fixedTime hname := h.fixedTime.eq_of_same isFixedTime_iff hname h'.fixedTime
  manifest := h.manifest.trans h'.manifest.symm
  keysFile := h.keysFile.trans h'.keysFile.symm
  verifier := h.verifier.trans h'.verifier.symm
  catalog := h.catalog.trans h'.catalog.symm

end Environments

section Files

variable {tree : Tree} {f g : Tree.Fields} {p : String}

def IsVerifier (o : Option Tree) (k : VerifierKind) : Prop :=
  o.elim (k = .structural) fun t =>
    t.name? = some "structural" ∧ k = .structural ∨ t.name? = some "ed25519" ∧ k = .ed25519

lemma isVerifier_iff {o : Option Tree} {k : VerifierKind} :
    Tree.IsField default.verifier VerifierKind.ofTree? o k ↔ IsVerifier o k := by
  cases o with
  | none => rfl
  | some t => exact VerifierKind.ofTree?_eq_some_iff

structure IsWritten (f : Tree.Fields) (s : Settings) : Prop where
  folder : Tree.IsField default.folder Tree.string? (f "static_dir") s.folder
  manifest : Tree.IsField none (Tree.nullable Tree.string?) (f "manifest") s.manifest
  initialEpoch : Tree.IsField default.initialEpoch Tree.word? (f "initial_epoch") s.initialEpoch
  baseAddress : Tree.IsField none (Tree.nullable Tree.string?) (f "base_url") s.baseAddress
  keysFile : Tree.IsField default.keysFile Tree.string? (f "jwks_file") s.keysFile
  verifier : IsVerifier (f "verifier") s.verifier
  fixedTime : Tree.IsField none Instant.ofTree? (f "fixed_time") s.fixedTime
  catalog : Tree.IsField .default CatalogSettings.ofTree? (f "catalog") s.catalog

lemma IsWritten.congr (h : ∀ name ∈ fieldNames, g name = f name) (hf : IsWritten f s) : IsWritten g s := by
  simp only [fieldNames, List.forall_mem_cons] at h
  obtain ⟨h₁, h₂, h₃, h₄, h₅, h₆, h₇, h₈, -⟩ := h
  constructor
  all_goals simp only [h₁, h₂, h₃, h₄, h₅, h₆, h₇, h₈]
  exacts [hf.folder, hf.manifest, hf.initialEpoch, hf.baseAddress, hf.keysFile, hf.verifier, hf.fixedTime,
    hf.catalog]

lemma ofTree?_eq_some_iff_fields : ofTree? tree = some s ↔
    ∃ f, tree.fields? fieldNames = some f ∧ IsWritten f s := by
  simp only [ofTree?, Option.bind_eq_bind, Option.bind_eq_some_iff, Tree.orElse_eq_some_iff]
  constructor
  · rintro ⟨f, hf, folder, h₁, manifest, h₂, epoch, h₃, address, h₄, keysFile, h₅, verifier, h₆, time, h₇,
      catalog, h₈, h⟩
    obtain rfl := Option.some.inj h
    exact ⟨f, hf, h₁, h₂, h₃, h₄, h₅, isVerifier_iff.1 h₆, h₇, h₈⟩
  · rintro ⟨f, hf, h⟩
    exact ⟨f, hf, _, h.folder, _, h.manifest, _, h.initialEpoch, _, h.baseAddress, _, h.keysFile,
      _, isVerifier_iff.2 h.verifier, _, h.fixedTime, _, h.catalog, rfl⟩

lemma ofTree?_eq_some_iff : ofTree? tree = some s ↔ ∃ f, Tree.IsRecord fieldNames tree f ∧ IsWritten f s := by
  rw [ofTree?_eq_some_iff_fields]
  constructor
  · rintro ⟨f, hf, h⟩
    exact ⟨f, Tree.isRecord_of_fields? (by decide) hf, h⟩
  · rintro ⟨f, hf, h⟩
    obtain ⟨g, hg, hsame⟩ := hf.exists_fields?
    exact ⟨g, hg, h.congr hsame⟩

def IsStated (bs : Bytes) (s : Settings) : Prop :=
  ∃ tree f, Tree.read? bs = some tree ∧ Tree.IsRecord fieldNames tree f ∧ IsWritten f s

lemma isStated_iff : IsStated bs s ↔ (Tree.read? bs).bind ofTree? = some s := by
  simp [IsStated, Option.bind_eq_some_iff, ofTree?_eq_some_iff]

inductive IsUnread (t : FileTree) (p : String) : Fault → Prop
  | missing (h : t.read p = .error .missing) : IsUnread t p (.notFound (.settings p))
  | unreadable {cause : FileFault} (h : t.read p = .error cause) (hcause : cause ≠ .missing) :
    IsUnread t p (.io cause)
  | undecodable {bs : Bytes} (h : t.read p = .ok bs) (hnone : ∀ s, ¬IsStated bs s) :
    IsUnread t p (.settings (.json p))

lemma readFile_eq_ok_iff : readFile t p = .ok s ↔ ∃ bs, t.read p = .ok bs ∧ IsStated bs s := by
  simp only [isStated_iff]
  rw [readFile]
  split
  next h => simp [h]
  next h => simp [h]
  next bs h =>
    split
    next s' hs => simp [h, hs]
    next hnone => simp [h, hnone]

lemma readFile_eq_error_iff : readFile t p = .error fault ↔ IsUnread t p fault := by
  constructor
  · intro h
    rw [readFile] at h
    split at h
    next hread =>
      obtain rfl := Except.error.inj h
      exact .missing hread
    next cause hcause hread =>
      obtain rfl := Except.error.inj h
      exact .unreadable hread hcause
    next bs hread =>
      split at h
      next => cases h
      next hnone =>
        obtain rfl := Except.error.inj h
        refine .undecodable hread fun s hs => ?_
        rw [isStated_iff, hnone] at hs
        cases hs
  · rintro (hread | @⟨cause, hread, hcause⟩ | ⟨hread, hnone⟩)
    · rw [readFile, hread]
    · cases cause with
      | missing => exact absurd rfl hcause
      | _ => rw [readFile, hread]
    · simp only [isStated_iff] at hnone
      simp only [readFile, hread, Option.eq_none_iff_forall_ne_some.2 hnone]

inductive IsBase (t : FileTree) : Option String → Settings → Prop
  | default : IsBase t none .default
  | file {p : String} {bs : Bytes} {s : Settings} (h : t.read p = .ok bs) (hs : IsStated bs s) :
    IsBase t (some p) s

/-- Why no settings are loaded. A file comes before the environment. -/
inductive IsUnloaded (t : FileTree) (env : Environment) : Option String → Fault → Prop
  | file {p : String} {fault : Fault} (h : IsUnread t p fault) : IsUnloaded t env (some p) fault
  | epoch {path : Option String} {base : Settings} {raw : String} (hbase : IsBase t path base)
    (hgiven : Gives env "RTGF_INITIAL_EPOCH" raw) (hnone : ∀ n, ¬IsEpoch raw n) :
    IsUnloaded t env path (.settings (.epoch raw))

lemma isBase_none_iff : IsBase t none base ↔ base = default := by
  constructor
  · rintro ⟨⟩
    rfl
  · rintro rfl
    exact .default

lemma isBase_some_iff : IsBase t (some p) base ↔ readFile t p = .ok base := by
  rw [readFile_eq_ok_iff]
  constructor
  · rintro (_ | ⟨h, hs⟩)
    exact ⟨_, h, hs⟩
  · rintro ⟨_, h, hs⟩
    exact .file h hs

lemma load_eq_of_isBase (h : IsBase t path base) : load t env path = applyEnvironment env base := by
  cases path with
  | none => rw [isBase_none_iff.1 h]; rfl
  | some p => simp only [load, isBase_some_iff.1 h]; rfl

lemma load_eq_of_isUnread (h : IsUnread t p fault) : load t env (some p) = .error fault := by
  simp only [load, readFile_eq_error_iff.2 h]
  rfl

lemma isBase_or_isUnread (t : FileTree) (path : Option String) :
    (∃ base, IsBase t path base) ∨ ∃ p fault, path = some p ∧ IsUnread t p fault := by
  cases path with
  | none => exact .inl ⟨_, .default⟩
  | some p =>
    cases h : readFile t p with
    | ok base => exact .inl ⟨base, isBase_some_iff.2 h⟩
    | error fault => exact .inr ⟨p, fault, rfl, readFile_eq_error_iff.1 h⟩

lemma load_eq_ok_iff : load t env path = .ok s ↔ ∃ base, IsBase t path base ∧ Overlays env base s := by
  constructor
  · intro h
    rcases isBase_or_isUnread t path with ⟨base, hbase⟩ | ⟨p, fault, rfl, hfault⟩
    · rw [load_eq_of_isBase hbase] at h
      exact ⟨base, hbase, applyEnvironment_eq_ok_iff.1 h⟩
    · rw [load_eq_of_isUnread hfault] at h
      cases h
  · rintro ⟨base, hbase, h⟩
    rw [load_eq_of_isBase hbase, applyEnvironment_eq_ok_iff.2 h]

lemma load_eq_error_iff : load t env path = .error fault ↔ IsUnloaded t env path fault := by
  constructor
  · intro h
    rcases isBase_or_isUnread t path with ⟨base, hbase⟩ | ⟨p, fault', rfl, hfault⟩
    · rw [load_eq_of_isBase hbase, applyEnvironment_eq_error_iff, epochFrom_eq_error_iff] at h
      obtain ⟨raw, hgiven, hnone, rfl⟩ := h
      exact .epoch hbase hgiven hnone
    · obtain rfl := Except.error.inj ((load_eq_of_isUnread hfault).symm.trans h)
      exact .file hfault
  · rintro (h | ⟨hbase, hgiven, hnone⟩)
    · exact load_eq_of_isUnread h
    · rw [load_eq_of_isBase hbase, applyEnvironment_eq_error_iff, epochFrom_eq_error_iff]
      exact ⟨_, hgiven, hnone, rfl⟩

lemma IsBase.unique {base' : Settings} (h : IsBase t path base) (h' : IsBase t path base') : base = base' := by
  cases path with
  | none => rw [isBase_none_iff.1 h, isBase_none_iff.1 h']
  | some p => exact Except.ok.inj ((isBase_some_iff.1 h).symm.trans (isBase_some_iff.1 h'))

lemma exists_isUnloaded_iff : (∃ fault, IsUnloaded t env path fault) ↔
    (∃ p fault, path = some p ∧ IsUnread t p fault) ∨
      ∃ raw, Gives env "RTGF_INITIAL_EPOCH" raw ∧ ∀ n, ¬IsEpoch raw n := by
  constructor
  · rintro ⟨fault, h | ⟨-, hgiven, hnone⟩⟩
    · exact .inl ⟨_, fault, rfl, h⟩
    · exact .inr ⟨_, hgiven, hnone⟩
  · rintro (⟨p, fault, rfl, h⟩ | ⟨raw, hgiven, hnone⟩)
    · exact ⟨fault, .file h⟩
    · rcases isBase_or_isUnread t path with ⟨base, hbase⟩ | ⟨p, fault, rfl, h⟩
      · exact ⟨_, .epoch hbase hgiven hnone⟩
      · exact ⟨fault, .file h⟩

lemma IsUnloaded.of_same (hname : env "RTGF_INITIAL_EPOCH" = env' "RTGF_INITIAL_EPOCH")
    (h : IsUnloaded t env path fault) : IsUnloaded t env' path fault := by
  cases h with
  | file h => exact .file h
  | epoch hbase hgiven hnone =>
    refine .epoch hbase ?_ hnone
    rwa [Gives, ← hname]

lemma agreeWhere_of_load (h : load t env path = .ok s) (h' : load t env' path = .ok s') :
    AgreeWhere (fun name => env name = env' name) s s' := by
  obtain ⟨base, hbase, hs⟩ := load_eq_ok_iff.1 h
  obtain ⟨base', hbase', hs'⟩ := load_eq_ok_iff.1 h'
  obtain rfl := hbase.unique hbase'
  exact hs.agreeWhere hs'

end Files

/-- Loading fails exactly where a file is named that is missing, unreadable or no settings, or the variable of
the epoch holds no number; otherwise it gives the environment over the file over the defaults. A variable
changes its own field alone, failing is up to the epoch's, and an environment changes nothing again. -/
theorem layers_exact (t : FileTree) (env : Environment) (path : Option String) :
    ((∃ fault, load t env path = .error fault) ↔
        (∃ p fault, path = some p ∧ IsUnread t p fault) ∨
          ∃ raw, Gives env "RTGF_INITIAL_EPOCH" raw ∧ ∀ n, ¬IsEpoch raw n) ∧
      (∀ fault, load t env path = .error fault ↔ IsUnloaded t env path fault) ∧
      (∀ s, load t env path = .ok s ↔ ∃ base, IsBase t path base ∧ Overlays env base s) ∧
      (∀ env' s s', load t env path = .ok s → load t env' path = .ok s' →
        AgreeWhere (fun name => env name = env' name) s s') ∧
      (∀ env' fault, env "RTGF_INITIAL_EPOCH" = env' "RTGF_INITIAL_EPOCH" →
        load t env path = .error fault → load t env' path = .error fault) ∧
      (∀ base s, applyEnvironment env base = .ok s → applyEnvironment env s = .ok s) ∧
      ∀ s, load t env path = .ok s → applyEnvironment env s = .ok s := by
  refine ⟨?_, fun fault => load_eq_error_iff, fun s => load_eq_ok_iff, fun env' s s' => agreeWhere_of_load,
    fun env' fault hname h => ?_, fun base s h => ?_, fun s h => ?_⟩
  · simp only [load_eq_error_iff]
    exact exists_isUnloaded_iff
  · exact load_eq_error_iff.2 ((load_eq_error_iff.1 h).of_same hname)
  · exact applyEnvironment_eq_ok_iff.2 (applyEnvironment_eq_ok_iff.1 h).again
  · obtain ⟨base, -, hs⟩ := load_eq_ok_iff.1 h
    exact applyEnvironment_eq_ok_iff.2 hs.again

def partialFile : FileTree := FileTree.empty.write "rtgf.json"
  (Utf8.ofString (
    "\x7b\"static_dir\":\"/srv/tokens\",\"verifier\":\"ed25519\",\"fixed_time\":\"2026-01-15T12:00:00Z\"," ++
    "\"manifest\":\"m.json\",\"catalog\":\x7b\"issuer\":\"did:example:x\"\x7d\x7d"))

def deployed : Environment := fun name =>
  [("RTGF_STATIC_DIR", " \t"), ("RTGF_URL", " https://registry.example// "), ("RTGF_INITIAL_EPOCH", "+041\n"),
    ("FIXED_TIME", "tomorrow")].lookup name

def misnumbered : Environment := fun name => if name = "RTGF_INITIAL_EPOCH" then some "many" else deployed name

def site : Settings :=
  { default with
    folder := "/srv/tokens"
    manifest := some "m.json"
    initialEpoch := 41
    baseAddress := some "https://registry.example"
    verifier := .ed25519
    fixedTime := some ⟨1768478400, 0⟩
    catalog := { CatalogSettings.default with issuer := "did:example:x" } }

theorem partial_file_layered : load partialFile deployed (some "rtgf.json") = .ok site ∧
    (∃ base, IsBase partialFile (some "rtgf.json") base ∧ Overlays deployed base site) ∧
    applyEnvironment deployed site = .ok site ∧
    ∃ fault, load partialFile misnumbered (some "rtgf.json") = .error fault := by
  obtain ⟨-, -, hlayers, -, -, -, hagain⟩ := layers_exact partialFile deployed (some "rtgf.json")
  obtain ⟨hfails, -⟩ := layers_exact partialFile misnumbered (some "rtgf.json")
  have hsite : load partialFile deployed (some "rtgf.json") = .ok site := by decide +kernel
  refine ⟨hsite, (hlayers site).1 hsite, hagain site hsite, hfails.2 (.inr ⟨"many", ?_, fun n hn => ?_⟩)⟩
  · exact given_eq_some_iff.1 (by decide +kernel)
  · have hnone : readWord? (Text.trim "many") = none := by decide +kernel
    cases hnone.symm.trans (isEpoch_iff.2 hn)

end CorridorTrust.Settings
