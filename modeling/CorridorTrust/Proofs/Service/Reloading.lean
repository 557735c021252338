import CorridorTrust.Proofs.Service.Operation

/-!
Reloading a service. Only the snapshot can change, to what an opening with the same settings would load
from the files as they are; between reloads the files are not looked at. Two services that agree in all
but the initial epoch of their settings answer alike for ever.
-/

namespace CorridorTrust

open Json (Value)
open Time (Instant)

namespace Service

variable {t u t₀ : FileTree} {s s' s₀ : Service} {settings : Settings} {e : Event}

inductive Reply where
  | named (publication : Except Fault String)
  | counted (epoch : Epoch)
  | judged (verdict : Verdict)
  | resolved (payload : Except Fault Bytes)
  | responded (response : Value)

def reply? : FileTree × Service → Event → Option Reply
  | _, .files _ => none
  | (t, s), .reload => some (.named ((s.reload t).map fun s' => s'.snapshot.id))
  | (_, s), .bump => some (.counted s.bump.epoch)
  | (_, s), .verify request now => some (.judged (s.verify request now))
  | (_, s), .get uri => some (.resolved (s.get uri))
  | (_, s), .getNamed raw slug => some (.resolved (s.getNamed raw slug))
  | (t, s), .call clock q => some (.responded (Rpc.handle ⟨t, clock⟩ s q).1)

def replies : FileTree × Service → List Event → List Reply
  | _, [] => []
  | x, e :: events => (reply? x e).toList ++ replies (after x e) events

namespace Event

def changesFiles : Event → Bool
  | .files _ => true
  | _ => false

def reloads : Event → Bool
  | .reload => true
  | .call _ q => (Rpc.member? q "method").bind Value.string? == some "registry/reload"
  | _ => false

end Event

section Steps

lemma reload_eq (s : Service) (t : FileTree) :
    s.reload t = (s.settings.loadSnapshot t).map fun snapshot => { s with snapshot := snapshot } := by
  rw [reload]
  cases s.settings.loadSnapshot t <;> rfl

lemma after_reload_of_error {fault : Fault} (h : s.settings.loadSnapshot t = .error fault) :
    after (t, s) .reload = (t, s) := by
  simp [after, reload_eq, h, Except.map]

lemma after_reload_of_ok {snapshot : Snapshot} (h : s.settings.loadSnapshot t = .ok snapshot) :
    after (t, s) .reload = (t, { s with snapshot := snapshot }) := by
  simp [after, reload_eq, h, Except.map]

lemma call_cases (w : Rpc.World) (s : Service) (method : String) (params : Value) :
    (Rpc.call w s method params).2 = s ∨ (Rpc.call w s method params).2 = s.bump ∨
      ∃ snapshot, s.settings.loadSnapshot w.files = .ok snapshot ∧
        (Rpc.call w s method params).2 = { s with snapshot := snapshot } := by
  unfold Rpc.call
  split
  case h_5 => exact .inr (.inl rfl)
  case h_10 =>
    rw [Rpc.reload, reload_eq]
    cases h : s.settings.loadSnapshot w.files with
    | ok snapshot => exact .inr (.inr ⟨snapshot, rfl, rfl⟩)
    | error fault => exact .inl rfl
  all_goals exact .inl rfl

lemma after_cases (x : FileTree × Service) (e : Event) :
    (after x e).2 = x.2 ∨ (after x e).2 = x.2.bump ∨
      ∃ snapshot, x.2.settings.loadSnapshot x.1 = .ok snapshot ∧
        (after x e).2 = { x.2 with snapshot := snapshot } := by
  obtain ⟨t, s⟩ := x
  cases e with
  | bump => exact .inr (.inl rfl)
  | reload =>
    cases h : s.settings.loadSnapshot t with
    | ok snapshot => exact .inr (.inr ⟨snapshot, rfl, by rw [after_reload_of_ok h]⟩)
    | error fault => exact .inl (by rw [after_reload_of_error h])
  | call clock q =>
    rw [after, Rpc.handle]
    dsimp only
    split
    next => exact .inl rfl
    next => exact call_cases _ _ _ _
  | _ => exact .inl rfl

lemma fixed_run (x : FileTree × Service) (events : List Event) :
    (run x events).2.settings = x.2.settings ∧ (run x events).2.verifier = x.2.verifier ∧
      (run x events).2.keys = x.2.keys := by
  induction events generalizing x with
  | nil => exact ⟨rfl, rfl, rfl⟩
  | cons e events ih =>
    obtain ⟨hsettings, hverifier, hkeys⟩ := ih (after x e)
    have hstep : (after x e).2.settings = x.2.settings ∧ (after x e).2.verifier = x.2.verifier ∧
        (after x e).2.keys = x.2.keys := by
      rcases after_cases x e with h | h | ⟨snapshot, -, h⟩ <;> rw [h] <;> exact ⟨rfl, rfl, rfl⟩
    exact ⟨hsettings.trans hstep.1, hverifier.trans hstep.2.1, hkeys.trans hstep.2.2⟩

end Steps

section Files

lemma call_files {method : String} (h : method ≠ "registry/reload") (clock : Instant)
    (params : Value) :
    Rpc.call ⟨t, clock⟩ s method params = Rpc.call ⟨u, clock⟩ s method params := by
  unfold Rpc.call
  split
  case h_10 => exact absurd rfl h
  all_goals rfl

lemma handle_files {q : Value} {clock : Instant} (h : (Event.call clock q).reloads = false) :
    Rpc.handle ⟨t, clock⟩ s q = Rpc.handle ⟨u, clock⟩ s q := by
  rw [Rpc.handle, Rpc.handle]
  cases hmethod : (Rpc.member? q "method").bind Value.string? with
  | none => rfl
  | some method =>
    have hne : method ≠ "registry/reload" := by
      rintro rfl
      simp [Event.reloads, hmethod] at h
    dsimp only
    rw [call_files hne]

lemma step_files (h : e.reloads = false) :
    reply? (t, s) e = reply? (u, s) e ∧ (after (t, s) e).2 = (after (u, s) e).2 := by
  cases e with
  | reload => cases h
  | call clock q =>
    have hhandle := handle_files (t := t) (u := u) (s := s) h
    exact ⟨by rw [reply?, reply?, hhandle], by rw [after, after, hhandle]⟩
  | _ => exact ⟨rfl, rfl⟩

theorem replies_files {events : List Event} (h : ∀ e ∈ events, e.reloads = false) :
    replies (t, s) events = replies (u, s) (events.filter fun e => !e.changesFiles) := by
  induction events generalizing t u s with
  | nil => rfl
  | cons e events ih =>
    obtain ⟨he, hevents⟩ := List.forall_mem_cons.1 h
    by_cases hfiles : e.changesFiles = true
    · obtain ⟨files, rfl⟩ : ∃ files, e = .files files := by
        cases e <;> first | exact ⟨_, rfl⟩ | cases hfiles
      rw [List.filter_cons_of_neg (by simp [Event.changesFiles])]
      exact ih hevents
    · rw [List.filter_cons_of_pos (by simpa using hfiles), replies, replies]
      obtain ⟨hreply, hafter⟩ := step_files (t := t) (u := u) (s := s) he
      have hrest := ih (t := (after (t, s) e).1) (u := (after (u, s) e).1)
        (s := (after (t, s) e).2) hevents
      rw [hreply]
      congr 1
      rw [Prod.mk.eta, hafter, Prod.mk.eta] at hrest
      exact hrest

end Files

section Openings

/-- The services differ at most in the epoch that their settings would begin with. -/
def Alike (s s' : Service) : Prop :=
  ∃ epoch, s' = { s with settings := { s.settings with initialEpoch := epoch } }

lemma loadSnapshot_initialEpoch (t : FileTree) (settings : Settings) (epoch : UInt64) :
    ({ settings with initialEpoch := epoch } : Settings).loadSnapshot t = settings.loadSnapshot t :=
  rfl

lemma Alike.call (h : Alike s s') (w : Rpc.World) (method : String) (params : Value) :
    (Rpc.call w s method params).1 = (Rpc.call w s' method params).1 ∧
      Alike (Rpc.call w s method params).2 (Rpc.call w s' method params).2 := by
  obtain ⟨epoch, rfl⟩ := h
  unfold Rpc.call
  split
  case h_10 =>
    simp only [Rpc.reload, reload_eq, loadSnapshot_initialEpoch]
    cases s.settings.loadSnapshot w.files <;> exact ⟨rfl, epoch, rfl⟩
  all_goals exact ⟨rfl, epoch, rfl⟩

lemma Alike.handle (h : Alike s s') (w : Rpc.World) (q : Value) :
    (Rpc.handle w s q).1 = (Rpc.handle w s' q).1 ∧
      Alike (Rpc.handle w s q).2 (Rpc.handle w s' q).2 := by
  rw [Rpc.handle, Rpc.handle]
  cases (Rpc.member? q "method").bind Value.string? with
  | none => exact ⟨rfl, h⟩
  | some method =>
    obtain ⟨hanswer, halike⟩ := h.call w method ((Rpc.member? q "params").getD (.object []))
    exact ⟨congrArg (Rpc.respond _) hanswer, halike⟩

lemma Alike.step (h : Alike s s') (t : FileTree) (e : Event) :
    reply? (t, s) e = reply? (t, s') e ∧ (after (t, s) e).1 = (after (t, s') e).1 ∧
      Alike (after (t, s) e).2 (after (t, s') e).2 := by
  cases e with
  | reload =>
    obtain ⟨epoch, rfl⟩ := h
    simp only [reply?, after, reload_eq, loadSnapshot_initialEpoch]
    cases s.settings.loadSnapshot t <;> exact ⟨rfl, rfl, epoch, rfl⟩
  | call clock q =>
    obtain ⟨hanswer, halike⟩ := h.handle ⟨t, clock⟩ q
    exact ⟨by rw [reply?, reply?, hanswer], rfl, halike⟩
  | _ =>
    obtain ⟨epoch, rfl⟩ := h
    exact ⟨rfl, rfl, epoch, rfl⟩

theorem Alike.replies (h : Alike s s') (t : FileTree) (events : List Event) :
    replies (t, s) events = replies (t, s') events := by
  induction events generalizing t s s' with
  | nil => rfl
  | cons e events ih =>
    obtain ⟨hreply, hfiles, halike⟩ := h.step t e
    have hrest := ih halike (after (t, s) e).1
    rw [Service.replies, Service.replies, hreply]
    congr 1
    rw [Prod.mk.eta, hfiles, Prod.mk.eta] at hrest
    exact hrest

lemma openWith_eq (t : FileTree) (settings : Settings) : openWith t settings =
    (settings.loadSnapshot t).bind fun snapshot => (settings.loadKeys t).map fun k =>
      ofParts settings snapshot k.2 k.1 := by
  rw [openWith]
  cases settings.loadSnapshot t with
  | error fault => rfl
  | ok snapshot => cases settings.loadKeys t <;> rfl

lemma openWith_eq_ok_iff : openWith t settings = .ok s ↔
    ∃ snapshot k, settings.loadSnapshot t = .ok snapshot ∧ settings.loadKeys t = .ok k ∧
      s = ofParts settings snapshot k.2 k.1 := by
  rw [openWith_eq]
  cases settings.loadSnapshot t <;> cases settings.loadKeys t <;> simp [Except.bind, Except.map, eq_comm]

lemma loadKeys_congr (h : t.read settings.keysPath = t₀.read settings.keysPath) :
    settings.loadKeys t = settings.loadKeys t₀ := by
  rw [Settings.loadKeys, Settings.loadKeys, h]

end Openings

/-- At any time in the life of a service, a reload that fails changes nothing, and one that succeeds
puts in place the snapshot that an opening would load. As long as the keys are those of the start, the
service then answers for ever like one opened afresh in the same epoch. Until a reload the files do not
matter. -/
theorem reload_agrees_with_open (hopen : openWith t₀ settings = .ok s₀) (events : List Event) :
    let t := (run (t₀, s₀) events).1
    let s := (run (t₀, s₀) events).2
    (s.settings = settings ∧ s.verifier = s₀.verifier ∧ s.keys = s₀.keys) ∧
      (∀ fault, settings.loadSnapshot t = .error fault →
        openWith t settings = .error fault ∧ after (t, s) .reload = (t, s) ∧
        reply? (t, s) .reload = some (.named (.error fault)) ∧
        ∀ clock params, Rpc.call ⟨t, clock⟩ s "registry/reload" params = (.error (.refused fault), s)) ∧
      (∀ snapshot, settings.loadSnapshot t = .ok snapshot →
        (∀ opened, openWith t settings = .ok opened → opened.snapshot = snapshot) ∧
        after (t, s) .reload = (t, { s with snapshot := snapshot }) ∧
        reply? (t, s) .reload = some (.named (.ok snapshot.id)) ∧
        (∀ clock params, Rpc.call ⟨t, clock⟩ s "registry/reload" params =
          (.ok (.object [("registrySnapshotId", .string snapshot.id)]), { s with snapshot := snapshot })) ∧
        (t.read settings.keysPath = t₀.read settings.keysPath →
          ∃ fresh, openWith t { settings with initialEpoch := s.epoch.value } = .ok fresh ∧
            fresh.catalog = ({ s with snapshot := snapshot } : Service).catalog ∧ fresh.keys = s.keys ∧
            ∀ later, replies (t, { s with snapshot := snapshot }) later = replies (t, fresh) later)) ∧
      ∀ later : List Event, (∀ e ∈ later, e.reloads = false) → ∀ t',
        replies (t, s) later = replies (t', s) (later.filter fun e => !e.changesFiles) := by
  intro t s
  obtain ⟨snapshot₀, k, -, hkeys, rfl⟩ := openWith_eq_ok_iff.1 hopen
  obtain ⟨hsettings, hverifier, hdocument⟩ :
      s.settings = settings ∧ s.verifier = k.2 ∧ s.keys = k.1 := fixed_run _ events
  refine ⟨⟨hsettings, hverifier, hdocument⟩, fun fault hload => ?_, fun snapshot hload => ?_,
    fun later hlater t' => replies_files hlater⟩
  · have hcurrent : s.settings.loadSnapshot t = .error fault := by rw [hsettings, hload]
    refine ⟨by rw [openWith_eq, hload]; rfl, after_reload_of_error hcurrent, ?_, fun clock params => ?_⟩
    · rw [reply?, reload_eq, hcurrent]
      rfl
    · change Rpc.reload _ _ = _
      rw [Rpc.reload, reload_eq, hcurrent]
      rfl
  · have hcurrent : s.settings.loadSnapshot t = .ok snapshot := by rw [hsettings, hload]
    refine ⟨fun opened h => ?_, after_reload_of_ok hcurrent, ?_, fun clock params => ?_, fun hfile => ?_⟩
    · obtain ⟨snapshot', _, hload', -, rfl⟩ := openWith_eq_ok_iff.1 h
      exact Except.ok.inj (hload'.symm.trans hload)
    · rw [reply?, reload_eq, hcurrent]
      rfl
    · change Rpc.reload _ _ = _
      rw [Rpc.reload, reload_eq, hcurrent]
      rfl
    · have hfresh : openWith t { settings with initialEpoch := s.epoch.value } =
          .ok (ofParts { settings with initialEpoch := s.epoch.value } snapshot k.2 k.1) :=
        openWith_eq_ok_iff.2 ⟨snapshot, k, hload, (loadKeys_congr hfile).trans hkeys, rfl⟩
      have halike : Alike { s with snapshot := snapshot }
          (ofParts { settings with initialEpoch := s.epoch.value } snapshot k.2 k.1) :=
        ⟨s.epoch.value, by rw [hsettings, hverifier, hdocument]; rfl⟩
      refine ⟨_, hfresh, ?_, hdocument.symm, fun later => halike.replies t later⟩
      rw [catalog, catalog, hsettings]
      rfl

theorem reload_of_single : ∃ s₀, openWith singleFiles singleSettings = .ok s₀ ∧
    after (run (singleFiles, s₀) [.bump, .files FileTree.empty]) .reload =
      run (singleFiles, s₀) [.bump, .files FileTree.empty] ∧
    ∃ snapshot fresh, openWith singleFiles { singleSettings with initialEpoch := 2 } = .ok fresh ∧
      after (run (singleFiles, s₀) [.bump]) .reload =
        (singleFiles, { s₀.bump with snapshot := snapshot }) ∧
      ∀ later, replies (singleFiles, { s₀.bump with snapshot := snapshot }) later =
        replies (singleFiles, fresh) later := by
  have hopen : (openWith singleFiles singleSettings).toBool = true := by decide +kernel
  have hempty : (singleSettings.loadSnapshot FileTree.empty).toBool = false := by decide +kernel
  obtain ⟨s₀, h⟩ := Sequence.exists_of_toBool hopen
  obtain ⟨snapshot, k, hload, -, rfl⟩ := openWith_eq_ok_iff.1 h
  obtain ⟨-, hfails, -⟩ := reload_agrees_with_open h [.bump, .files FileTree.empty]
  obtain ⟨-, -, hreloads, -⟩ := reload_agrees_with_open h [.bump]
  obtain ⟨-, hafter, -, -, hagrees⟩ := hreloads snapshot hload
  obtain ⟨fresh, hfresh, -, -, hreplies⟩ := hagrees rfl
  refine ⟨_, h, ?_, snapshot, fresh, hfresh, hafter, hreplies⟩
  cases hload' : singleSettings.loadSnapshot FileTree.empty with
  | ok snapshot' =>
    rw [hload'] at hempty
    cases hempty
  | error fault => exact (hfails fault hload').2.1

end Service

end CorridorTrust
