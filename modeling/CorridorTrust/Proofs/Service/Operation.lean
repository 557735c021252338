import CorridorTrust.Service.Rpc
import CorridorTrust.Proofs.Bundle.Checkpoints
import CorridorTrust.Proofs.Publication.Snapshot
import CorridorTrust.Proofs.Text.Beginning

/-!
A service in operation while the files around it change. Its snapshot is sound from the start and stays
so, whatever happens.
-/

namespace CorridorTrust

open Json (Value)
open Time (Instant)

namespace Judgement

open Checkpoint

variable {v : Verifier} {source : PayloadSource} {request : Request} {now : Instant} {epoch : Epoch}

lemma exists_of_reason {reason : String} (hne : reason ≠ "")
    (h : (judge v source request now epoch).reason = reason) :
    ∃ before c after, order = before ++ c :: after ∧
      (∀ b ∈ before, b.Passes v source request now) ∧ ¬c.Passes v source request now ∧
      c.rejection request = reason := by
  have hdecides := order_decides v source request now
  rw [judge] at h
  generalize Judgement.check v source request now = x at hdecides h
  generalize order = cs at hdecides ⊢
  cases hdecides with
  | passed _ => exact absurd h.symm hne
  | @stopped before after c hbefore hc =>
    refine ⟨before, c, after, rfl, hbefore, hc, ?_⟩
    rw [← text_reason]
    exact h

lemma rejection_eq_missing {c : Checkpoint} {uri : String}
    (h : c.rejection request = "metadata_missing:" ++ uri) :
    ∃ role, c = found role ∧ request.tokens.get role = uri := by
  cases c with
  | found role => exact ⟨role, rfl, (String.append_right_inj _).1 h⟩
  | _ => exact absurd h (Text.append_ne_append (by decide))

lemma rejection_eq_invalid {c : Checkpoint} {uri : String}
    (h : c.rejection request = "metadata_invalid:" ++ uri) :
    ∃ role, c = wellFormed role ∧ request.tokens.get role = uri := by
  cases c with
  | wellFormed role => exact ⟨role, rfl, (String.append_right_inj _).1 h⟩
  | _ => exact absurd h (Text.append_ne_append (by decide))

lemma not_found_of_missing {uri : String}
    (h : (judge v source request now epoch).reason = "metadata_missing:" ++ uri) :
    source uri = .ok [] ∨ ∃ what, source uri = .error (.notFound what) := by
  obtain ⟨before, c, after, -, -, hc, hreason⟩ := exists_of_reason (by simp) h
  obtain ⟨role, rfl, rfl⟩ := rejection_eq_missing hreason
  by_contra hn
  push Not at hn
  exact hc hn

lemma ill_formed_of_invalid {uri : String}
    (h : (judge v source request now epoch).reason = "metadata_invalid:" ++ uri) :
    (∀ what, source uri ≠ .error (.notFound what)) ∧
      ∀ ms, Payload.Shows source uri ms → ¬Payload.IsWellFormed ms := by
  obtain ⟨before, c, after, horder, hbefore, hc, hreason⟩ :=
    exists_of_reason (by simp) h
  obtain ⟨role, rfl, rfl⟩ := rejection_eq_invalid hreason
  exact ⟨(hbefore _ (found_mem_before horder)).2, fun ms hms hwell => hc ⟨ms, hms, hwell⟩⟩

end Judgement

lemma Fault.head_message (f : Fault) : f.message.toList.head?.any Char.isUpper = true := by
  cases f <;> (repeat apply Text.head_append) <;> decide +kernel

namespace Rpc

variable {w : World} {s : Service}

lemma head_message {f : Failure} (h : f ≠ .badPayload) :
    f.message.toList.head?.any (· != 's') = true := by
  cases f with
  | badPayload => exact absurd rfl h
  | badTime fault | refused fault =>
    have hupper := fault.head_message
    change fault.message.toList.head?.any _ = true
    cases hc : fault.message.toList.head? with
    | none => simp [hc] at hupper
    | some c =>
      rw [hc] at hupper
      have hne : c ≠ 's' := by
        rintro rfl
        exact absurd hupper (by decide)
      simpa using hne
  | unknownMethod name => exact Text.head_append (by decide +kernel)
  | _ => decide +kernel

lemma payload_ne_badPayload {x : Except Fault Bytes}
    (h : ∀ bs, x = .ok bs → ∃ v, Value.read? bs = some v) : payload x ≠ .error .badPayload := by
  cases x with
  | error fault => simp [payload]
  | ok bs =>
    obtain ⟨v, hv⟩ := h bs rfl
    simp [payload, hv]

lemma tokensGet_ne_badPayload (hs : s.snapshot.IsSound) (params : Value) :
    tokensGet s params ≠ .error .badPayload := by
  rw [tokensGet]
  split
  · simp
  · refine payload_ne_badPayload fun bs h => ?_
    dsimp only [Service.get] at h
    split at h
    · cases h
    · exact hs.read?_of_get h

lemma tokensLookup_ne_badPayload (hs : s.snapshot.IsSound) (params : Value) :
    tokensLookup s params ≠ .error .badPayload := by
  rw [tokensLookup]
  split
  · simp
  · exact payload_ne_badPayload fun bs h => hs.read?_of_getNamed h

lemma verify_ne_badPayload (params : Value) : verify w s params ≠ .error .badPayload := by
  rw [verify]
  split
  · simp
  next p _ =>
    have hinstant : instant s w.clock p.now ≠ .error .badPayload := by
      unfold instant
      repeat' split
      all_goals simp
    cases hnow : instant s w.clock p.now with
    | ok now => simp [pure, Except.pure]
    | error failure => simpa [hnow] using hinstant

lemma call_ne_badPayload (hs : s.snapshot.IsSound) (method : String) (params : Value) :
    (call w s method params).1 ≠ .error .badPayload := by
  unfold call
  split
  case h_3 => exact verify_ne_badPayload params
  case h_6 => exact tokensGet_ne_badPayload hs params
  case h_7 => exact tokensLookup_ne_badPayload hs params
  case h_10 =>
    rw [reload]
    split <;> simp
  all_goals simp

end Rpc

namespace Service

lemma isSound_of_loadSnapshot {t : FileTree} {settings : Settings} {snapshot : Snapshot}
    (h : settings.loadSnapshot t = .ok snapshot) : snapshot.IsSound := by
  obtain ⟨m, hm, h⟩ := Sequence.bind_eq_ok_iff.1 h
  refine Snapshot.isSound_of_load ?_ h
  rw [Settings.loadManifest] at hm
  split at hm
  next path _ =>
    rw [Settings.readManifest] at hm
    split at hm
    · exact Manifest.hasWindow_of_read hm
    · cases hm
    · cases hm
  next =>
    obtain rfl : Manifest.sandbox = m := by simpa using hm
    exact Manifest.hasWindow_sandbox

lemma isSound_of_openWith {t : FileTree} {settings : Settings} {s : Service}
    (h : openWith t settings = .ok s) : s.snapshot.IsSound := by
  obtain ⟨snapshot, hsnapshot, h⟩ := Sequence.bind_eq_ok_iff.1 h
  obtain ⟨⟨keys, verifier⟩, -, h⟩ := Sequence.bind_eq_ok_iff.1 h
  obtain rfl : _ = s := by simpa [pure, Except.pure] using h
  exact isSound_of_loadSnapshot hsnapshot

lemma isSound_of_reload {t : FileTree} {s s' : Service} (h : s.reload t = .ok s') :
    s'.snapshot.IsSound := by
  obtain ⟨snapshot, hsnapshot, h⟩ := Sequence.bind_eq_ok_iff.1 h
  obtain rfl : _ = s' := by simpa [pure, Except.pure] using h
  exact isSound_of_loadSnapshot hsnapshot

inductive Event where
  | files (t : FileTree)
  | reload
  | bump
  | verify (request : Request) (now : Instant)
  | get (uri : String)
  | getNamed (raw slug : String)
  | call (clock : Instant) (q : Value)

def after : FileTree × Service → Event → FileTree × Service
  | (_, s), .files t => (t, s)
  | (t, s), .reload =>
    match s.reload t with
    | .ok s => (t, s)
    | .error _ => (t, s)
  | (t, s), .bump => (t, s.bump)
  | x, .verify _ _ | x, .get _ | x, .getNamed _ _ => x
  | (t, s), .call clock q => (t, (Rpc.handle ⟨t, clock⟩ s q).2)

def run (x : FileTree × Service) (events : List Event) : FileTree × Service := events.foldl after x

lemma isSound_call {s : Service} (hs : s.snapshot.IsSound) (w : Rpc.World) (method : String)
    (params : Value) : (Rpc.call w s method params).2.snapshot.IsSound := by
  unfold Rpc.call
  split
  case h_10 =>
    rw [Rpc.reload]
    split
    next s' hs' => exact isSound_of_reload hs'
    next => exact hs
  all_goals exact hs

lemma isSound_after {x : FileTree × Service} (hx : x.2.snapshot.IsSound) (e : Event) :
    (after x e).2.snapshot.IsSound := by
  obtain ⟨t, s⟩ := x
  cases e with
  | reload =>
    unfold after
    dsimp only
    split
    next s' hs' => exact isSound_of_reload hs'
    next => exact hx
  | call clock q =>
    rw [after, Rpc.handle]
    dsimp only
    split
    next => exact hx
    next => exact isSound_call hx _ _ _
  | _ => exact hx

lemma isSound_run {x : FileTree × Service} (hx : x.2.snapshot.IsSound) (events : List Event) :
    (run x events).2.snapshot.IsSound := by
  induction events generalizing x with
  | nil => exact hx
  | cons e events ih => exact ih (isSound_after hx e)

/-- Whatever happens to an opened service, its snapshot is sound, and it answers accordingly. -/
theorem sound_forever {t : FileTree} {settings : Settings} {s₀ : Service}
    (h : openWith t settings = .ok s₀) (events : List Event) :
    let s := (run (t, s₀) events).2
    s.snapshot.IsSound ∧
      (∀ e ∈ s.snapshot.index.entries, ∃ bs v, s.snapshot.payload e.uri = .ok bs ∧
        s.snapshot.content e.content = .ok bs ∧ bs ≠ [] ∧ Value.read? bs = some v) ∧
      (∀ request now, ∀ e ∈ s.snapshot.index.entries,
        (s.verify request now).reason ≠ "metadata_missing:" ++ e.uri) ∧
      (∀ request now uri, (s.verify request now).reason = "metadata_invalid:" ++ uri →
        ∃ e ∈ s.snapshot.index.entries, e.uri = uri ∧ ∃ bs v, s.snapshot.payload uri = .ok bs ∧
          Value.read? bs = some v ∧ ∀ ms, v = .object ms → ¬Payload.IsWellFormed ms) ∧
      ∀ w method params failure, (Rpc.call w s method params).1 = .error failure →
        ∀ rest, failure.message ≠ "stored payload is not JSON" ++ rest := by
  intro s
  have hs : s.snapshot.IsSound := isSound_run (isSound_of_openWith h) events
  refine ⟨hs, fun e he => hs.payload_published he, fun request now e he hr => ?_,
    fun request now uri hr => ?_, fun w method params failure hf rest hm => ?_⟩
  · obtain ⟨bs, v, hbs, -, hne, -⟩ := hs.payload_published he
    rcases Judgement.not_found_of_missing hr with hnil | ⟨what, hwhat⟩
    · rw [hbs] at hnil
      exact hne (by simpa using hnil)
    · rw [hbs] at hwhat
      cases hwhat
  · obtain ⟨hfound, hill⟩ := Judgement.ill_formed_of_invalid hr
    have hpublished : ∃ e ∈ s.snapshot.index.entries, e.uri = uri := by
      by_contra hn
      push Not at hn
      exact hfound _ (Snapshot.payload_unpublished hn)
    obtain ⟨e, he, rfl⟩ := hpublished
    obtain ⟨bs, v, hbs, -, hne, hv⟩ := hs.payload_published he
    refine ⟨e, he, rfl, bs, v, hbs, hv, ?_⟩
    rintro ms rfl
    exact hill ms ⟨bs, hbs, hne, hv⟩
  · have hne : failure ≠ .badPayload := by
      rintro rfl
      exact Rpc.call_ne_badPayload hs method params hf
    have hhead := Rpc.head_message hne
    rw [hm, String.toList_append] at hhead
    simp at hhead

def singleFiles : FileTree :=
  (FileTree.empty.write "static/tokens/a.json" (Utf8.ofString "\x7b\x7d")).write "m.json"
    (Utf8.ofString
      "\x7b\"tokens\":[\x7b\"uri\":\"u\",\"type\":\"RMT\",\"content_ref\":\"a.json\"\x7d]\x7d")

def singleSettings : Settings := { Settings.default with manifest := some "m.json" }

def spacedFiles : FileTree :=
  ((FileTree.empty.write "static/tokens/a" (Utf8.ofString "\x7b\x7d")).write "static/tokens/b"
    (Utf8.ofString "[]")).write "m.json" (Utf8.ofString (
      "\x7b\"tokens\":[\x7b\"uri\":\"u\",\"type\":\"RMT\",\"content_ref\":\"a\"\x7d," ++
      "\x7b\"uri\":\" u\",\"type\":\"IMT\",\"content_ref\":\"b\"\x7d]\x7d"))

def spaced : Manifest := ⟨"", [Entry.new "u" .rmt "a", Entry.new " u" .imt "b"]⟩

lemma loadManifest_spaced : singleSettings.loadManifest spacedFiles = .ok spaced := by decide +kernel

lemma exists_open_spaced : ∃ s₀, openWith spacedFiles singleSettings = .ok s₀ ∧
    s₀.settings = singleSettings ∧
    s₀.snapshot.index = ⟨[Entry.new " u" .imt "b", Entry.new "u" .rmt "a"]⟩ := by
  have hstore : (do
      let f ← Folder.openAt spacedFiles singleSettings.folder
      Store.preload (f.read spacedFiles) spaced.references).toBool = true := by decide +kernel
  have hapart : Index.Apart (Entry.new " u" .imt "b") (Entry.new "u" .rmt "a") :=
    ⟨by decide, fun k hk => by simp [Entry.slugKey, Entry.new] at hk⟩
  have hindex : Index.build spaced.tokens = .ok ⟨[Entry.new " u" .imt "b", Entry.new "u" .rmt "a"]⟩ :=
    (Index.build_pair (by decide) hapart).2
  obtain ⟨store, hstore⟩ := Sequence.exists_of_toBool hstore
  obtain ⟨f, hfolder, hpreload⟩ := Sequence.bind_eq_ok_iff.1 hstore
  simp only [openWith, Settings.loadSnapshot, loadManifest_spaced, Snapshot.load, hfolder, hpreload, hindex,
    Sequence.ok_bind]
  exact ⟨_, rfl, rfl, rfl⟩

theorem sound_without_files : ∃ s₀, openWith spacedFiles singleSettings = .ok s₀ ∧
    (run (spacedFiles, s₀) [.files FileTree.empty, .reload, .bump]).2.snapshot.IsSound ∧
    (run (spacedFiles, s₀) [.files FileTree.empty, .reload, .bump]).2.snapshot.index =
      ⟨[Entry.new " u" .imt "b", Entry.new "u" .rmt "a"]⟩ := by
  obtain ⟨s₀, h, hsettings, hindex⟩ := exists_open_spaced
  refine ⟨s₀, h, (sound_forever h _).1, ?_⟩
  obtain ⟨settings, snapshot, epoch, verifier, keys⟩ := s₀
  obtain rfl : settings = singleSettings := hsettings
  -- without a manifest the reload fails, which leaves the snapshot
  exact hindex

end Service

end CorridorTrust
