import CorridorTrust.Command.Program
import CorridorTrust.Proofs.Service.Loading
import CorridorTrust.Proofs.Text.Parts

/-!
Tokens asked for by identifier. A service takes the blanks off both ends before it looks, verification does
not; so the two agree on the identifiers that have none there, and a call and a command then give the
payload that is verified.
-/

namespace CorridorTrust

open Json (Value)

namespace Snapshot

variable {s : Snapshot} {uri : String} {bs : Bytes}

lemma IsSound.payload_eq_ok_iff (h : s.IsSound) : s.payload uri = .ok bs ↔ s.get uri = .ok bs := by
  rw [payload]
  cases hget : s.get uri with
  | error fault => simp
  | ok found =>
    obtain ⟨v, hv⟩ := h.read?_of_get hget
    rw [Sequence.ok_bind, if_neg (Value.ne_nil_of_read? hv)]
    rfl

end Snapshot

namespace Command

variable {c : Context} {args : List String} {i : Invocation} {settings : Settings} {s : Service}

structure Opens (c : Context) (args : List String) (i : Invocation) (settings : Settings) : Prop where
  invocation : Invocation.read args = .ok i
  settings : loadSettings c "failed to load configuration" i.options = .ok settings
  noKeygen : ∀ kid file, i.action ≠ .keygen kid file
  noSeal : ∀ payload kid file, i.action ≠ .seal payload kid file

lemma Opens.run_eq (h : Opens c args i settings) (hopen : Service.openWith c.world.files settings = .ok s) :
    run c args = (serviceReport c i s).outcome := by
  have hreport : report c i = serviceReport c i s := by
    rw [report]
    split
    next kid file hi => exact absurd hi (h.noKeygen kid file)
    next payload kid file hi => exact absurd hi (h.noSeal payload kid file)
    next => rw [h.settings, Sequence.ok_bind, openService, hopen, within]
  rw [run, h.invocation]
  exact congrArg Report.outcome hreport

end Command

namespace Service

variable {s : Service} {uri : String} {bs : Bytes} {e : Entry}

lemma get_eq_ok_iff (h : s.snapshot.IsSound) :
    s.get uri = .ok bs ↔ Text.trim uri ≠ "" ∧ s.snapshot.payload (Text.trim uri) = .ok bs := by
  rw [h.payload_eq_ok_iff]
  by_cases hblank : Text.trim uri = "" <;> simp [get, hblank]

lemma get_bare (h : s.snapshot.IsSound) (huri : Text.IsBare uri) :
    s.get uri = .ok bs ↔ s.snapshot.payload uri = .ok bs := by
  rw [get_eq_ok_iff h, huri.trim_eq]
  exact and_iff_right huri.ne_empty

structure Hands (s : Service) (e : Entry) (bs : Bytes) (v : Value) : Prop where
  content : s.snapshot.content e.content = .ok bs
  verified : s.snapshot.payload e.uri = .ok bs
  got : s.get e.uri = .ok bs
  json : Value.read? bs = some v
  call : ∀ w params, Rpc.uriOfTree? params.toTree = some e.uri →
    Rpc.call w s "tokens/get" params = (.ok v, s)
  command : ∀ c (i : Command.Invocation), i.action = .token e.uri →
    (Command.serviceReport c i s).outcome = ⟨0, [v.indented], "", []⟩

lemma exists_hands (h : s.snapshot.IsSound) (he : e ∈ s.snapshot.index.entries)
    (huri : Text.IsBare e.uri) : ∃ bs v, s.Hands e bs v := by
  obtain ⟨bs, v, hpayload, hcontent, -, hv⟩ := h.payload_published he
  have hget : s.get e.uri = .ok bs := (get_bare h huri).2 hpayload
  refine ⟨bs, v, hcontent, hpayload, hget, hv, fun w params hparams => ?_, fun c i hi => ?_⟩
  · change (Rpc.tokensGet s params, s) = _
    rw [Rpc.tokensGet, hparams]
    simp only [hget, Rpc.payload, hv]
  · rw [Command.serviceReport, hi]
    simp only [hget, Command.within, Command.payloadReport, hv]
    rfl

/-- In the life of a service, what it hands out under an identifier is what verification resolves the
identifier without its outer blanks to. So the two agree where there are no such blanks, and every token
that is published under such an identifier is handed out, by the command that opens the service too. -/
theorem get_agrees {t : FileTree} {settings : Settings} {s₀ : Service}
    (h : openWith t settings = .ok s₀) (events : List Event) :
    let s := (run (t, s₀) events).2
    (∀ uri bs, s.get uri = .ok bs ↔
      Text.trim uri ≠ "" ∧ s.snapshot.payload (Text.trim uri) = .ok bs) ∧
      (∀ uri, Text.IsBare uri → ∀ bs, s.get uri = .ok bs ↔ s.snapshot.payload uri = .ok bs) ∧
      (∀ e ∈ s.snapshot.index.entries, Text.IsBare e.uri → ∃ bs v, s.Hands e bs v) ∧
      ∀ e ∈ s₀.snapshot.index.entries, Text.IsBare e.uri → ∃ bs v, s₀.Hands e bs v ∧
        ∀ c args i, c.world.files = t → Command.Opens c args i settings → i.action = .token e.uri →
          Command.run c args = ⟨0, [v.indented], "", []⟩ := by
  intro s
  have hs₀ : s₀.snapshot.IsSound := isSound_of_openWith h
  have hs : s.snapshot.IsSound := isSound_run hs₀ events
  refine ⟨fun uri bs => get_eq_ok_iff hs, fun uri huri bs => get_bare hs huri,
    fun e he huri => exists_hands hs he huri, fun e he huri => ?_⟩
  obtain ⟨bs, v, hhands⟩ := exists_hands hs₀ he huri
  refine ⟨bs, v, hhands, fun c args i hfiles hopens hi => ?_⟩
  rw [hopens.run_eq (hfiles ▸ h), hhands.command c i hi]

theorem token_handed : ∃ s₀, openWith spacedFiles singleSettings = .ok s₀ ∧
    ∃ e ∈ (run (spacedFiles, s₀) [.bump, .files FileTree.empty]).2.snapshot.index.entries, e.uri = "u" ∧
      ∃ bs v, (run (spacedFiles, s₀) [.bump, .files FileTree.empty]).2.Hands e bs v := by
  obtain ⟨s₀, h, -, hindex⟩ := exists_open_spaced
  have hentry : Entry.new "u" .rmt "a" ∈ s₀.snapshot.index.entries := by simp [hindex]
  have hbare : Text.IsBare "u" := by
    refine ⟨by decide, fun c hc => ?_, fun c hc => ?_⟩
    all_goals
      obtain rfl : 'u' = c := by simpa using hc
      decide
  obtain ⟨-, -, hhands, -⟩ := get_agrees h [.bump, .files FileTree.empty]
  exact ⟨s₀, h, _, hentry, rfl, hhands _ hentry hbare⟩

lemma spaced_offers :
    Folder.Offers spacedFiles singleSettings.folder "a" (Utf8.ofString "\x7b\x7d") ∧
      Folder.Offers spacedFiles singleSettings.folder "b" (Utf8.ofString "[]") :=
  ⟨⟨by decide, by decide +kernel, _, rfl⟩, ⟨by decide, by decide +kernel, _, rfl⟩⟩

theorem spaced_token_mistaken : ∃ s₀, openWith spacedFiles singleSettings = .ok s₀ ∧
    (∃ e ∈ s₀.snapshot.index.entries, e.uri = " u" ∧
      s₀.snapshot.content e.content = .ok (Utf8.ofString "[]")) ∧
    s₀.snapshot.payload " u" = .ok (Utf8.ofString "[]") ∧
    s₀.get " u" = .ok (Utf8.ofString "\x7b\x7d") := by
  obtain ⟨s₀, hopen, -, hindex⟩ := exists_open_spaced
  have hs : s₀.snapshot.IsSound := isSound_of_openWith hopen
  have hentry : Entry.new " u" .imt "b" ∈ s₀.snapshot.index.entries := by simp [hindex]
  obtain ⟨snapshot, k, hsnapshot, -, rfl⟩ := openWith_eq_ok_iff.1 hopen
  rw [Settings.loadSnapshot, loadManifest_spaced, Sequence.ok_bind] at hsnapshot
  have hkeeps := Snapshot.keeps_of_load hsnapshot
  have hget := hkeeps.served (Entry.new " u" .imt "b") (by simp [spaced]) _ spaced_offers.2
  have hother := hkeeps.served (Entry.new "u" .rmt "a") (by simp [spaced]) _ spaced_offers.1
  exact ⟨_, hopen, ⟨_, hentry, rfl, (hs.get_eq hentry).symm.trans hget⟩,
    hs.payload_eq_ok_iff.2 hget, hother⟩

end Service

end CorridorTrust
