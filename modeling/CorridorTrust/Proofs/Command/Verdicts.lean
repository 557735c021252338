import CorridorTrust.Proofs.Bundle.Wire
import CorridorTrust.Proofs.Command.Tokens
import CorridorTrust.Proofs.Service.Responses

/-!
One bundle judged twice. The command reads its bundle from the text, a call reads its own from the value of
the text, with one field more. Whatever is read both ways names the same tokens, and the verdict that the
command prints is the one that the call is answered with.
-/

namespace CorridorTrust

open Json (Value Members Tree)
open Time (Instant)

lemma TokenSet.survives_ofTree? : Tree.Survives TokenSet.ofTree? := by
  intro t u x htu h
  simp only [ofTree?, Option.bind_eq_bind, Option.bind_eq_some_iff] at h
  obtain ⟨fields, hfields, rmt, hrmt, imt, himt, cort, hcort, psrt, hpsrt, amls, hamls, amlv, hamlv,
    hx⟩ := h
  obtain ⟨again, hagain, hrel⟩ := htu.fields? hfields
  have hrmt' := Tree.survives_string?.orElse (hrel "rmt" (by simp)) hrmt
  have himt' := Tree.survives_string?.orElse (hrel "imt" (by simp)) himt
  have hcort' := Tree.survives_string?.orElse (hrel "cort" (by simp)) hcort
  have hpsrt' := Tree.survives_string?.orElse (hrel "psrt" (by simp)) hpsrt
  have hamls' := Tree.survives_string?.nullable.orElse (hrel "amls" (by simp)) hamls
  have hamlv' := Tree.survives_string?.nullable.orElse (hrel "amlv" (by simp)) hamlv
  simp only [ofTree?, hagain, hrmt', himt', hcort', hpsrt', hamls', hamlv', Option.bind_eq_bind,
    Option.bind_some]
  exact hx

namespace Rpc

lemma fields?_append {names more : List String} {fs : Tree.Fields} {v : Value} (hv : v.IsMap)
    (h : v.toTree.fields? names = some fs)
    (hmore : ∀ name ∈ more, name ∉ names ∧ member? v name = none) :
    ∃ gs, v.toTree.fields? (names ++ more) = some gs ∧ (∀ name ∈ names, gs name = fs name) ∧
      ∀ name ∈ more, gs name = none := by
  cases hv with
  | @array es _ =>
    rw [Value.toTree, Value.toTrees_eq_map, Tree.fields?] at h ⊢
    split_ifs at h with hlength
    obtain rfl := Option.some.inj h
    -- an array is read by position, and it is no longer than the first names
    refine ⟨_, if_pos (by rw [List.length_append]; omega), fun name hname => ?_, fun name hname => ?_⟩
    · rw [List.idxOf_append_of_mem hname]
    · have hpast : (es.map Value.toTree).length ≤ (names ++ more).idxOf name := by
        rw [List.idxOf_append_of_notMem (hmore name hname).1]
        omega
      exact List.getElem?_eq_none hpast
  | @object ms hms _ =>
    obtain rfl := Option.some.inj ((hms.fields? names).symm.trans h)
    refine ⟨_, hms.fields? _, fun _ _ => rfl, fun name hname => ?_⟩
    have hnone : ms.get? name = none := (hmore name hname).2
    rw [hnone, Option.map_none]
  | _ => cases h

lemma params_of_request {bs : Bytes} {request : Request} {params : Value}
    (hrequest : Request.read? bs = some request) (hparams : Value.read? bs = some params)
    (hnow : member? params "now" = none) :
    VerifyParams.ofTree? params.toTree = some ⟨request.tokens, none⟩ := by
  obtain ⟨t, ht, hrequest⟩ := Option.bind_eq_some_iff.1 hrequest
  obtain ⟨t', ht', hvalue⟩ := Option.bind_eq_some_iff.1 hparams
  obtain rfl : t = t' := Option.some.inj (ht.symm.trans ht')
  have hrestated : t.IsRestatedBy params.toTree := by
    have hnumbers : params.AllNumbers fun n => some n = some n :=
      (Value.isRegular_of_read? hparams).allNumbers.imp fun _ _ => rfl
    exact ⟨_, params, some, hvalue, (Value.treeWith_eq_toTree hnumbers).symm⟩
  obtain ⟨fs, hfs, hrequest⟩ := Option.bind_eq_some_iff.1 hrequest
  obtain ⟨tokens, htokens, hrequest⟩ := Option.bind_eq_some_iff.1 hrequest
  obtain rfl : (⟨tokens⟩ : Request) = request := Option.some.inj hrequest
  obtain ⟨gs, hgs, hrel⟩ := hrestated.fields? hfs
  have hmore : ∀ name ∈ ["now"], name ∉ ["tokens"] ∧ member? params name = none := by simpa using hnow
  obtain ⟨again, hagain, hsame, hnone⟩ := fields?_append (Value.isMap_of_read? hparams) hgs hmore
  have htokens' : Tree.orElse TokenSet.empty TokenSet.ofTree? (again "tokens") = some tokens := by
    rw [hsame "tokens" (by simp)]
    exact TokenSet.survives_ofTree?.orElse (hrel "tokens" (by simp)) htokens
  have hnow' : Tree.orElse none (Tree.nullable Tree.string?) (again "now") = some none := by
    rw [hnone "now" (by simp)]
    rfl
  rw [VerifyParams.ofTree?, show ["tokens", "now"] = ["tokens"] ++ ["now"] from rfl, hagain]
  simp [htokens', hnow']

end Rpc

namespace Command

variable {c : Context} {args : List String} {i : Invocation} {settings : Settings} {s : Service}
  {path : String} {bs : Bytes} {request : Request} {now : Instant}

def bundleText (c : Context) (path : String) : Except String Bytes :=
  if isInput path then .ok c.input else readFile c path

lemma readBundle_of_read? (htext : bundleText c path = .ok bs)
    (hrequest : Request.read? bs = some request) :
    readBundle c (.file path) = .ok request := by
  rw [bundleText] at htext
  rw [readBundle]
  split_ifs at htext ⊢
  · obtain rfl := Except.ok.inj htext
    simp only [pure_bind, hrequest]
    rfl
  · simp only [htext, Sequence.ok_bind, hrequest]
    rfl

lemma now_of_openWith {t : FileTree} (h : Service.openWith t settings = .ok s)
    (hfixed : settings.fixedTime = some now) (clock : Instant) : s.now clock = now := by
  obtain ⟨snapshot, k, -, -, rfl⟩ := Service.openWith_eq_ok_iff.1 h
  change settings.fixedTime.getD clock = now
  rw [hfixed, Option.getD_some]

lemma Opens.run_verify (h : Opens c args i settings) (hi : i.action = .verify (.file path) true)
    (hnow : settings.fixedTime = some now) (htext : bundleText c path = .ok bs)
    (hrequest : Request.read? bs = some request)
    (hopen : Service.openWith c.world.files settings = .ok s) :
    run c args = (verifyReport s now request true i.verbose).outcome := by
  have hclock := now_of_openWith hopen hnow c.world.clock
  rw [h.run_eq hopen, serviceReport, hi]
  simp only [readBundle_of_read? htext hrequest, hclock]

lemma within_eq_ok_iff {α : Type} {what : String} {x : Except Fault α} {a : α} :
    within what x = .ok a ↔ x = .ok a := by
  cases x <;> simp [within]

lemma loadSettings_of_label {loading : String} {o : RegistryOptions}
    (h : loadSettings c loading o = .ok settings) (other : String) :
    loadSettings c other o = .ok settings := by
  obtain ⟨base, hbase, hrest⟩ := Sequence.bind_eq_ok_iff.1 h
  exact Sequence.bind_eq_ok_iff.2 ⟨base, within_eq_ok_iff.2 (within_eq_ok_iff.1 hbase), hrest⟩

lemma Opens.startServer_eq (h : Opens c args i settings) {j : ServerInvocation}
    (hoptions : j.options = i.options) (hepoch : j.initialEpoch = none) (haddress : j.baseAddress = none)
    (hopen : Service.openWith c.world.files settings = .ok s) : startServer c j = .ok s := by
  have hload := loadSettings_of_label h.settings "failed to load registry configuration"
  have hsettings : serverSettings c j = .ok settings := by
    rw [serverSettings, hoptions, hload, Sequence.ok_bind, hepoch, haddress]
    rfl
  rw [startServer, hsettings, Sequence.ok_bind, openService, hopen, within]

lemma outcome_verifyReport (s : Service) (now : Instant) (request : Request) (verbose : Bool) :
    ∃ details, (verifyReport s now request true verbose).outcome.output =
        (s.verify request now).toJson.indented :: details ∧ (verbose = false → details = []) ∧
      ((verifyReport s now request true verbose).outcome.exit = 0 ↔
        (s.verify request now).valid = true) := by
  rw [verifyReport, Report.outcome]
  cases (s.verify request now).valid <;> exact ⟨_, rfl, by simp +contextual, by simp⟩

/-- A command and a call that are given one text, as a bundle and as a value that names no instant, judge
the same tokens at the time of the settings. What the command prints is what the call is answered with,
and the command ends well exactly when the verdict is valid. -/
theorem verdicts_agree {params : Value} (h : Opens c args i settings)
    (hi : i.action = .verify (.file path) true) (hfixed : settings.fixedTime = some now)
    (htext : bundleText c path = .ok bs) (hrequest : Request.read? bs = some request)
    (hparams : Value.read? bs = some params) (hnow : Rpc.member? params "now" = none)
    (hopen : Service.openWith c.world.files settings = .ok s) :
    let verdict := s.verify request now
    Rpc.VerifyParams.ofTree? params.toTree = some ⟨request.tokens, none⟩ ∧
      (∀ w q, Rpc.method? q = some "verify" → Rpc.member? q "params" = some params →
        Rpc.handle w s q = (Rpc.respond (Rpc.idOf q) (.ok verdict.toJson.normalize), s)) ∧
      (∀ j : ServerInvocation, j.options = i.options → j.initialEpoch = none → j.baseAddress = none →
        startServer c j = .ok s) ∧
      (∃ details, (run c args).output = verdict.toJson.indented :: details ∧
        (i.verbose = false → details = [])) ∧
      Value.read? (Utf8.ofString verdict.toJson.indented) = some verdict.toJson.normalize ∧
      Verdict.ofTree? verdict.toJson.normalize.toTree = some verdict ∧
      ((run c args).exit = 0 ↔ verdict.valid = true) := by
  intro verdict
  have hdecoded := Rpc.params_of_request hrequest hparams hnow
  obtain ⟨details, hprinted, hquiet, hexit⟩ := outcome_verifyReport s now request i.verbose
  have hindented : verdict.toJson.indented ∈ Seal.texts verdict.toJson := by simp [Seal.texts]
  rw [h.run_verify hi hfixed htext hrequest hopen]
  refine ⟨hdecoded, fun w q hmethod hgiven => ?_,
    fun j hoptions hepoch haddress => h.startServer_eq hoptions hepoch haddress hopen,
    ⟨details, hprinted, hquiet⟩, Verdict.value_of_mem_texts hindented, verdict.ofTree?_normalize, hexit⟩
  have hq : Rpc.paramsOf q = params := by rw [Rpc.paramsOf, hgiven, Option.getD_some]
  have hclock := now_of_openWith hopen hfixed w.clock
  have hcall : Rpc.verify w s params = .ok verdict.toJson.normalize := by
    rw [Rpc.verify, hdecoded]
    simp only [Rpc.instant, hclock, Sequence.ok_bind]
    rfl
  rw [Rpc.handle_of_method hmethod, hq]
  change (Rpc.respond _ (Rpc.verify w s params), s) = _
  rw [hcall]

def listedText : Bytes := Utf8.ofString "\x7b\"x\":1,\"tokens\":[\"u\",\"u\"],\"x\":[]\x7d"

def listedContext : Context :=
  ⟨⟨Service.singleFiles, ⟨0, 0⟩⟩, fun _ => none, listedText, []⟩

def listedArguments : List String :=
  ["verify", "--request", "-", "--json", "--manifest", "m.json", "--fixed-time", "2025-12-01T00:00:00Z"]

def listedInvocation : Invocation :=
  ⟨⟨none, none, some "m.json", none, some "2025-12-01T00:00:00Z"⟩, false, .verify (.file "-") true⟩

def listedSettings : Settings := { Service.singleSettings with fixedTime := some ⟨1764547200, 0⟩ }

def listedRequest : Request := ⟨⟨"u", "u", "", "", none, none⟩⟩

theorem listed_bundle_judged :
    ∃ s, startServer listedContext ⟨listedInvocation.options, none, none⟩ = .ok s ∧
      (run listedContext listedArguments).exit ≠ 0 := by
  have hopens : Opens listedContext listedArguments listedInvocation listedSettings :=
    ⟨by decide +kernel, by decide +kernel, by simp [listedInvocation], by simp [listedInvocation]⟩
  have hopen : (Service.openWith listedContext.world.files listedSettings).toBool = true := by
    decide +kernel
  have hrequest : Request.read? listedText = some listedRequest := by decide +kernel
  have hread : (Value.read? listedText).any (fun v => (Rpc.member? v "now").isNone) = true := by
    decide +kernel
  obtain ⟨params, hparams, hnow⟩ := (Option.any_eq_true _ _).1 hread
  obtain ⟨s, h⟩ := Sequence.exists_of_toBool hopen
  obtain ⟨-, -, hstart, -, -, -, hexit⟩ :=
    verdicts_agree hopens rfl rfl (by decide +kernel) hrequest hparams (by simpa using hnow) h
  have hpresence : Judgement.checkPresence listedRequest.tokens = .error (.missing .cort) := by decide
  have hrejected : (s.verify listedRequest ⟨1764547200, 0⟩).valid = false := by
    rw [Service.verify, Judgement.judge, Judgement.check, hpresence]
    rfl
  refine ⟨s, hstart _ rfl rfl rfl, fun hzero => ?_⟩
  rw [hexit.1 hzero] at hrejected
  cases hrejected

end Command

end CorridorTrust
