import CorridorTrust.Proofs.Service.Reloading

/-!
Answers to calls. A response repeats the id of its call and holds either a result or an error, whose code
tells what was wrong with the call or which kind of fault the service met. Counting up and reloading are
all that calls can do to a service, and a call that is answered with an error does nothing.
-/

namespace CorridorTrust.Rpc

open Json (Value)
open Time (Instant)

def methods : List String :=
  ["ping", "healthz", "verify", "revocations/get", "revocations/bump", "tokens/get", "tokens/lookup",
    "catalog", "jwks", "registry/reload"]

def idOf (q : Value) : Value := (member? q "id").getD .null

def method? (q : Value) : Option String := (member? q "method").bind Value.string?

def paramsOf (q : Value) : Value := (member? q "params").getD (.object [])

section Calls

variable (w : World) (s : Service) (q : Value)

inductive Meets : Fault → Prop
  | token {uri : String} {fault : Fault} (hmethod : method? q = some "tokens/get")
      (hparams : uriOfTree? (paramsOf q).toTree = some uri) (h : s.get uri = .error fault) : Meets fault
  | named {tag slug : String} {fault : Fault} (hmethod : method? q = some "tokens/lookup")
      (hparams : nameOfTree? (paramsOf q).toTree = some (tag, slug))
      (h : s.getNamed tag slug = .error fault) : Meets fault
  | reload {fault : Fault} (hmethod : method? q = some "registry/reload")
      (h : s.reload w.files = .error fault) : Meets fault

inductive Corrupt : Prop
  | token {uri : String} {bs : Bytes} (hmethod : method? q = some "tokens/get")
      (hparams : uriOfTree? (paramsOf q).toTree = some uri) (h : s.get uri = .ok bs)
      (hread : Value.read? bs = none)
  | named {tag slug : String} {bs : Bytes} (hmethod : method? q = some "tokens/lookup")
      (hparams : nameOfTree? (paramsOf q).toTree = some (tag, slug))
      (h : s.getNamed tag slug = .ok bs) (hread : Value.read? bs = none)

inductive Unreadable : Prop
  | token (hmethod : method? q = some "tokens/get") (h : uriOfTree? (paramsOf q).toTree = none)
  | named (hmethod : method? q = some "tokens/lookup") (h : nameOfTree? (paramsOf q).toTree = none)

inductive Untimely : Fault → Prop
  | verify {p : VerifyParams} {text : String} {fault : Fault} (hmethod : method? q = some "verify")
      (hparams : VerifyParams.ofTree? (paramsOf q).toTree = some p) (h : p.now = some text)
      (hblank : Text.isBlankText text = false) (hparse : Instant.parse (Text.trim text) = .error fault) :
      Untimely fault

inductive AsksFor (clock : Instant) (p : VerifyParams) : Instant → Prop
  | unset (h : p.now = none) : AsksFor clock p (s.now clock)
  | blank {text : String} (h : p.now = some text) (hblank : Text.isBlankText text = true) :
      AsksFor clock p (s.now clock)
  | given {text : String} {t : Instant} (h : p.now = some text) (hblank : Text.isBlankText text = false)
      (hparse : Instant.parse (Text.trim text) = .ok t) : AsksFor clock p t

inductive Fails : Failure → Prop
  | noMethod (h : method? q = none) : Fails .noMethod
  | unknownMethod {name : String} (h : method? q = some name) (hname : name ∉ methods) :
      Fails (.unknownMethod name)
  | badParams (h : Unreadable q) : Fails .badParams
  | badTime {fault : Fault} (h : Untimely q fault) : Fails (.badTime fault)
  | refused {fault : Fault} (h : Meets w s q fault) : Fails (.refused fault)
  | badPayload (h : Corrupt s q) : Fails .badPayload

end Calls

section Failures

variable {w : World} {s : Service} {q params : Value} {failure : Failure}

lemma payload_eq_error_iff {x : Except Fault Bytes} : payload x = .error failure ↔
    (∃ fault, x = .error fault ∧ failure = .refused fault) ∨
      ∃ bs, x = .ok bs ∧ Value.read? bs = none ∧ failure = .badPayload := by
  cases x with
  | error fault => simp [payload, eq_comm]
  | ok bs => cases h : Value.read? bs <;> simp [payload, h, eq_comm]

lemma tokensGet_eq_error_iff : tokensGet s params = .error failure ↔
    (uriOfTree? params.toTree = none ∧ failure = .badParams) ∨
      ∃ uri, uriOfTree? params.toTree = some uri ∧ payload (s.get uri) = .error failure := by
  rw [tokensGet]
  cases uriOfTree? params.toTree <;> simp [eq_comm]

lemma tokensLookup_eq_error_iff : tokensLookup s params = .error failure ↔
    (nameOfTree? params.toTree = none ∧ failure = .badParams) ∨
      ∃ tag slug, nameOfTree? params.toTree = some (tag, slug) ∧
        payload (s.getNamed tag slug) = .error failure := by
  rw [tokensLookup]
  cases nameOfTree? params.toTree with
  | none => simp [eq_comm]
  | some name =>
    constructor
    · exact fun h => .inr ⟨name.1, name.2, rfl, h⟩
    · rintro (⟨⟨⟩, -⟩ | ⟨_, _, ⟨⟩, h⟩)
      exact h

lemma reload_fst_eq_error_iff : (reload w s).1 = .error failure ↔
    ∃ fault, s.reload w.files = .error fault ∧ failure = .refused fault := by
  rw [reload]
  cases s.reload w.files <;> simp [eq_comm]

lemma Untimely.method {fault : Fault} (h : Untimely q fault) : method? q = some "verify" := by
  cases h with
  | verify h => exact h

lemma AsksFor.instant_eq {clock now : Instant} {p : VerifyParams} (h : AsksFor s clock p now) :
    instant s clock p.now = .ok now := by
  cases h with
  | unset h => rw [h, instant]
  | blank h hblank => simp [h, instant, hblank]
  | given h hblank hparse => simp [h, instant, hblank, hparse]

lemma exists_asksFor_or_untimely (hmethod : method? q = some "verify") {p : VerifyParams}
    (hparams : VerifyParams.ofTree? (paramsOf q).toTree = some p) (s : Service) (clock : Instant) :
    (∃ now, AsksFor s clock p now) ∨
      ∃ fault, Untimely q fault ∧ instant s clock p.now = .error (.badTime fault) := by
  cases hnow : p.now with
  | none => exact .inl ⟨_, .unset hnow⟩
  | some text =>
    cases hblank : Text.isBlankText text with
    | true => exact .inl ⟨_, .blank hnow hblank⟩
    | false =>
      cases hparse : Instant.parse (Text.trim text) with
      | ok t => exact .inl ⟨t, .given hnow hblank hparse⟩
      | error fault =>
        exact .inr ⟨fault, ⟨hmethod, hparams, hnow, hblank, hparse⟩, by simp [instant, hblank, hparse]⟩

lemma verify_of_undecoded (h : VerifyParams.ofTree? params.toTree = none) :
    verify w s params = .ok (Verdict.rejected .invalidRequest s.epoch).toJson.normalize := by
  rw [verify, h]

lemma verify_of_asksFor {p : VerifyParams} {now : Instant}
    (h : VerifyParams.ofTree? params.toTree = some p) (hnow : AsksFor s w.clock p now) :
    verify w s params = .ok (s.verify ⟨p.tokens⟩ now).toJson.normalize := by
  simp [verify, h, hnow.instant_eq, pure, Except.pure]

lemma verify_eq_error_iff (hmethod : method? q = some "verify") :
    verify w s (paramsOf q) = .error failure ↔ ∃ fault, Untimely q fault ∧ failure = .badTime fault := by
  constructor
  · intro h
    cases hparams : VerifyParams.ofTree? (paramsOf q).toTree with
    | none =>
      rw [verify_of_undecoded hparams] at h
      cases h
    | some p =>
      rcases exists_asksFor_or_untimely hmethod hparams s w.clock with ⟨now, hnow⟩ | ⟨fault, hfault, hinstant⟩
      · rw [verify_of_asksFor hparams hnow] at h
        cases h
      · rw [verify, hparams] at h
        simp only [hinstant, Sequence.error_bind] at h
        exact ⟨fault, hfault, (Except.error.inj h).symm⟩
  · rintro ⟨fault, ⟨-, hparams, hnow, hblank, hparse⟩, rfl⟩
    simp [verify, hparams, instant, hnow, hblank, hparse]

lemma call_of_notMem {name : String} (h : name ∉ methods) :
    call w s name params = (.error (.unknownMethod name), s) := by
  unfold call
  split
  case h_11 => rfl
  all_goals exact absurd (by decide) h

lemma fails_of_call {name : String} (hmethod : method? q = some name)
    (h : (call w s name (paramsOf q)).1 = .error failure) : Fails w s q failure := by
  unfold call at h
  split at h
  case h_3 =>
    obtain ⟨fault, hfault, rfl⟩ := (verify_eq_error_iff hmethod).1 h
    exact .badTime hfault
  case h_6 =>
    rcases tokensGet_eq_error_iff.1 h with ⟨hparams, rfl⟩ | ⟨uri, hparams, hpayload⟩
    · exact .badParams (.token hmethod hparams)
    · rcases payload_eq_error_iff.1 hpayload with ⟨fault, hfault, rfl⟩ | ⟨bs, hbs, hread, rfl⟩
      · exact .refused (.token hmethod hparams hfault)
      · exact .badPayload (.token hmethod hparams hbs hread)
  case h_7 =>
    rcases tokensLookup_eq_error_iff.1 h with ⟨hparams, rfl⟩ | ⟨tag, slug, hparams, hpayload⟩
    · exact .badParams (.named hmethod hparams)
    · rcases payload_eq_error_iff.1 hpayload with ⟨fault, hfault, rfl⟩ | ⟨bs, hbs, hread, rfl⟩
      · exact .refused (.named hmethod hparams hfault)
      · exact .badPayload (.named hmethod hparams hbs hread)
  case h_10 =>
    obtain ⟨fault, hfault, rfl⟩ := reload_fst_eq_error_iff.1 h
    exact .refused (.reload hmethod hfault)
  case h_11 =>
    obtain rfl : .unknownMethod name = failure := Except.error.inj h
    exact .unknownMethod hmethod (by simp_all [methods])
  all_goals cases h

lemma call_eq_error_iff {name : String} (hmethod : method? q = some name) :
    (call w s name (paramsOf q)).1 = .error failure ↔ Fails w s q failure := by
  refine ⟨fails_of_call hmethod, fun h => ?_⟩
  have hname {other : String} (h : method? q = some other) : name = other := by simpa [hmethod] using h
  cases h with
  | noMethod h => simp [hmethod] at h
  | unknownMethod h hnot =>
    obtain rfl := hname h
    rw [call_of_notMem hnot]
  | badParams h =>
    cases h with
    | token h hparams =>
      obtain rfl := hname h
      exact tokensGet_eq_error_iff.2 (.inl ⟨hparams, rfl⟩)
    | named h hparams =>
      obtain rfl := hname h
      exact tokensLookup_eq_error_iff.2 (.inl ⟨hparams, rfl⟩)
  | badTime h =>
    obtain rfl := hname h.method
    exact (verify_eq_error_iff hmethod).2 ⟨_, h, rfl⟩
  | refused h =>
    cases h with
    | token h hparams hfault =>
      obtain rfl := hname h
      exact tokensGet_eq_error_iff.2 (.inr ⟨_, hparams, payload_eq_error_iff.2 (.inl ⟨_, hfault, rfl⟩)⟩)
    | named h hparams hfault =>
      obtain rfl := hname h
      exact tokensLookup_eq_error_iff.2
        (.inr ⟨_, _, hparams, payload_eq_error_iff.2 (.inl ⟨_, hfault, rfl⟩)⟩)
    | reload h hfault =>
      obtain rfl := hname h
      exact reload_fst_eq_error_iff.2 ⟨_, hfault, rfl⟩
  | badPayload h =>
    cases h with
    | token h hparams hbs hread =>
      obtain rfl := hname h
      exact tokensGet_eq_error_iff.2
        (.inr ⟨_, hparams, payload_eq_error_iff.2 (.inr ⟨_, hbs, hread, rfl⟩)⟩)
    | named h hparams hbs hread =>
      obtain rfl := hname h
      exact tokensLookup_eq_error_iff.2
        (.inr ⟨_, _, hparams, payload_eq_error_iff.2 (.inr ⟨_, hbs, hread, rfl⟩)⟩)

lemma call_snd_of_ne {name : String} (hbump : name ≠ "revocations/bump")
    (hreload : name ≠ "registry/reload") : (call w s name params).2 = s := by
  unfold call
  split
  case h_5 => exact absurd rfl hbump
  case h_10 => exact absurd rfl hreload
  all_goals rfl

lemma call_snd_of_error {name : String} (h : (call w s name params).1 = .error failure) :
    (call w s name params).2 = s := by
  unfold call at h ⊢
  split at h
  case h_5 => cases h
  case h_10 =>
    obtain ⟨fault, hfault, -⟩ := reload_fst_eq_error_iff.1 h
    simp [reload, hfault]
  all_goals simp

end Failures

section Responses

variable (response id : Value)

def HasResult (result : Value) : Prop :=
  response = .object [("id", id), ("jsonrpc", .string "2.0"), ("result", result)]

def HasError (code : ℤ) : Prop :=
  ∃ message, response = .object [
    ("error", .object [("code", .number (.integer code)), ("message", .string message)]),
    ("id", id), ("jsonrpc", .string "2.0")]

structure Answers (w : World) (s : Service) (q response : Value) (next : Service) : Prop where
  form : (∃ result, HasResult response (idOf q) result) ∨ ∃ code, HasError response (idOf q) code
  code : ∀ code, HasError response (idOf q) code → code ∈ [-32600, -32601, -32004, -32602, -32603]
  noMethod : HasError response (idOf q) (-32600) ↔ method? q = none
  unknownMethod : HasError response (idOf q) (-32601) ↔ ∃ name, method? q = some name ∧ name ∉ methods
  notFound : HasError response (idOf q) (-32004) ↔ ∃ what, Meets w s q (.notFound what)
  invalid : HasError response (idOf q) (-32602) ↔ (∃ cause, Meets w s q (.invalidIdentifier cause)) ∨
    Unreadable q ∨ ∃ fault, Untimely q fault
  internal : HasError response (idOf q) (-32603) ↔ Corrupt s q ∨ ∃ fault, Meets w s q fault ∧
    (∀ what, fault ≠ .notFound what) ∧ ∀ cause, fault ≠ .invalidIdentifier cause
  undecoded : method? q = some "verify" → VerifyParams.ofTree? (paramsOf q).toTree = none →
    HasResult response (idOf q) (Verdict.rejected .invalidRequest s.epoch).toJson.normalize
  judged : method? q = some "verify" → ∀ p now, VerifyParams.ofTree? (paramsOf q).toTree = some p →
    AsksFor s w.clock p now →
    HasResult response (idOf q) (s.verify ⟨p.tokens⟩ now).toJson.normalize
  verdict : method? q = some "verify" → (∀ fault, ¬Untimely q fault) →
    ∃ v : Verdict, HasResult response (idOf q) v.toJson.normalize
  bumped : method? q = some "revocations/bump" → next = { s with epoch := s.epoch.bump }
  reloaded : method? q = some "registry/reload" → ∀ result, HasResult response (idOf q) result →
    ∃ snapshot, s.settings.loadSnapshot w.files = .ok snapshot ∧ next = { s with snapshot := snapshot } ∧
      result = .object [("registrySnapshotId", .string snapshot.id)]
  unchanged : method? q ≠ some "revocations/bump" → method? q ≠ some "registry/reload" → next = s
  failed : ∀ code, HasError response (idOf q) code → next = s

end Responses

section Handling

variable {w : World} {s : Service} {q : Value}

lemma handle_of_method {name : String} (h : method? q = some name) : handle w s q =
    (respond (idOf q) (call w s name (paramsOf q)).1, (call w s name (paramsOf q)).2) := by
  rw [method?] at h
  rw [handle, h]
  rfl

lemma handle_of_noMethod (h : method? q = none) :
    handle w s q = (respond (idOf q) (.error .noMethod), s) := by
  rw [method?] at h
  rw [handle, h]
  rfl

lemma hasResult_respond {id result : Value} {answer : Answer} :
    HasResult (respond id answer) id result ↔ answer = .ok result := by
  cases answer <;> simp [HasResult, respond]

lemma hasError_respond {id : Value} {answer : Answer} {code : ℤ} :
    HasError (respond id answer) id code ↔ ∃ failure, answer = .error failure ∧ failure.code = code := by
  cases answer <;> simp [HasError, respond]

lemma fails_iff_of_noMethod (h : method? q = none) {failure : Failure} :
    Fails w s q failure ↔ failure = .noMethod := by
  have hnot {name : String} : method? q ≠ some name := by simp [h]
  constructor
  · intro hfails
    cases hfails with
    | noMethod => rfl
    | unknownMethod hmethod => exact absurd hmethod hnot
    | badTime hfault => exact absurd hfault.method hnot
    | badParams hparams => cases hparams <;> exact absurd ‹_› hnot
    | refused hfault => cases hfault <;> exact absurd ‹method? q = _› hnot
    | badPayload hcorrupt => cases hcorrupt <;> exact absurd ‹method? q = _› hnot
  · rintro rfl
    exact .noMethod h

lemma hasError_handle {code : ℤ} : HasError (handle w s q).1 (idOf q) code ↔
    ∃ failure, Fails w s q failure ∧ failure.code = code := by
  cases hmethod : method? q with
  | none =>
    rw [handle_of_noMethod hmethod, hasError_respond]
    simp only [fails_iff_of_noMethod hmethod, Except.error.injEq, eq_comm]
  | some name =>
    rw [handle_of_method hmethod, hasError_respond]
    simp only [call_eq_error_iff hmethod]

lemma hasError_handle_iff {code : ℤ} : HasError (handle w s q).1 (idOf q) code ↔
    (code = -32600 ∧ method? q = none) ∨
      (code = -32601 ∧ ∃ name, method? q = some name ∧ name ∉ methods) ∨
      (code = -32004 ∧ ∃ what, Meets w s q (.notFound what)) ∨
      (code = -32602 ∧ ((∃ cause, Meets w s q (.invalidIdentifier cause)) ∨ Unreadable q ∨
        ∃ fault, Untimely q fault)) ∨
      (code = -32603 ∧ (Corrupt s q ∨ ∃ fault, Meets w s q fault ∧ (∀ what, fault ≠ .notFound what) ∧
        ∀ cause, fault ≠ .invalidIdentifier cause)) := by
  rw [hasError_handle]
  constructor
  · rintro ⟨failure, hfails, rfl⟩
    cases hfails with
    | noMethod h => exact .inl ⟨rfl, h⟩
    | unknownMethod h hname => exact .inr (.inl ⟨rfl, _, h, hname⟩)
    | badParams h => exact .inr (.inr (.inr (.inl ⟨rfl, .inr (.inl h)⟩)))
    | badTime h => exact .inr (.inr (.inr (.inl ⟨rfl, .inr (.inr ⟨_, h⟩)⟩)))
    | badPayload h => exact .inr (.inr (.inr (.inr ⟨rfl, .inl h⟩)))
    | @refused fault h =>
      cases fault with
      | notFound what => exact .inr (.inr (.inl ⟨rfl, what, h⟩))
      | invalidIdentifier cause => exact .inr (.inr (.inr (.inl ⟨rfl, .inl ⟨cause, h⟩⟩)))
      | _ => exact .inr (.inr (.inr (.inr ⟨rfl, .inr ⟨_, h, nofun, nofun⟩⟩)))
  · rintro (⟨rfl, h⟩ | ⟨rfl, name, h, hname⟩ | ⟨rfl, what, h⟩ | ⟨rfl, ⟨cause, h⟩ | h | ⟨fault, h⟩⟩ |
      ⟨rfl, h | ⟨fault, h, hfound, hvalid⟩⟩)
    · exact ⟨_, .noMethod h, rfl⟩
    · exact ⟨_, .unknownMethod h hname, rfl⟩
    · exact ⟨_, .refused h, rfl⟩
    · exact ⟨_, .refused h, rfl⟩
    · exact ⟨_, .badParams h, rfl⟩
    · exact ⟨_, .badTime h, rfl⟩
    · exact ⟨_, .badPayload h, rfl⟩
    · refine ⟨_, .refused h, ?_⟩
      cases fault with
      | notFound what => exact absurd rfl (hfound what)
      | invalidIdentifier cause => exact absurd rfl (hvalid cause)
      | _ => rfl

lemma hasResult_handle {name : String} (hmethod : method? q = some name) {result : Value} :
    HasResult (handle w s q).1 (idOf q) result ↔ (call w s name (paramsOf q)).1 = .ok result := by
  rw [handle_of_method hmethod, hasResult_respond]

theorem handle_answers (w : World) (s : Service) (q : Value) :
    Answers w s q (handle w s q).1 (handle w s q).2 where
  form := by
    cases hmethod : method? q with
    | none => exact .inr ⟨_, hasError_handle.2 ⟨_, .noMethod hmethod, rfl⟩⟩
    | some name =>
      cases hanswer : (call w s name (paramsOf q)).1 with
      | ok result => exact .inl ⟨result, (hasResult_handle hmethod).2 hanswer⟩
      | error failure =>
        exact .inr ⟨_, hasError_handle.2 ⟨failure, (call_eq_error_iff hmethod).1 hanswer, rfl⟩⟩
  code code h := by
    rcases hasError_handle_iff.1 h with ⟨rfl, -⟩ | ⟨rfl, -⟩ | ⟨rfl, -⟩ | ⟨rfl, -⟩ | ⟨rfl, -⟩ <;> decide
  noMethod := by simp [hasError_handle_iff]
  unknownMethod := by simp [hasError_handle_iff]
  notFound := by simp [hasError_handle_iff]
  invalid := by simp [hasError_handle_iff]
  internal := by simp [hasError_handle_iff]
  undecoded hmethod hparams := (hasResult_handle hmethod).2 (verify_of_undecoded hparams)
  judged hmethod p now hparams hnow := (hasResult_handle hmethod).2 (verify_of_asksFor hparams hnow)
  verdict hmethod htimely := by
    cases hparams : VerifyParams.ofTree? (paramsOf q).toTree with
    | none => exact ⟨_, (hasResult_handle hmethod).2 (verify_of_undecoded hparams)⟩
    | some p =>
      rcases exists_asksFor_or_untimely hmethod hparams s w.clock with ⟨now, hnow⟩ | ⟨fault, hfault, -⟩
      · exact ⟨_, (hasResult_handle hmethod).2 (verify_of_asksFor hparams hnow)⟩
      · exact absurd hfault (htimely fault)
  bumped hmethod := by
    rw [handle_of_method hmethod]
    rfl
  reloaded hmethod result h := by
    have hanswer := (hasResult_handle hmethod).1 h
    rw [handle_of_method hmethod]
    change (reload w s).1 = .ok result at hanswer
    change ∃ snapshot, _ ∧ (reload w s).2 = _ ∧ _
    rw [reload, Service.reload_eq] at hanswer ⊢
    cases hload : s.settings.loadSnapshot w.files with
    | error fault => simp [hload, Except.map] at hanswer
    | ok snapshot =>
      refine ⟨snapshot, rfl, rfl, ?_⟩
      simpa [hload, Except.map, eq_comm] using hanswer
  unchanged hbump hreload := by
    cases hmethod : method? q with
    | none => rw [handle_of_noMethod hmethod]
    | some name =>
      rw [handle_of_method hmethod]
      rw [hmethod] at hbump hreload
      exact call_snd_of_ne (by simpa using hbump) (by simpa using hreload)
  failed code h := by
    cases hmethod : method? q with
    | none => rw [handle_of_noMethod hmethod]
    | some name =>
      rw [handle_of_method hmethod] at h ⊢
      obtain ⟨failure, hanswer, -⟩ := hasError_respond.1 h
      exact call_snd_of_error hanswer

end Handling

end CorridorTrust.Rpc
