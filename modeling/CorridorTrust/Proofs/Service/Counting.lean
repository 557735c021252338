import CorridorTrust.Proofs.Json.Restating
import CorridorTrust.Proofs.Service.Answering
import CorridorTrust.Proofs.Service.Interleaving

/-!
Counting the epoch up while any number of clients use a service at once. A bump puts in the successor of
the epoch it has seen only while that is still the epoch, and looks again otherwise; so no bump is lost,
and every epoch that is reported counts the bumps made before.
-/

namespace CorridorTrust

open Json (Value Members)

namespace Service

open Rpc (method? member? idOf paramsOf respond)

namespace Event

def counts : Event → Bool
  | .bump => true
  | .call _ q => method? q == some "revocations/bump"
  | _ => false

def reports : Event → Bool
  | .bump | .verify _ _ => true
  | .call _ q =>
    match method? q with
    | some name => ["healthz", "verify", "revocations/get", "revocations/bump"].contains name
    | none => false
  | _ => false

def IsUntimely : Event → Prop
  | .call _ q => ∃ fault, Rpc.Untimely q fault
  | _ => False

end Event

def Reply.epoch? : Reply → Option ℕ
  | .counted epoch => some epoch.value.toNat
  | .judged verdict => some verdict.epoch.value.toNat
  | .responded response =>
    match (member? response "result").bind (member? · "revEpoch") with
    | some (.number (.integer n)) => n.toNat?
    | _ => none
  | _ => none

def saturated (n : ℕ) : ℕ := min n (2 ^ 64 - 1)

lemma saturated_mono : Monotone saturated := fun _ _ h => min_le_min_right _ h

lemma saturated_succ (n : ℕ) : saturated (saturated n + 1) = saturated (n + 1) := by
  simp only [saturated]
  omega

structure Reports (n : ℕ) (e : Event) (r : Reply) : Prop where
  counted : e.counts = true → r.epoch? = some (saturated (n + 1))
  told : e.counts = false → e.reports = true →
    r.epoch? = some (saturated n) ∨ (r.epoch? = none ∧ e.IsUntimely)

section Replies

variable {t : FileTree} {s : Service} {e : Event} {r : Reply} {n : ℕ} {id result : Value}

lemma toNat_bump_epoch (s : Service) :
    s.bump.epoch.value.toNat = saturated (s.epoch.value.toNat + 1) := by
  have hlt : s.epoch.value.toNat < 2 ^ 64 := s.epoch.value.toNat_lt
  change s.epoch.bump.value.toNat = min (s.epoch.value.toNat + 1) (2 ^ 64 - 1)
  by_cases hceiling : s.epoch.value = Epoch.ceiling
  · have hvalue : s.epoch.value.toNat = 2 ^ 64 - 1 := by rw [hceiling]; rfl
    rw [Epoch.bump_eq_self hceiling]
    omega
  · have hvalue : s.epoch.value.toNat ≠ 2 ^ 64 - 1 := fun h => hceiling (UInt64.toNat_inj.1 h)
    rw [Epoch.toNat_bump hceiling]
    omega

lemma epoch?_responded {value : ℕ} (h : member? result "revEpoch" = some (.ofNat value)) :
    (Reply.responded (respond id (.ok result))).epoch? = some value := by
  have hresult : member? (respond id (.ok result)) "result" = some result := by
    simp [respond, member?, Members.get?, List.lookup]
  rw [Reply.epoch?, hresult, Option.bind_some, h]
  rfl

lemma epoch?_responded_error (failure : Rpc.Failure) :
    (Reply.responded (respond id (.error failure))).epoch? = none := by
  simp [Reply.epoch?, respond, member?, Members.get?, List.lookup]

lemma revEpoch_epochResult (s : Service) :
    member? (Rpc.epochResult s) "revEpoch" = some (.ofNat s.epoch.value.toNat) := by
  simp [Rpc.epochResult, member?, Members.get?]

lemma revEpoch_health (s : Service) :
    member? (Rpc.health s) "revEpoch" = some (.ofNat s.epoch.value.toNat) := by
  simp [Rpc.health, member?, Members.get?, List.lookup]

lemma revEpoch_verdict (v : Verdict) :
    member? v.toJson.normalize "revEpoch" = some (.ofNat v.epoch.value.toNat) := by
  rw [Verdict.toJson, Value.normalize, member?, Value.normalizeMembers_eq_map, Members.get?_ofList]
  by_cases hreason : v.reason = "" <;> simp [hreason, Value.ofNat, Value.normalize]

lemma epoch_verify (s : Service) (request : Request) (now : Time.Instant) :
    (s.verify request now).epoch = s.epoch := by
  rw [verify, Judgement.judge]
  cases Judgement.check _ _ _ _ <;> rfl

lemma epoch?_of_verify {w : Rpc.World} {q : Value} (hmethod : method? q = some "verify") :
    (Reply.responded (respond id (Rpc.verify w s (paramsOf q)))).epoch? = some s.epoch.value.toNat ∨
      ((Reply.responded (respond id (Rpc.verify w s (paramsOf q)))).epoch? = none ∧
        ∃ fault, Rpc.Untimely q fault) := by
  cases hparams : Rpc.VerifyParams.ofTree? (paramsOf q).toTree with
  | none =>
    rw [Rpc.verify_of_undecoded hparams]
    exact .inl (epoch?_responded (revEpoch_verdict _))
  | some p =>
    rcases Rpc.exists_asksFor_or_untimely hmethod hparams s w.clock with
      ⟨now, hnow⟩ | ⟨fault, hfault, -⟩
    · rw [Rpc.verify_of_asksFor hparams hnow, ← epoch_verify s ⟨p.tokens⟩ now]
      exact .inl (epoch?_responded (revEpoch_verdict _))
    · rw [(Rpc.verify_eq_error_iff hmethod).2 ⟨fault, hfault, rfl⟩]
      exact .inr ⟨epoch?_responded_error _, fault, hfault⟩

lemma reports_call {w : Rpc.World} {q : Value} {clock : Time.Instant}
    (hs : s.epoch.value.toNat = saturated n) :
    Reports n (.call clock q) (.responded (Rpc.handle w s q).1) := by
  cases hmethod : method? q with
  | none => constructor <;> simp [Event.counts, Event.reports, hmethod]
  | some name =>
    rw [Rpc.handle_of_method hmethod]
    by_cases hbump : name = "revocations/bump"
    · subst hbump
      have htold : (Reply.responded (respond (idOf q) (.ok (Rpc.epochResult s.bump)))).epoch? =
          some s.bump.epoch.value.toNat := epoch?_responded (revEpoch_epochResult s.bump)
      rw [toNat_bump_epoch, hs, saturated_succ] at htold
      exact ⟨fun _ => htold, by simp [Event.counts, hmethod]⟩
    · refine ⟨by simp [Event.counts, hmethod, hbump], fun _ hreports => ?_⟩
      have hname : name = "healthz" ∨ name = "verify" ∨ name = "revocations/get" := by
        simpa [Event.reports, hmethod, hbump] using hreports
      rw [← hs]
      rcases hname with rfl | rfl | rfl
      · exact .inl (epoch?_responded (revEpoch_health s))
      · exact epoch?_of_verify hmethod
      · exact .inl (epoch?_responded (revEpoch_epochResult s))

lemma reports_of_reply (h : reply? (t, s) e = some r) (hs : s.epoch.value.toNat = saturated n) :
    Reports n e r := by
  cases e with
  | files => cases h
  | bump =>
    obtain rfl := Option.some.inj h
    refine ⟨fun _ => ?_, nofun⟩
    rw [Reply.epoch?, toNat_bump_epoch, hs, saturated_succ]
  | verify request now =>
    obtain rfl := Option.some.inj h
    refine ⟨nofun, fun _ _ => .inl ?_⟩
    rw [Reply.epoch?, epoch_verify, hs]
  | call clock q =>
    obtain rfl := Option.some.inj h
    exact reports_call hs
  | reload | get _ | getNamed _ _ => exact ⟨nofun, fun _ => nofun⟩

lemma epoch_after_of_not_counts (h : e.counts = false) : (after (t, s) e).2.epoch = s.epoch := by
  cases e with
  | bump => cases h
  | reload =>
    cases hload : s.settings.loadSnapshot t with
    | ok snapshot => rw [after_reload_of_ok hload]
    | error fault => rw [after_reload_of_error hload]
  | call clock q =>
    rw [after]
    cases hmethod : method? q with
    | none => rw [Rpc.handle_of_noMethod hmethod]
    | some name =>
      have hbump : name ≠ "revocations/bump" := by
        rintro rfl
        simp [Event.counts, hmethod] at h
      rw [Rpc.handle_of_method hmethod]
      by_cases hreload : name = "registry/reload"
      · subst hreload
        change (Rpc.reload _ _).2.epoch = _
        rw [Rpc.reload, reload_eq]
        cases s.settings.loadSnapshot t <;> rfl
      · rw [Rpc.call_snd_of_ne hbump hreload]
  | _ => rfl

lemma after_of_counts (h : e.counts = true) : (after (t, s) e).2 = s.bump := by
  cases e with
  | bump => rfl
  | call clock q =>
    have hmethod : method? q = some "revocations/bump" := by simpa [Event.counts] using h
    rw [after, Rpc.handle_of_method hmethod]
    rfl
  | _ => cases h

lemma counts_of_reloads (h : e.reloads = true) : e.counts = false := by
  cases e with
  | call clock q =>
    have hmethod : method? q = some "registry/reload" := by simpa [Event.reloads, method?] using h
    simp [Event.counts, hmethod]
  | reload => rfl
  | _ => cases h

lemma after_of_neither (hcounts : e.counts = false) (hreloads : e.reloads = false)
    (h : e.changesFiles = false) : after (t, s) e = (t, s) := by
  cases e with
  | files => cases h
  | reload => cases hreloads
  | bump => cases hcounts
  | call clock q =>
    rw [after]
    cases hmethod : method? q with
    | none => rw [Rpc.handle_of_noMethod hmethod]
    | some name =>
      rw [Rpc.handle_of_method hmethod, Rpc.call_snd_of_ne]
      · rintro rfl
        simp [Event.counts, hmethod] at hcounts
      · rintro rfl
        change (method? q == some "registry/reload") = false at hreloads
        simp [hmethod] at hreloads
  | _ => rfl

end Replies

end Service

namespace Counting

open Service (Event Reply Reports reply? after saturated)

/-- A client that has begun knows the event, the files as they are when it needs them, and the service
as it has last looked at it. -/
inductive Progress where
  | idle
  | begun (e : Event) (t : FileTree) (seen : Service)

structure State where
  service : Service
  clients : ℕ → Progress
  answers : List (Event × Reply)

def State.start (s : Service) : State := ⟨s, fun _ => .idle, []⟩

def State.look (σ : State) (i : ℕ) (e : Event) (t : FileTree) : State :=
  { σ with clients := Function.update σ.clients i (.begun e t σ.service) }

def State.answer (σ : State) (i : ℕ) (e : Event) (r : Reply) (next : Service) : State :=
  ⟨next, Function.update σ.clients i .idle, σ.answers ++ [(e, r)]⟩

/-- Most events are answered from the snapshot that was looked at first and the epoch that is read last.
A reload puts in what it has loaded. A bump exchanges the epoch it has seen for the next one, while it
still is the epoch; an exchange may fail for no reason. -/
inductive Step (σ : State) : State → Prop
  | begin {i : ℕ} (h : σ.clients i = .idle) (e : Event) (t : FileTree) : Step σ (σ.look i e t)
  | answer {i : ℕ} {e : Event} {t : FileTree} {seen : Service} {r : Reply}
      (h : σ.clients i = .begun e t seen) (hcounts : e.counts = false) (hreloads : e.reloads = false)
      (hr : reply? (t, { σ.service with snapshot := seen.snapshot }) e = some r) :
      Step σ (σ.answer i e r σ.service)
  | swap {i : ℕ} {e : Event} {t : FileTree} {seen : Service} {r : Reply}
      (h : σ.clients i = .begun e t seen) (hreloads : e.reloads = true)
      (hr : reply? (t, σ.service) e = some r) : Step σ (σ.answer i e r (after (t, σ.service) e).2)
  | exchange {i : ℕ} {e : Event} {t : FileTree} {seen : Service} {r : Reply}
      (h : σ.clients i = .begun e t seen) (hcounts : e.counts = true)
      (hceiling : seen.epoch.value ≠ Epoch.ceiling) (hcurrent : σ.service.epoch = seen.epoch)
      (hr : reply? (t, σ.service) e = some r) : Step σ (σ.answer i e r σ.service.bump)
  | full {i : ℕ} {e : Event} {t : FileTree} {seen : Service} {r : Reply}
      (h : σ.clients i = .begun e t seen) (hcounts : e.counts = true)
      (hceiling : seen.epoch.value = Epoch.ceiling)
      (hr : reply? (t, { σ.service with epoch := seen.epoch }) e = some r) :
      Step σ (σ.answer i e r σ.service)
  | retry {i : ℕ} {e : Event} {t : FileTree} {seen : Service} (h : σ.clients i = .begun e t seen)
      (hcounts : e.counts = true) : Step σ (σ.look i e t)

def Reaches (s : Service) (σ : State) : Prop := Relation.ReflTransGen Step (.start s) σ

def bumps (answers : List (Event × Reply)) : ℕ := answers.countP fun a => a.1.counts

variable {s : Service} {σ σ' : State} {i n : ℕ} {e : Event} {t : FileTree} {r : Reply}
  {answers : List (Event × Reply)}

lemma bumps_concat (answers : List (Event × Reply)) (e : Event) (r : Reply) :
    bumps (answers ++ [(e, r)]) = bumps answers + if e.counts then 1 else 0 := by
  simp [bumps, List.countP_append, List.countP_singleton]

lemma bumps_take_succ {k : ℕ} (h : answers[k]? = some (e, r)) :
    bumps (answers.take (k + 1)) = bumps (answers.take k) + if e.counts then 1 else 0 := by
  rw [List.take_add_one, h, Option.toList_some, bumps_concat]

lemma bumps_take_mono (answers : List (Event × Reply)) :
    Monotone fun k => bumps (answers.take k) := by
  intro j k hjk
  exact List.Sublist.countP_le (List.take_sublist_take_left hjk)

def Reported (n : ℕ) (answers : List (Event × Reply)) : Prop :=
  ∀ k e r, answers[k]? = some (e, r) → Reports (n + bumps (answers.take k)) e r

lemma reported_concat : Reported n (answers ++ [(e, r)]) ↔
    Reported n answers ∧ Reports (n + bumps answers) e r := by
  constructor
  · intro h
    refine ⟨fun k e' r' hk => ?_, ?_⟩
    · have hlt : k < answers.length := (List.getElem?_eq_some_iff.1 hk).1
      have hreports := h k e' r' (by rw [List.getElem?_append_left hlt, hk])
      rwa [List.take_append_of_le_length hlt.le] at hreports
    · simpa using h answers.length e r (by simp)
  · rintro ⟨hanswers, hlast⟩ k e' r' hk
    rcases Nat.lt_trichotomy k answers.length with hlt | rfl | hgt
    · rw [List.getElem?_append_left hlt] at hk
      rw [List.take_append_of_le_length hlt.le]
      exact hanswers k e' r' hk
    · obtain ⟨rfl, rfl⟩ : e = e' ∧ r = r' := by simpa using hk
      simpa using hlast
    · rw [List.getElem?_eq_none (by simp; omega)] at hk
      cases hk

structure IsConsistent (n : ℕ) (σ : State) : Prop where
  epoch : σ.service.epoch.value.toNat = saturated (n + bumps σ.answers)
  seen : ∀ i e t seen, σ.clients i = .begun e t seen →
    seen.epoch.value.toNat ≤ σ.service.epoch.value.toNat
  reported : Reported n σ.answers

lemma isConsistent_start (s : Service) : IsConsistent s.epoch.value.toNat (.start s) where
  epoch := by
    have hlt : s.epoch.value.toNat < 2 ^ 64 := s.epoch.value.toNat_lt
    change s.epoch.value.toNat = min (s.epoch.value.toNat + 0) (2 ^ 64 - 1)
    omega
  seen i e t seen h := by cases h
  reported k e r h := by simp [State.start] at h

lemma IsConsistent.look (h : IsConsistent n σ) (i : ℕ) (e : Event) (t : FileTree) :
    IsConsistent n (σ.look i e t) where
  epoch := h.epoch
  seen j e' t' seen' hj := by
    by_cases hji : j = i
    · subst hji
      obtain ⟨-, -, rfl⟩ : _ ∧ _ ∧ σ.service = seen' := by simpa [State.look] using hj
      exact le_rfl
    · exact h.seen j e' t' seen' (by simpa [State.look, hji] using hj)
  reported := h.reported

lemma IsConsistent.answer (h : IsConsistent n σ) {next : Service} (i : ℕ)
    (hr : Reports (n + bumps σ.answers) e r)
    (hnext : next.epoch.value.toNat = saturated (n + bumps (σ.answers ++ [(e, r)]))) :
    IsConsistent n (σ.answer i e r next) where
  epoch := hnext
  seen j e' t' seen' hj := by
    by_cases hji : j = i
    · subst hji
      simp [State.answer] at hj
    · have hle := h.seen j e' t' seen' (by simpa [State.answer, hji] using hj)
      have hmono : saturated (n + bumps σ.answers) ≤ saturated (n + bumps (σ.answers ++ [(e, r)])) :=
        Service.saturated_mono (by rw [bumps_concat]; omega)
      exact hle.trans (by rwa [h.epoch, State.answer, hnext])
  reported := reported_concat.2 ⟨h.reported, hr⟩

lemma IsConsistent.step (h : IsConsistent n σ) (hstep : Step σ σ') : IsConsistent n σ' := by
  cases hstep with
  | begin _ e t => exact h.look _ e t
  | retry _ _ => exact h.look _ _ _
  | answer _ hcounts _ hr =>
    refine h.answer _ (Service.reports_of_reply hr h.epoch) ?_
    rw [h.epoch, bumps_concat, hcounts]
    rfl
  | swap _ hreloads hr =>
    have hcounts := Service.counts_of_reloads hreloads
    refine h.answer _ (Service.reports_of_reply hr h.epoch) ?_
    rw [Service.epoch_after_of_not_counts hcounts, h.epoch, bumps_concat, hcounts]
    rfl
  | exchange _ hcounts _ _ hr =>
    refine h.answer _ (Service.reports_of_reply hr h.epoch) ?_
    rw [Service.toNat_bump_epoch, h.epoch, Service.saturated_succ, bumps_concat, hcounts, Nat.add_assoc]
    rfl
  | @full i e t seen r hi hcounts hceiling hr =>
    -- an epoch that was seen at the ceiling is the epoch for ever
    have hvalue : seen.epoch.value.toNat = 2 ^ 64 - 1 := by rw [hceiling]; rfl
    have hle := h.seen i e t seen hi
    have hepoch := h.epoch
    have hseen : seen.epoch.value.toNat = saturated (n + bumps σ.answers) := by
      rw [← hepoch]
      have hlt : σ.service.epoch.value.toNat < 2 ^ 64 := σ.service.epoch.value.toNat_lt
      omega
    refine h.answer _ (Service.reports_of_reply hr hseen) ?_
    rw [bumps_concat, hcounts, ← Nat.add_assoc, hepoch]
    rw [hvalue, saturated] at hseen
    simp only [saturated, if_true]
    omega

lemma Reaches.isConsistent (h : Reaches s σ) : IsConsistent s.epoch.value.toNat σ := by
  induction h with
  | refl => exact isConsistent_start s
  | tail _ hstep ih => exact ih.step hstep

lemma answers_kept_of_step (h : Step σ σ') : σ.answers <+: σ'.answers := by
  cases h with
  | begin | retry => exact List.prefix_rfl
  | answer | swap | exchange | full => exact List.prefix_append _ _

lemma answers_kept (h : Relation.ReflTransGen Step σ σ') : σ.answers <+: σ'.answers := by
  induction h with
  | refl => exact List.prefix_rfl
  | tail _ hstep ih => exact ih.trans (answers_kept_of_step hstep)

lemma epoch_le (h : Reaches s σ) (hlater : Relation.ReflTransGen Step σ σ') :
    σ.service.epoch.value ≤ σ'.service.epoch.value := by
  have hreaches : Reaches s σ' := h.trans hlater
  rw [UInt64.le_iff_toNat_le, h.isConsistent.epoch, hreaches.isConsistent.epoch]
  exact Service.saturated_mono (Nat.add_le_add_left ((answers_kept hlater).sublist.countP_le) _)

lemma Reported.counted (h : Reported n answers) :
    (answers.filter fun a => a.1.counts).map (fun a => a.2.epoch?) =
      (List.range (bumps answers)).map fun k => some (saturated (n + k + 1)) := by
  induction answers using List.reverseRecOn with
  | nil => rfl
  | append_singleton answers a ih =>
    obtain ⟨e, r⟩ := a
    obtain ⟨hanswers, hlast⟩ := reported_concat.1 h
    rw [List.filter_append, List.map_append, ih hanswers, bumps_concat]
    by_cases hcounts : e.counts = true
    · rw [if_pos hcounts, List.range_succ, List.map_append]
      simp [hcounts, hlast.counted hcounts]
    · simp [hcounts]

lemma Reported.epoch?_eq (h : Reported n answers) {k m : ℕ} (hk : answers[k]? = some (e, r))
    (hreports : e.reports = true) (hm : r.epoch? = some m) :
    m = saturated (n + bumps (answers.take (k + 1))) := by
  obtain ⟨hcounted, htold⟩ := h k e r hk
  rw [bumps_take_succ hk]
  by_cases hcounts : e.counts = true
  · rw [hcounted hcounts] at hm
    rw [if_pos hcounts, ← Nat.add_assoc]
    exact (Option.some.inj hm).symm
  · rw [if_neg hcounts]
    rcases htold (by simpa using hcounts) hreports with htold | ⟨htold, -⟩
    · rw [htold] at hm
      exact (Option.some.inj hm).symm
    · rw [htold] at hm
      cases hm

lemma exists_reply (x : FileTree × Service) (h : e.changesFiles = false) :
    ∃ r, reply? x e = some r := by
  cases e with
  | files => cases h
  | _ => exact ⟨_, rfl⟩

lemma step_answer (h : σ.clients i = .begun e t σ.service) (hr : reply? (t, σ.service) e = some r) :
    Step σ (σ.answer i e r (after (t, σ.service) e).2) := by
  by_cases hcounts : e.counts = true
  · rw [Service.after_of_counts hcounts]
    by_cases hceiling : σ.service.epoch.value = Epoch.ceiling
    · have hsame : σ.service.bump = σ.service := by rw [Service.bump, Epoch.bump_eq_self hceiling]
      rw [hsame]
      exact .full h hcounts hceiling hr
    · exact .exchange h hcounts hceiling rfl hr
  · rw [Bool.not_eq_true] at hcounts
    by_cases hreloads : e.reloads = true
    · exact .swap h hreloads hr
    · rw [Bool.not_eq_true] at hreloads
      have hfiles : e.changesFiles = false := by
        cases e with
        | files => cases hr
        | _ => rfl
      rw [Service.after_of_neither hcounts hreloads hfiles]
      exact .answer h hcounts hreloads hr

theorem exists_answered {seen : Service} (h : σ.clients i = .begun e t seen)
    (hfiles : e.changesFiles = false) :
    ∃ σ' r, Relation.ReflTransGen Step σ σ' ∧ σ'.answers = σ.answers ++ [(e, r)] := by
  by_cases hcounts : e.counts = true
  · obtain ⟨r, hr⟩ := exists_reply (t, σ.service) hfiles
    have hbegun : (σ.look i e t).clients i = .begun e t σ.service := by simp [State.look]
    exact ⟨_, r, .tail (.single (.retry h hcounts)) (step_answer hbegun hr), rfl⟩
  · rw [Bool.not_eq_true] at hcounts
    by_cases hreloads : e.reloads = true
    · obtain ⟨r, hr⟩ := exists_reply (t, σ.service) hfiles
      exact ⟨_, r, .single (.swap h hreloads hr), rfl⟩
    · obtain ⟨r, hr⟩ := exists_reply (t, { σ.service with snapshot := seen.snapshot }) hfiles
      exact ⟨_, r, .single (.answer h hcounts (by simpa using hreloads) hr), rfl⟩

lemma exists_undisturbed (hidle : σ.clients i = .idle) (hr : reply? (t, σ.service) e = some r) :
    Relation.ReflTransGen Step σ
      ⟨(after (t, σ.service) e).2, σ.clients, σ.answers ++ [(e, r)]⟩ := by
  have hbegun : (σ.look i e t).clients i = .begun e t σ.service := by simp [State.look]
  have hback : (σ.look i e t).answer i e r (after (t, σ.service) e).2 =
      ⟨(after (t, σ.service) e).2, σ.clients, σ.answers ++ [(e, r)]⟩ := by
    simp [State.look, State.answer, ← hidle]
  rw [← hback]
  exact .tail (.single (.begin hidle e t)) (step_answer hbegun hr)

lemma exists_sequential (hidle : σ.clients i = .idle) (t : FileTree) (events : List Event) :
    ∃ σ', Relation.ReflTransGen Step σ σ' ∧ σ'.service = (Service.run (t, σ.service) events).2 ∧
      σ'.answers.map Prod.snd = σ.answers.map Prod.snd ++ Service.replies (t, σ.service) events := by
  induction events generalizing σ t with
  | nil => exact ⟨σ, .refl, rfl, by simp [Service.replies]⟩
  | cons e events ih =>
    rw [Service.run, List.foldl_cons, Service.replies]
    cases hr : reply? (t, σ.service) e with
    | none =>
      obtain ⟨t', rfl⟩ : ∃ t', e = .files t' := by cases e <;> first | exact ⟨_, rfl⟩ | cases hr
      exact ih hidle t'
    | some r =>
      have hnext : State.clients
          ⟨(after (t, σ.service) e).2, σ.clients, σ.answers ++ [(e, r)]⟩ i = .idle := hidle
      obtain ⟨σ', hsteps, hservice, hanswers⟩ := ih hnext (after (t, σ.service) e).1
      refine ⟨σ', (exists_undisturbed hidle hr).trans hsteps, hservice, ?_⟩
      rw [hanswers, List.map_append, List.append_assoc]
      rfl

theorem exists_reaches_run (s : Service) (t : FileTree) (events : List Event) :
    ∃ σ, Reaches s σ ∧ σ.service = (Service.run (t, s) events).2 ∧
      σ.answers.map Prod.snd = Service.replies (t, s) events := by
  have hidle : (State.start s).clients 0 = .idle := rfl
  exact exists_sequential hidle t events

/-- The epoch counts the bumps from where the service was opened up to the ceiling. Each bump returns its
own number, everything else that tells the epoch tells how many bumps were answered before, and neither
the epoch nor what is told of it ever goes back. -/
theorem epoch_of_run (h : Reaches s σ) :
    let first := s.epoch.value.toNat
    (∀ t settings, Service.openWith t settings = .ok s → s.epoch.value = settings.initialEpoch) ∧
    σ.service.epoch.value.toNat = saturated (first + bumps σ.answers) ∧
    (∀ k e r, σ.answers[k]? = some (e, r) → e.counts = true →
      r.epoch? = some (saturated (first + bumps (σ.answers.take k) + 1))) ∧
    (∀ k e r, σ.answers[k]? = some (e, r) → e.counts = false → e.reports = true →
      r.epoch? = some (saturated (first + bumps (σ.answers.take k))) ∨
        (r.epoch? = none ∧ e.IsUntimely)) ∧
    (∀ (j k : ℕ) (e e' : Event) (r r' : Reply) m n, j ≤ k → σ.answers[j]? = some (e, r) →
      σ.answers[k]? = some (e', r') → e.reports = true → e'.reports = true →
      r.epoch? = some m → r'.epoch? = some n → m ≤ n) ∧
    (first + bumps σ.answers < 2 ^ 64 →
      (σ.answers.filter fun a => a.1.counts).map (fun a => a.2.epoch?) =
        (List.range' (first + 1) (bumps σ.answers)).map some) ∧
    ∀ σ', Relation.ReflTransGen Step σ σ' → σ.service.epoch.value ≤ σ'.service.epoch.value := by
  intro first
  obtain ⟨hepoch, -, hreported⟩ := h.isConsistent
  refine ⟨fun t settings hopen => ?_, hepoch, fun k e r hk => (hreported k e r hk).counted,
    fun k e r hk => (hreported k e r hk).told, fun j k e e' r r' m n hjk hj hk he he' hm hn => ?_,
    fun hbelow => ?_, fun σ' => epoch_le h⟩
  · obtain ⟨snapshot, k, -, -, rfl⟩ := Service.openWith_eq_ok_iff.1 hopen
    rfl
  · rw [hreported.epoch?_eq hj he hm, hreported.epoch?_eq hk he' hn]
    have hbumps := bumps_take_mono σ.answers (Nat.succ_le_succ hjk)
    exact Service.saturated_mono (Nat.add_le_add_left hbumps _)
  · rw [hreported.counted, List.range'_eq_map_range, List.map_map]
    refine List.map_congr_left fun k hk => ?_
    have hlt : k < bumps σ.answers := List.mem_range.1 hk
    simp only [saturated, Function.comp_apply, Option.some.injEq]
    omega

section Race

def brimming : Service :=
  .ofParts { Settings.default with initialEpoch := 0xFFFFFFFFFFFFFFFE } Interleaving.valid .structural .null

def asking : Event := .call ⟨0, 0⟩ (.object [("method", .string "revocations/get")])

theorem brimming_race : ∃ σ, Reaches brimming σ ∧ bumps σ.answers = 2 ∧
    σ.service.epoch.value.toNat = 2 ^ 64 - 1 ∧
    (σ.answers.map fun a => a.2.epoch?) = [some (2 ^ 64 - 1), some (2 ^ 64 - 1), some (2 ^ 64 - 1)] := by
  have hstart : Reaches brimming (.start brimming) := .refl
  have hfirst := hstart.tail (.begin (i := 0) rfl .bump FileTree.empty)
  have hsecond := hfirst.tail (.begin (i := 1) rfl .bump FileTree.empty)
  have hthird := hsecond.tail (.begin (i := 2) rfl asking FileTree.empty)
  have hexchange := hthird.tail (.exchange (i := 0) rfl rfl (by decide) rfl rfl)
  have hretry := hexchange.tail (.retry (i := 1) rfl rfl)
  have hfull := hretry.tail (.full (i := 1) rfl rfl rfl rfl)
  have hanswer := hfull.tail (.answer (i := 2) rfl rfl rfl rfl)
  obtain ⟨-, hepoch, hbumps, htold, -⟩ := epoch_of_run hanswer
  have htimely : ¬asking.IsUntimely := by
    rintro ⟨fault, huntimely⟩
    exact absurd huntimely.method (by decide)
  have hread := (htold 2 _ _ rfl rfl rfl).resolve_right fun h => htimely h.2
  exact ⟨_, hanswer, rfl, hepoch, congrArg₂ List.cons (hbumps 0 _ _ rfl rfl)
    (congrArg₂ List.cons (hbumps 1 _ _ rfl rfl) (congrArg₂ List.cons hread rfl))⟩

end Race

end Counting

end CorridorTrust
