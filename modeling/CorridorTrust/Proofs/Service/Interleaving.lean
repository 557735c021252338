import Mathlib
import CorridorTrust.Service.State

/-!
Verifications, reloads and bumps of one service, interleaved. A verification pins the snapshot, evaluates
the request on it, and reads the epoch last; the swap of a reload and a bump are one step each.
-/

namespace CorridorTrust

open Time (Instant)

namespace Epoch

lemma toNat_bump {e : Epoch} (h : e.value ≠ ceiling) :
    e.bump.value.toNat = e.value.toNat + 1 := by
  have hlt : e.value.toNat < 2 ^ 64 := e.value.toNat_lt
  have hne : e.value.toNat ≠ ceiling.toNat := fun he => h (UInt64.toNat_inj.1 he)
  have hceiling : ceiling.toNat = 2 ^ 64 - 1 := rfl
  rw [bump, if_neg h, UInt64.toNat_add, UInt64.toNat_one, Nat.mod_eq_of_lt (by omega)]

lemma bump_eq_self {e : Epoch} (h : e.value = ceiling) : e.bump = e := if_pos h

end Epoch

namespace Interleaving

inductive Access where
  | pin (call : ℕ)
  | evaluate (call : ℕ)
  | answer (call : ℕ)
  | swap (next : Snapshot)
  | bump

structure Shared where
  generation : ℕ
  service : Service

def Shared.after (x : Shared) : Access → Shared
  | .swap next => ⟨x.generation + 1, { x.service with snapshot := next }⟩
  | .bump => ⟨x.generation, x.service.bump⟩
  | .pin _ | .evaluate _ | .answer _ => x

inductive Progress where
  | waiting
  | pinned (snapshot : Snapshot)
  | evaluated (outcome : Check)
  | answered (verdict : Verdict)

structure State where
  shared : Shared
  calls : ℕ → Progress

def State.set (σ : State) (i : ℕ) (p : Progress) : State :=
  { σ with calls := Function.update σ.calls i p }

section

variable (ask : ℕ → Request × Instant)

def step (σ : State) (access : Access) : Option State :=
  match access with
  | .pin i =>
    match σ.calls i with
    | .waiting => some (σ.set i (.pinned σ.shared.service.snapshot))
    | _ => none
  | .evaluate i =>
    match σ.calls i with
    | .pinned snapshot =>
      some (σ.set i (.evaluated
        (Judgement.check σ.shared.service.verifier snapshot.payload (ask i).1 (ask i).2)))
    | _ => none
  | .answer i =>
    match σ.calls i with
    | .evaluated outcome =>
      some (σ.set i (.answered (Judgement.verdict outcome σ.shared.service.epoch)))
    | _ => none
  | .swap _ | .bump => some { σ with shared := σ.shared.after access }

inductive Run (x : Shared) : List Access → State → Prop
  | start : Run x [] ⟨x, fun _ => .waiting⟩
  | next {accesses : List Access} {σ σ' : State} (h : Run x accesses σ) (access : Access)
      (hstep : step ask σ access = some σ') : Run x (accesses ++ [access]) σ'

end

section Instants

variable (x : Shared) (accesses : List Access)

def moment (t : ℕ) : Shared := (accesses.take t).foldl Shared.after x

/-- Between two accesses of a call, a swap comes before a bump that changes the epoch. -/
def IsOvertaken (a b : ℕ) : Prop :=
  ∃ u w, a < u ∧ u < w ∧ w < b ∧ (∃ next, accesses[u]? = some (.swap next)) ∧
    accesses[w]? = some .bump ∧ (moment x accesses w).service.epoch.value ≠ Epoch.ceiling

/-- The snapshot current at one access of a call is current together with the epoch of another. -/
def IsCoherent (a b : ℕ) : Prop :=
  ∃ t, a ≤ t ∧ t ≤ b ∧ (moment x accesses t).generation = (moment x accesses a).generation ∧
    (moment x accesses t).service.epoch = (moment x accesses b).service.epoch

lemma moment_succ {t : ℕ} {access : Access} (h : accesses[t]? = some access) :
    moment x accesses (t + 1) = (moment x accesses t).after access := by
  simp [moment, List.take_add_one, h, List.foldl_append]

lemma moment_succ_of_none {t : ℕ} (h : accesses[t]? = none) :
    moment x accesses (t + 1) = moment x accesses t := by
  simp [moment, List.take_add_one, h]

lemma moment_append (more : List Access) {t : ℕ} (h : t ≤ accesses.length) :
    moment x (accesses ++ more) t = moment x accesses t := by
  rw [moment, List.take_append_of_le_length h, moment]

lemma moment_length (access : Access) :
    moment x (accesses ++ [access]) (accesses ++ [access]).length =
      (moment x accesses accesses.length).after access := by
  have hlast : (accesses ++ [access])[accesses.length]? = some access := by simp
  rw [List.length_append, List.length_singleton, moment_succ x _ hlast,
    moment_append x accesses _ le_rfl]

lemma generation_succ (t : ℕ) :
    ((moment x accesses (t + 1)).generation = (moment x accesses t).generation ∧
        (moment x accesses (t + 1)).service.snapshot = (moment x accesses t).service.snapshot) ∨
      ((moment x accesses (t + 1)).generation = (moment x accesses t).generation + 1 ∧
        ∃ next, accesses[t]? = some (.swap next)) := by
  cases h : accesses[t]? with
  | none => exact .inl (by simp [moment_succ_of_none x accesses h])
  | some access =>
    rw [moment_succ x accesses h]
    cases access with
    | swap next => exact .inr ⟨rfl, next, rfl⟩
    | _ => exact .inl ⟨rfl, rfl⟩

lemma epoch_succ (t : ℕ) :
    (moment x accesses (t + 1)).service.epoch = (moment x accesses t).service.epoch ∨
      ((moment x accesses (t + 1)).service.epoch.value.toNat =
          (moment x accesses t).service.epoch.value.toNat + 1 ∧
        accesses[t]? = some .bump ∧ (moment x accesses t).service.epoch.value ≠ Epoch.ceiling) := by
  cases h : accesses[t]? with
  | none => exact .inl (by simp [moment_succ_of_none x accesses h])
  | some access =>
    rw [moment_succ x accesses h]
    cases access with
    | bump =>
      by_cases hc : (moment x accesses t).service.epoch.value = Epoch.ceiling
      · exact .inl (Epoch.bump_eq_self hc)
      · exact .inr ⟨Epoch.toNat_bump hc, rfl, hc⟩
    | _ => exact .inl rfl

lemma generation_mono : Monotone fun t => (moment x accesses t).generation := by
  refine monotone_nat_of_le_succ fun t => ?_
  rcases generation_succ x accesses t with ⟨h, -⟩ | ⟨h, -⟩ <;> rw [h]
  exact Nat.le_succ _

lemma epoch_mono : Monotone fun t => (moment x accesses t).service.epoch.value.toNat := by
  refine monotone_nat_of_le_succ fun t => ?_
  rcases epoch_succ x accesses t with h | ⟨h, -⟩ <;> rw [h]
  exact Nat.le_succ _

lemma verifier_eq (t : ℕ) : (moment x accesses t).service.verifier = x.service.verifier := by
  induction t with
  | zero => rfl
  | succ t ih =>
    rw [← ih]
    cases h : accesses[t]? with
    | none => rw [moment_succ_of_none x accesses h]
    | some access =>
      rw [moment_succ x accesses h]
      cases access <;> rfl

lemma exists_change {α : Type} (f : ℕ → α) {a b : ℕ} (hab : a ≤ b) (h : f b ≠ f a) :
    ∃ t, a ≤ t ∧ t < b ∧ f t = f a ∧ f (t + 1) ≠ f t := by
  induction b, hab using Nat.le_induction with
  | base => exact absurd rfl h
  | succ b hab ih =>
    by_cases hb : f b = f a
    · exact ⟨b, hab, Nat.lt_succ_self b, hb, fun he => h (he.trans hb)⟩
    · obtain ⟨t, hat, htb, hta, hchange⟩ := ih hb
      exact ⟨t, hat, htb.trans (Nat.lt_succ_self b), hta, hchange⟩

lemma snapshot_eq {a t : ℕ} (hat : a ≤ t)
    (h : (moment x accesses t).generation = (moment x accesses a).generation) :
    (moment x accesses t).service.snapshot = (moment x accesses a).service.snapshot := by
  induction t, hat using Nat.le_induction with
  | base => rfl
  | succ t hat ih =>
    have hmono : (moment x accesses a).generation ≤ (moment x accesses t).generation :=
      generation_mono x accesses hat
    rcases generation_succ x accesses t with ⟨hg, hs⟩ | ⟨hg, -⟩
    · rw [hs]
      exact ih (hg.symm.trans h)
    · omega

lemma exists_swap {a b : ℕ} (hab : a ≤ b)
    (h : (moment x accesses b).generation ≠ (moment x accesses a).generation) :
    ∃ u, a ≤ u ∧ u < b ∧ (moment x accesses u).generation = (moment x accesses a).generation ∧
      ∃ next, accesses[u]? = some (.swap next) := by
  obtain ⟨u, hau, hub, hu, hchange⟩ :=
    exists_change (fun t => (moment x accesses t).generation) hab h
  rcases generation_succ x accesses u with ⟨hg, -⟩ | ⟨-, hswap⟩
  · exact absurd hg hchange
  · exact ⟨u, hau, hub, hu, hswap⟩

lemma exists_bump {a b : ℕ} (hab : a ≤ b)
    (h : (moment x accesses b).service.epoch ≠ (moment x accesses a).service.epoch) :
    ∃ w, a ≤ w ∧ w < b ∧ accesses[w]? = some .bump ∧
      (moment x accesses w).service.epoch.value ≠ Epoch.ceiling := by
  obtain ⟨w, haw, hwb, -, hchange⟩ :=
    exists_change (fun t => (moment x accesses t).service.epoch) hab h
  rcases epoch_succ x accesses w with he | ⟨-, hbump, hceiling⟩
  · exact absurd he hchange
  · exact ⟨w, haw, hwb, hbump, hceiling⟩

variable {x accesses}

lemma generation_lt_of_swap {t : ℕ} {next : Snapshot} (h : accesses[t]? = some (.swap next)) :
    (moment x accesses t).generation < (moment x accesses (t + 1)).generation := by
  rw [moment_succ x accesses h]
  exact Nat.lt_succ_self _

lemma epoch_lt_of_bump {t : ℕ} (h : accesses[t]? = some .bump)
    (hc : (moment x accesses t).service.epoch.value ≠ Epoch.ceiling) :
    (moment x accesses t).service.epoch.value.toNat <
      (moment x accesses (t + 1)).service.epoch.value.toNat := by
  rw [moment_succ x accesses h]
  change _ < (moment x accesses t).service.epoch.bump.value.toNat
  rw [Epoch.toNat_bump hc]
  exact Nat.lt_succ_self _

theorem isCoherent_iff {i a b : ℕ} (hab : a ≤ b) (hpin : accesses[a]? = some (.pin i)) :
    IsCoherent x accesses a b ↔ ¬IsOvertaken x accesses a b := by
  constructor
  · rintro ⟨t, hat, htb, hgeneration, hepoch⟩ ⟨u, w, hau, huw, hwb, ⟨next, hswap⟩, hbump, hceiling⟩
    -- a later instant has another generation than the pin, an earlier one another epoch than the answer
    rcases Nat.lt_or_ge u t with hut | htu
    · have hlt := generation_lt_of_swap (x := x) hswap
      have hle : (moment x accesses (u + 1)).generation ≤ (moment x accesses t).generation :=
        generation_mono x accesses hut
      have hge : (moment x accesses a).generation ≤ (moment x accesses u).generation :=
        generation_mono x accesses hau.le
      omega
    · have hlt := epoch_lt_of_bump hbump hceiling
      have hle : (moment x accesses t).service.epoch.value.toNat ≤
          (moment x accesses w).service.epoch.value.toNat :=
        epoch_mono x accesses (htu.trans huw.le)
      have hge : (moment x accesses (w + 1)).service.epoch.value.toNat ≤
          (moment x accesses b).service.epoch.value.toNat := epoch_mono x accesses hwb
      rw [hepoch] at hle
      omega
  · intro hnot
    by_cases hg : (moment x accesses b).generation = (moment x accesses a).generation
    · exact ⟨b, hab, le_rfl, hg, rfl⟩
    -- the last instant of the pinned snapshot is that of the first swap
    · obtain ⟨u, hau, hub, hu, hswap⟩ := exists_swap x accesses hab hg
      have hne : a ≠ u := by
        rintro rfl
        obtain ⟨next, hswap⟩ := hswap
        rw [hpin] at hswap
        cases hswap
      refine ⟨u, hau, hub.le, hu, ?_⟩
      by_contra he
      obtain ⟨w, huw, hwb, hbump, hceiling⟩ := exists_bump x accesses hub.le (Ne.symm he)
      have hne' : u ≠ w := by
        rintro rfl
        obtain ⟨next, hswap⟩ := hswap
        rw [hbump] at hswap
        cases hswap
      exact hnot ⟨u, w, lt_of_le_of_ne hau hne, lt_of_le_of_ne huw hne', hwb, hswap, hbump, hceiling⟩

lemma isOvertaken_of_bump {i a b w : ℕ} (hpin : accesses[a]? = some (.pin i))
    (hbump : accesses[w]? = some .bump)
    (hceiling : (moment x accesses w).service.epoch.value ≠ Epoch.ceiling)
    (hreplaced : (moment x accesses a).generation < (moment x accesses w).generation)
    (hlater : (moment x accesses (w + 1)).service.epoch.value ≤
      (moment x accesses b).service.epoch.value) : IsOvertaken x accesses a b := by
  have haw : a < w := by
    by_contra hwa
    have hle : (moment x accesses w).generation ≤ (moment x accesses a).generation :=
      generation_mono x accesses (not_lt.1 hwa)
    omega
  have hwb : w < b := by
    by_contra hbw
    have hle : (moment x accesses b).service.epoch.value.toNat ≤
        (moment x accesses w).service.epoch.value.toNat := epoch_mono x accesses (not_lt.1 hbw)
    have hlt := epoch_lt_of_bump hbump hceiling
    have hge : (moment x accesses (w + 1)).service.epoch.value.toNat ≤
        (moment x accesses b).service.epoch.value.toNat := hlater
    omega
  obtain ⟨u, hau, huw, -, next, hswap⟩ := exists_swap x accesses haw.le hreplaced.ne'
  have hne : a ≠ u := by
    rintro rfl
    rw [hpin] at hswap
    cases hswap
  exact ⟨u, w, lt_of_le_of_ne hau hne, huw, hwb, ⟨next, hswap⟩, hbump, hceiling⟩

end Instants

section Calls

variable {ask : ℕ → Request × Instant} {x : Shared} {accesses : List Access} {σ σ' : State} {i : ℕ}

def IsTraced (ask : ℕ → Request × Instant) (x : Shared) (accesses : List Access) (i : ℕ) :
    Progress → Prop
  | .waiting => True
  | .pinned snapshot =>
    ∃ a, accesses[a]? = some (.pin i) ∧ (moment x accesses a).service.snapshot = snapshot
  | .evaluated outcome =>
    ∃ a, accesses[a]? = some (.pin i) ∧ outcome = Judgement.check x.service.verifier
      (moment x accesses a).service.snapshot.payload (ask i).1 (ask i).2
  | .answered verdict =>
    ∃ a b, a < b ∧ accesses[a]? = some (.pin i) ∧ accesses[b]? = some (.answer i) ∧
      verdict = Judgement.judge x.service.verifier (moment x accesses a).service.snapshot.payload
        (ask i).1 (ask i).2 (moment x accesses b).service.epoch

lemma lt_length {access : Access} {t : ℕ} (h : accesses[t]? = some access) : t < accesses.length :=
  (List.getElem?_eq_some_iff.1 h).1

lemma getElem?_append {access : Access} {t : ℕ} (h : accesses[t]? = some access)
    (more : List Access) : (accesses ++ more)[t]? = some access := by
  rw [List.getElem?_append_left (lt_length h), h]

lemma IsTraced.append {p : Progress} (h : IsTraced ask x accesses i p) (more : List Access) :
    IsTraced ask x (accesses ++ more) i p := by
  cases p with
  | waiting => trivial
  | pinned snapshot =>
    obtain ⟨a, ha, hs⟩ := h
    exact ⟨a, getElem?_append ha more, by rwa [moment_append x accesses more (lt_length ha).le]⟩
  | evaluated outcome =>
    obtain ⟨a, ha, ho⟩ := h
    exact ⟨a, getElem?_append ha more, by rwa [moment_append x accesses more (lt_length ha).le]⟩
  | answered verdict =>
    obtain ⟨a, b, hab, ha, hb, hv⟩ := h
    refine ⟨a, b, hab, getElem?_append ha more, getElem?_append hb more, ?_⟩
    rwa [moment_append x accesses more (lt_length ha).le,
      moment_append x accesses more (lt_length hb).le]

lemma isTraced_step {access : Access} (hshared : σ.shared = moment x accesses accesses.length)
    (h : ∀ j, IsTraced ask x accesses j (σ.calls j)) (hstep : step ask σ access = some σ') (j : ℕ) :
    IsTraced ask x (accesses ++ [access]) j (σ'.calls j) := by
  have hlast : (accesses ++ [access])[accesses.length]? = some access := by simp
  -- an access of a call moves that call alone, and every trace is kept by later accesses
  have hset (i : ℕ) (p : Progress) (hp : IsTraced ask x (accesses ++ [access]) i p) :
      IsTraced ask x (accesses ++ [access]) j ((σ.set i p).calls j) := by
    by_cases hj : j = i
    · subst hj
      simpa [State.set] using hp
    · simpa [State.set, hj] using (h j).append [access]
  cases access with
  | pin i =>
    cases hi : σ.calls i with
    | waiting =>
      obtain rfl : _ = σ' := by simpa [step, hi] using hstep
      refine hset i _ ⟨accesses.length, hlast, ?_⟩
      rw [moment_append x accesses _ le_rfl, hshared]
    | _ => simp [step, hi] at hstep
  | evaluate i =>
    cases hi : σ.calls i with
    | pinned snapshot =>
      obtain rfl : _ = σ' := by simpa [step, hi] using hstep
      have hpinned := h i
      rw [hi] at hpinned
      obtain ⟨a, ha, rfl⟩ := hpinned
      refine hset i _ ⟨a, getElem?_append ha _, ?_⟩
      rw [moment_append x accesses _ (lt_length ha).le, hshared, verifier_eq]
    | _ => simp [step, hi] at hstep
  | answer i =>
    cases hi : σ.calls i with
    | evaluated outcome =>
      obtain rfl : _ = σ' := by simpa [step, hi] using hstep
      have hevaluated := h i
      rw [hi] at hevaluated
      obtain ⟨a, ha, rfl⟩ := hevaluated
      refine hset i _ ⟨a, accesses.length, lt_length ha, getElem?_append ha _, hlast, ?_⟩
      rw [moment_append x accesses _ (lt_length ha).le, moment_append x accesses _ le_rfl, hshared,
        Judgement.judge]
    | _ => simp [step, hi] at hstep
  | swap next | bump =>
    obtain rfl : _ = σ' := by simpa [step] using hstep
    exact (h j).append _

lemma shared_step {access : Access} (hstep : step ask σ access = some σ') :
    σ'.shared = σ.shared.after access := by
  unfold step at hstep
  split at hstep
  all_goals first
    | (split at hstep <;> first | (cases hstep; rfl) | cases hstep)
    | (cases hstep; rfl)

lemma Run.shared_eq (h : Run ask x accesses σ) :
    σ.shared = moment x accesses accesses.length := by
  induction h with
  | start => rfl
  | next _ _ hstep ih => rw [shared_step hstep, ih, moment_length]

lemma Run.isTraced (h : Run ask x accesses σ) (i : ℕ) : IsTraced ask x accesses i (σ.calls i) := by
  induction h generalizing i with
  | start => trivial
  | next hrun _ hstep ih => exact isTraced_step hrun.shared_eq ih hstep i

/-- A verdict is that of the snapshot current when its call began, with the epoch current when it ended.
Both are current at one instant of the call exactly when no swap in it is followed by a bump that
changes the epoch; then the verdict is that of a verification at that instant, and its epoch is older
than every bump made after the snapshot was replaced. -/
theorem verdict_of_run {verdict : Verdict} (h : Run ask x accesses σ)
    (hanswered : σ.calls i = .answered verdict) :
    ∃ a b, a < b ∧ accesses[a]? = some (.pin i) ∧ accesses[b]? = some (.answer i) ∧
      verdict = Judgement.judge x.service.verifier (moment x accesses a).service.snapshot.payload
        (ask i).1 (ask i).2 (moment x accesses b).service.epoch ∧
      (IsCoherent x accesses a b ↔ ¬IsOvertaken x accesses a b) ∧
      (¬IsOvertaken x accesses a b → ∃ t, a ≤ t ∧ t ≤ b ∧
        verdict = (moment x accesses t).service.verify (ask i).1 (ask i).2) ∧
      (¬IsOvertaken x accesses a b → ∀ w, accesses[w]? = some .bump →
        (moment x accesses w).service.epoch.value ≠ Epoch.ceiling →
        (moment x accesses a).generation < (moment x accesses w).generation →
        verdict.epoch.value < (moment x accesses (w + 1)).service.epoch.value) := by
  have htraced := h.isTraced i
  rw [hanswered] at htraced
  obtain ⟨a, b, hab, hpin, hanswer, hverdict⟩ := htraced
  have hcoherent := isCoherent_iff (x := x) hab.le hpin
  refine ⟨a, b, hab, hpin, hanswer, hverdict, hcoherent, fun hnot => ?_,
    fun hnot w hbump hceiling hreplaced => ?_⟩
  · obtain ⟨t, hat, htb, hgeneration, hepoch⟩ := hcoherent.2 hnot
    refine ⟨t, hat, htb, ?_⟩
    rw [hverdict, Service.verify, verifier_eq, snapshot_eq x accesses hat hgeneration, hepoch]
  · have hepoch : verdict.epoch = (moment x accesses b).service.epoch := by
      rw [hverdict, Judgement.judge]
      cases Judgement.check _ _ _ _ <;> rfl
    by_contra hle
    rw [hepoch] at hle
    exact hnot (isOvertaken_of_bump hpin hbump hceiling hreplaced (UInt64.not_lt.1 hle))

end Calls

section Overtaken

def publication (rmt : String) : Snapshot where
  index := ⟨[Entry.new "c" .cort "c", Entry.new "i" .imt "i", Entry.new "p" .psrt "p",
    Entry.new "r" .rmt "r"]⟩
  content := fun reference =>
    .ok (Utf8.ofString (
      if reference = "r" then rmt
      else if reference = "c" then "\x7b\"type\":\"CORT\"\x7d"
      else if reference = "p" then "\x7b\"type\":\"PSRT\"\x7d"
      else "\x7b\x7d"))

def valid : Snapshot := publication "\x7b\"type\":\"RMT\"\x7d"

def revoked : Snapshot := publication "\x7b\"type\":\"RMT\",\"revoked\":true\x7d"

def opened : Service := Service.ofParts Settings.default valid .structural .null

def asked : Request × Instant := (⟨⟨"r", "i", "c", "p", none, none⟩⟩, ⟨0, 0⟩)

lemma check_valid : Judgement.check .structural valid.payload asked.1 asked.2 = .ok () := by
  decide +kernel

def undisturbed : List Access :=
  [.bump, .pin 0, .bump, .evaluate 0, .swap revoked, .answer 0, .bump]

lemma eq_four_of_swap {u : ℕ} {next : Snapshot} (h : undisturbed[u]? = some (.swap next)) : u = 4 := by
  have hu : u < 7 := lt_length h
  interval_cases u <;> first | rfl | cases h

theorem verdict_undisturbed :
    (∃ t, (⟨true, ⟨3⟩, ""⟩ : Verdict) =
      (moment ⟨0, opened⟩ undisturbed t).service.verify asked.1 asked.2) ∧
    3 < (moment ⟨0, opened⟩ undisturbed undisturbed.length).service.epoch.value := by
  have hstart : Run (fun _ => asked) ⟨0, opened⟩ [] _ := .start
  have hbump := hstart.next .bump rfl
  have hpin := hbump.next (.pin 0) rfl
  have hinside := hpin.next .bump rfl
  have hevaluate := hinside.next (.evaluate 0) rfl
  have hswap := hevaluate.next (.swap revoked) rfl
  have hanswer := hswap.next (.answer 0) rfl
  have hafter := hanswer.next .bump rfl
  have hvalid : (Progress.answered (Judgement.verdict
      (Judgement.check .structural valid.payload asked.1 asked.2) ⟨3⟩)) = .answered ⟨true, ⟨3⟩, ""⟩ := by
    rw [check_valid]
    rfl
  obtain ⟨a, b, -, ha, hb, -, -, hatomic, hlater⟩ := verdict_of_run (i := 0) hafter hvalid
  obtain rfl : a = 1 := by
    have hlt : a < 7 := lt_length ha
    interval_cases a <;> first | rfl | cases ha
  obtain rfl : b = 5 := by
    have hlt : b < 7 := lt_length hb
    interval_cases b <;> first | rfl | cases hb
  -- the only swap is right before the answer, with no place for a bump between them
  have hnot : ¬IsOvertaken ⟨0, opened⟩ undisturbed 1 5 := by
    rintro ⟨u, w, -, huw, hwb, ⟨next, hu⟩, -⟩
    have hfour := eq_four_of_swap hu
    omega
  constructor
  · obtain ⟨t, -, -, ht⟩ := hatomic hnot
    exact ⟨t, ht⟩
  · exact hlater hnot 6 rfl (by decide) (by decide)

def overtaking : List Access := [.pin 0, .evaluate 0, .swap revoked, .bump, .answer 0]

lemma check_revoked : Judgement.check .structural revoked.payload asked.1 asked.2 =
    .error (.tokenRevoked "r") := by decide +kernel

theorem stale_acceptance : ∃ σ, Run (fun _ => asked) ⟨0, opened⟩ overtaking σ ∧
    σ.calls 0 = .answered ⟨true, ⟨2⟩, ""⟩ ∧
    ∀ t, (moment ⟨0, opened⟩ overtaking t).service.verify asked.1 asked.2 ≠ ⟨true, ⟨2⟩, ""⟩ := by
  have hstart : Run (fun _ => asked) ⟨0, opened⟩ [] _ := .start
  have hpin := hstart.next (.pin 0) rfl
  have hevaluate := hpin.next (.evaluate 0) rfl
  have hswap := hevaluate.next (.swap revoked) rfl
  have hbump := hswap.next .bump rfl
  have hanswer := hbump.next (.answer 0) rfl
  refine ⟨_, hanswer, ?_, fun t => ?_⟩
  · change Progress.answered (Judgement.verdict
      (Judgement.check .structural valid.payload asked.1 asked.2) ⟨2⟩) = _
    rw [check_valid]
    rfl
  · have hfirst (e : Epoch) : Judgement.judge .structural valid.payload asked.1 asked.2 e =
        ⟨true, e, ""⟩ := by rw [Judgement.judge, check_valid]; rfl
    have hlast (e : Epoch) : (Judgement.judge .structural revoked.payload asked.1 asked.2 e).valid =
        false := by rw [Judgement.judge, check_revoked]; rfl
    rcases Nat.lt_or_ge t 3 with ht | ht
    · have hearly : moment ⟨0, opened⟩ overtaking t = ⟨0, opened⟩ := by interval_cases t <;> rfl
      rw [hearly]
      change Judgement.judge .structural valid.payload asked.1 asked.2 ⟨1⟩ ≠ _
      rw [hfirst]
      decide
    · have hlate : (moment ⟨0, opened⟩ overtaking t).service.snapshot = revoked := by
        obtain ⟨k, rfl⟩ := Nat.exists_eq_add_of_le' ht
        rcases k with _ | _ | _ | k <;> rfl
      have hrejected := hlast (moment ⟨0, opened⟩ overtaking t).service.epoch
      intro h
      rw [Service.verify, hlate, verifier_eq] at h
      change Judgement.judge .structural revoked.payload asked.1 asked.2 _ = _ at h
      rw [h] at hrejected
      cases hrejected

end Overtaken

end Interleaving

end CorridorTrust
