import CorridorTrust.Proofs.Bundle.Checkpoints
import CorridorTrust.Proofs.Text.Beginning

/-!
One bundle before two verifiers. What is verified with keys is verified without them, and until the first
token is verified both do the same, so that keys can only turn a verdict into the rejection of a signed
role, and never of a later one than the structural verifier rejects.
-/

namespace CorridorTrust

open Time (Instant)

lemma Role.text_injective {r r' : Role} (h : r.text = r'.text) : r = r' := by
  revert h
  cases r <;> cases r' <;> decide

lemma Reason.eq_invalidRole_of_text {r : Reason} {role : Role} (h : r.text = "invalid_" ++ role.text) :
    r = .invalidRole role := by
  cases r with
  | invalidRole role' => rw [Role.text_injective ((String.append_right_inj _).1 h)]
  | invalidRequest =>
    revert h
    cases role <;> decide
  | invalidNotBefore uri | invalidExpiry uri =>
    -- these begin like the rejection of a role, whose name has to be looked at
    rw [← String.append_empty (s := "invalid_" ++ role.text)] at h
    cases role <;> exact absurd h (Text.append_ne_append (by decide +kernel))
  | _ => exact absurd h (Text.append_ne_append (by decide))

lemma Verifier.verifyRole_structural {keys : KeySet} {source : PayloadSource} {role : Role}
    {uri : String} (h : (ed25519 keys).verifyRole source role uri = .ok ()) :
    structural.verifyRole source role uri = .ok () := by
  simp only [verifyRole, Sequence.bind_eq_ok_iff] at h ⊢
  obtain ⟨u, hsigned, bs, hbs, ms, hms, -, -, htype⟩ := h
  exact ⟨u, hsigned, bs, hbs, ms, hms, htype⟩

namespace Judgement

open Checkpoint
open Sequence (Outcome)

variable (source : PayloadSource) (request : Request) (now : Instant)

def preliminary : Check := do
  checkPresence request.tokens
  Role.mandatory.forM fun role => checkTerms source now (request.tokens.get role)

def verification (v : Verifier) : Check :=
  Role.signed.forM fun role => checkRole v source role (request.tokens.get role)

lemma check_eq (v : Verifier) : check v source request now =
    preliminary source request now >>= fun _ => verification source request v := by
  rw [check, preliminary]
  cases checkPresence request.tokens <;> rfl

lemma preliminary_ne_invalidRole {reason : Reason}
    (h : preliminary source request now = .error reason) (role : Role) : reason ≠ .invalidRole role := by
  have hdecides : Decides .structural source request now _ (preliminary source request now) :=
    .bind (presence_decides _ _ _ _) fun _ => .forM _ fun role _ => terms_decides _ _ _ _ role
  obtain ⟨before, c, after, horder, -, -, rfl⟩ := hdecides.exists_of_error h
  have hc : c ∈ before ++ c :: after := by simp
  rw [← horder] at hc
  cases c with
  | verified role' => simp at hc
  | _ => simp [Checkpoint.reason]

lemma verification_outcome (v : Verifier) :
    Outcome (fun role => v.verifyRole source role (request.tokens.get role) = .ok ())
      Reason.invalidRole Role.signed (verification source request v) := by
  have hroles : Role.signed = Role.signed.flatMap fun role => [role] := rfl
  rw [hroles, verification]
  refine .forM _ fun role _ => .single (fun h => ?_) fun h => ?_
  · rw [checkRole, h]
  · rw [checkRole]
    split
    · contradiction
    · rfl

/-- A verifier with keys accepts nothing that the structural one rejects. Where its verdict is another,
it rejects a signed role; where both reject one, its role stands at or before that of the other. -/
theorem stricter_with_keys (keys : KeySet) (epoch : Epoch) :
    let plain := judge .structural source request now epoch
    let strict := judge (.ed25519 keys) source request now epoch
    (strict.valid = true → plain.valid = true) ∧
      (plain.valid = false → (∀ role : Role, plain.reason ≠ "invalid_" ++ role.text) → strict = plain) ∧
      (∀ role : Role, plain.valid = false → plain.reason = "invalid_" ++ role.text →
        ∃ before after, Role.signed = before ++ role :: after ∧
          ∃ q ∈ before ++ [role], strict = ⟨false, epoch, "invalid_" ++ q.text⟩) ∧
      (plain.valid = true →
        strict = plain ∨ ∃ q ∈ Role.signed, strict = ⟨false, epoch, "invalid_" ++ q.text⟩) := by
  intro plain strict
  have hplain : plain = verdict (check .structural source request now) epoch := rfl
  have hstrict : strict = verdict (check (.ed25519 keys) source request now) epoch := rfl
  rw [check_eq] at hplain hstrict
  clear_value plain strict
  cases hpre : preliminary source request now with
  | error reason =>
    rw [hpre, Sequence.error_bind] at hplain hstrict
    subst hplain hstrict
    refine ⟨id, fun _ _ => rfl, fun role _ hrole => ?_, fun _ => .inl rfl⟩
    exact absurd (Reason.eq_invalidRole_of_text hrole) (preliminary_ne_invalidRole _ _ _ hpre role)
  | ok =>
    rw [hpre, Sequence.ok_bind] at hplain hstrict
    have hstricter (role : Role) :
        (Verifier.ed25519 keys).verifyRole source role (request.tokens.get role) = .ok () →
          Verifier.structural.verifyRole source role (request.tokens.get role) = .ok () :=
      Verifier.verifyRole_structural
    have hx := verification_outcome source request (.ed25519 keys)
    have hy := verification_outcome source request .structural
    cases hplainOutcome : verification source request .structural with
    | ok =>
      cases hstrictOutcome : verification source request (.ed25519 keys) with
      | ok =>
        rw [hplainOutcome] at hplain
        rw [hstrictOutcome] at hstrict
        subst hplain hstrict
        exact ⟨fun _ => rfl, nofun, nofun, fun _ => .inl rfl⟩
      | error reason =>
        obtain ⟨before, q, after, hroles, -, -, rfl⟩ := hx.exists_of_error hstrictOutcome
        rw [hplainOutcome] at hplain
        rw [hstrictOutcome] at hstrict
        subst hplain hstrict
        exact ⟨nofun, nofun, nofun, fun _ => .inr ⟨q, by simp [hroles], rfl⟩⟩
    | error reason =>
      obtain ⟨before, u, after, hroles, rfl, q, hq, hstrictOutcome⟩ :=
        Outcome.exists_error_of_stricter hstricter hx hy hplainOutcome
      rw [hplainOutcome] at hplain
      rw [hstrictOutcome] at hstrict
      subst hplain hstrict
      refine ⟨nofun, fun _ hother => absurd rfl (hother u), fun role _ hrole => ?_, nofun⟩
      obtain rfl : u = role := Reason.invalidRole.inj (Reason.eq_invalidRole_of_text hrole)
      exact ⟨before, after, hroles, q, hq, rfl⟩

end Judgement

end CorridorTrust
