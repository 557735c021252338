import CorridorTrust.Bundle.Judgement
import CorridorTrust.Proofs.Evidence.Reading
import CorridorTrust.Proofs.Sequence

/-!
The checkpoints of a bundle, in the order in which they are passed, each with what it asks for and the
reason it gives. The verdict on a bundle is that of its first checkpoint that is not passed.
-/

namespace CorridorTrust

open Json (Value Members)
open Time (Instant)
open Sequence (Outcome)

lemma Role.mem_mandatory_iff {r : Role} : r ∈ mandatory ↔ r ∈ signed ∨ r = .imt := by
  cases r <;> decide

inductive Checkpoint where
  | given (role : Role)
  | found (role : Role)
  | wellFormed (role : Role)
  | unrevoked (role : Role)
  | startReadable (role : Role)
  | started (role : Role)
  | endReadable (role : Role)
  | unended (role : Role)
  | verified (role : Role)
deriving DecidableEq

namespace Checkpoint

open Payload

def order : List Checkpoint :=
  Role.mandatory.map given ++
  Role.mandatory.flatMap (fun role =>
    [found role, wellFormed role, unrevoked role, startReadable role, started role,
      endReadable role, unended role]) ++
  Role.signed.map verified

lemma idxOf_found_lt {role : Role} (h : wellFormed role ∈ order) :
    order.idxOf (found role) < order.idxOf (wellFormed role) := by
  revert h
  cases role <;> decide

lemma found_mem_before {before after : List Checkpoint} {role : Role}
    (h : order = before ++ wellFormed role :: after) : found role ∈ before := by
  by_contra hnot
  have hlt := @idxOf_found_lt role (by simp [h])
  have hfound : (before ++ wellFormed role :: after).idxOf (found role) =
      before.length + (wellFormed role :: after).idxOf (found role) :=
    List.idxOf_append_of_notMem hnot
  have hwell : (before ++ wellFormed role :: after).idxOf (wellFormed role) ≤ before.length := by
    by_cases hmem : wellFormed role ∈ before
    · rw [List.idxOf_append_of_mem hmem]
      exact List.idxOf_le_length
    · simp [List.idxOf_append_of_notMem hmem]
  rw [h] at hlt
  omega

def Passes (v : Verifier) (source : PayloadSource) (request : Request) (now : Instant) :
    Checkpoint → Prop
  | given role => ¬∀ c ∈ (request.tokens.get role).toList, Text.isBlank c = true
  | found role =>
    let uri := request.tokens.get role
    source uri ≠ .ok [] ∧ ∀ what, source uri ≠ .error (.notFound what)
  | wellFormed role => ∃ ms, Shows source (request.tokens.get role) ms ∧ IsWellFormed ms
  | unrevoked role => ∃ ms, Shows source (request.tokens.get role) ms ∧ ¬IsRevoked ms
  | startReadable role =>
    ∃ ms, Shows source (request.tokens.get role) ms ∧
      ∀ s, Bounds ms "nbf" s → ∃ t, NamesInstant s t
  | started role =>
    ∃ ms, Shows source (request.tokens.get role) ms ∧
      ∀ s t, Bounds ms "nbf" s → NamesInstant s t → now.before t = false
  | endReadable role =>
    ∃ ms, Shows source (request.tokens.get role) ms ∧
      ∀ s, Bounds ms "exp" s → ∃ t, NamesInstant s t
  | unended role =>
    ∃ ms, Shows source (request.tokens.get role) ms ∧
      ∀ s t, Bounds ms "exp" s → NamesInstant s t → t.before now = false
  | verified role =>
    ∃ ms, Shows source (request.tokens.get role) ms ∧ v.Trusts ms ∧ IsTypedFor ms role

def reason (request : Request) : Checkpoint → Reason
  | given role => .missing role
  | found role => .metadataMissing (request.tokens.get role)
  | wellFormed role => .metadataInvalid (request.tokens.get role)
  | unrevoked role => .tokenRevoked (request.tokens.get role)
  | startReadable role => .invalidNotBefore (request.tokens.get role)
  | started role => .tokenNotYetValid (request.tokens.get role)
  | endReadable role => .invalidExpiry (request.tokens.get role)
  | unended role => .tokenExpired (request.tokens.get role)
  | verified role => .invalidRole role

def rejection (request : Request) : Checkpoint → String
  | given role => "missing_" ++ role.text
  | found role => "metadata_missing:" ++ request.tokens.get role
  | wellFormed role => "metadata_invalid:" ++ request.tokens.get role
  | unrevoked role => "token_revoked:" ++ request.tokens.get role
  | startReadable role => "invalid_nbf:" ++ request.tokens.get role
  | started role => "token_not_yet_valid:" ++ request.tokens.get role
  | endReadable role => "invalid_exp:" ++ request.tokens.get role
  | unended role => "token_expired:" ++ request.tokens.get role
  | verified role => "invalid_" ++ role.text

lemma text_reason (request : Request) (c : Checkpoint) :
    (c.reason request).text = c.rejection request := by
  cases c <;> rfl

section

variable (v : Verifier) (source : PayloadSource) (request : Request) (now : Instant)

abbrev Decides (cs : List Checkpoint) (x : Check) : Prop :=
  Outcome (Passes v source request now) (reason request) cs x

lemma presence_decides :
    Decides v source request now (Role.mandatory.map given)
      (Judgement.checkPresence request.tokens) := by
  rw [Judgement.checkPresence]
  generalize Role.mandatory = roles
  induction roles with
  | nil => exact .passed (by simp)
  | cons role roles ih =>
    cases hblank : Text.isBlankText (request.tokens.get role) with
    | true =>
      rw [List.find?_cons, hblank]
      refine Outcome.stopped [] (by simp) fun h => h ?_
      simpa [Text.isBlankText] using hblank
    | false =>
      rw [List.find?_cons, hblank]
      refine Outcome.append [given role] (fun c hc => ?_) ih
      obtain rfl := List.mem_singleton.1 hc
      intro h
      have : Text.isBlankText (request.tokens.get role) = true := by simpa [Text.isBlankText] using h
      rw [hblank] at this
      cases this

lemma revocation_decides {role : Role} {ms : Members} {terms : Terms}
    (hs : Shows source (request.tokens.get role) ms) (ht : Terms.ofMembers ms = .ok terms) :
    Decides v source request now [unrevoked role]
      (Judgement.checkRevoked (request.tokens.get role) terms) := by
  have hr := Terms.isRevoked_iff hs.isMap.members ht
  have hp : Passes v source request now (unrevoked role) ↔ ¬IsRevoked ms := hs.exists_iff
  refine .single (fun h => ?_) fun h => ?_
  · exact if_neg (mt hr.1 (hp.1 h))
  · exact if_pos (hr.2 (not_not.1 (mt hp.2 h)))

lemma bound_decides {readable inside : Checkpoint} {ms : Members} {name : String}
    {raw : Option String} (outside : Instant → Bool)
    (hfield : Terms.textField? (ms.get? name) = some raw)
    (hreadable : Passes v source request now readable ↔
      ∀ s, Bounds ms name s → ∃ t, NamesInstant s t)
    (hinside : Passes v source request now inside ↔
      ∀ s t, Bounds ms name s → NamesInstant s t → outside t = false) :
    Decides v source request now [readable, inside]
      (match Terms.bound raw with
        | .ok (some t) => if outside t then .error (reason request inside) else .ok ()
        | .ok none => .ok ()
        | .error _ => .error (reason request readable)) := by
  rcases Terms.bound_cases hfield with ⟨hb, hnone⟩ | ⟨s, t, hb, hs, ht⟩ | ⟨s, fault, hb, hs, ht⟩
  · rw [hb]
    refine .passed fun c hc => ?_
    rcases List.mem_pair.1 hc with rfl | rfl
    · exact hreadable.2 fun s hs => absurd ⟨s, hs⟩ hnone
    · exact hinside.2 fun s t hs _ => absurd ⟨s, hs⟩ hnone
  · have huniqueText : ∀ s', Bounds ms name s' → s' = s := fun s' hs' => by
      simpa using hs'.1.symm.trans hs.1
    have huniqueInstant : ∀ t', NamesInstant s t' → t' = t := fun t' ht' => by
      simpa using ht'.symm.trans ht
    have hread : Passes v source request now readable :=
      hreadable.2 fun s' hs' => huniqueText s' hs' ▸ ⟨t, ht⟩
    rw [hb]
    refine .append [readable] (by simpa using hread) (.single (fun h => ?_) fun h => ?_)
    · exact if_neg (by simp [hinside.1 h s t hs ht])
    · refine if_pos (by_contra fun hout => h (hinside.2 fun s' t' hs' ht' => ?_))
      obtain rfl := huniqueText s' hs'
      obtain rfl := huniqueInstant t' ht'
      exact Bool.eq_false_iff.2 hout
  · rw [hb]
    exact .stopped [] (by simp) fun h => ht (hreadable.1 h s hs)

lemma start_decides {role : Role} {ms : Members} {terms : Terms}
    (hs : Shows source (request.tokens.get role) ms) (ht : Terms.ofMembers ms = .ok terms) :
    Decides v source request now [startReadable role, started role]
      (Judgement.checkNotBefore (request.tokens.get role) terms now) :=
  bound_decides v source request now (now.before ·)
    ((Terms.ofMembers_eq_ok_iff hs.isMap.members).1 ht).1 hs.exists_iff hs.exists_iff

lemma end_decides {role : Role} {ms : Members} {terms : Terms}
    (hs : Shows source (request.tokens.get role) ms) (ht : Terms.ofMembers ms = .ok terms) :
    Decides v source request now [endReadable role, unended role]
      (Judgement.checkExpiry (request.tokens.get role) terms now) :=
  bound_decides v source request now (·.before now)
    ((Terms.ofMembers_eq_ok_iff hs.isMap.members).1 ht).2.1 hs.exists_iff hs.exists_iff

lemma resolve_cases (role : Role) :
    (Judgement.resolve source (request.tokens.get role) = .error (reason request (found role)) ∧
        ¬Passes v source request now (found role)) ∨
      (Judgement.resolve source (request.tokens.get role) =
          .error (reason request (wellFormed role)) ∧
        Passes v source request now (found role) ∧
        ¬Passes v source request now (wellFormed role)) ∨
      ∃ ms terms, Judgement.resolve source (request.tokens.get role) = .ok terms ∧
        Passes v source request now (found role) ∧
        Shows source (request.tokens.get role) ms ∧ Terms.ofMembers ms = .ok terms := by
  rw [Judgement.resolve]
  generalize huri : request.tokens.get role = uri
  cases hsource : source uri with
  | error fault =>
    have hshows : ∀ ms, ¬Shows source uri ms := by
      rintro ms ⟨bs, hbs, -⟩
      rw [hsource] at hbs
      cases hbs
    cases fault with
    | notFound what =>
      refine .inl ⟨by simp [Fault.isNotFound, reason, huri], fun h => ?_⟩
      exact h.2 what (by rw [huri, hsource])
    | _ =>
      refine .inr (.inl ⟨by simp [Fault.isNotFound, reason, huri], ?_, ?_⟩)
      · exact ⟨by simp [huri, hsource], by simp [huri, hsource]⟩
      · rintro ⟨ms, hms, -⟩
        exact hshows ms (huri ▸ hms)
  | ok bs =>
    by_cases hbs : bs = []
    · refine .inl ⟨by simp [hbs, reason, huri], fun h => ?_⟩
      exact h.1 (by rw [huri, hsource, hbs])
    · have hfound : Passes v source request now (found role) :=
        ⟨by simp [huri, hsource, hbs], by simp [huri, hsource]⟩
      cases hterms : Terms.read bs with
      | error fault =>
        refine .inr (.inl ⟨by simp [hbs, hterms, reason, huri], hfound, ?_⟩)
        rintro ⟨ms, hms, hwell⟩
        obtain ⟨terms, ht⟩ := (Terms.exists_ofMembers_iff hms.isMap.members).2 hwell
        obtain ⟨bs', hbs', -, hv⟩ := hms
        obtain rfl : bs = bs' := by simpa [huri, hsource] using hbs'
        rw [Terms.read, Payload.read_eq_ok_iff.2 hv, Sequence.ok_bind, ht] at hterms
        cases hterms
      | ok terms =>
        obtain ⟨ms, hms, ht⟩ := Sequence.bind_eq_ok_iff.1 hterms
        exact .inr (.inr ⟨ms, terms, by simp [hbs, hterms], hfound,
          ⟨bs, hsource, hbs, Payload.read_eq_ok_iff.1 hms⟩, ht⟩)

lemma terms_decides (role : Role) :
    Decides v source request now
      [found role, wellFormed role, unrevoked role, startReadable role, started role,
        endReadable role, unended role]
      (Judgement.checkTerms source now (request.tokens.get role)) := by
  rw [Judgement.checkTerms]
  rcases resolve_cases v source request now role with
    ⟨hr, hfound⟩ | ⟨hr, hfound, hwell⟩ | ⟨ms, terms, hr, hfound, hs, ht⟩
  · rw [hr]
    exact .stopped [] (by simp) hfound
  · rw [hr]
    exact .stopped [found role] (by simpa using hfound) hwell
  · have hwell : Passes v source request now (wellFormed role) :=
      ⟨ms, hs, (Terms.exists_ofMembers_iff hs.isMap.members).1 ⟨terms, ht⟩⟩
    rw [hr, Sequence.ok_bind]
    refine .append [found role, wellFormed role] (by simpa using ⟨hfound, hwell⟩) ?_
    refine .bind (revocation_decides v source request now hs ht) fun _ => ?_
    exact .bind (start_decides v source request now hs ht) fun _ =>
      end_decides v source request now hs ht

lemma role_decides {role : Role} (hrole : role.isSigned = true) :
    Decides v source request now [verified role]
      (Judgement.checkRole v source role (request.tokens.get role)) := by
  rw [Judgement.checkRole]
  have hiff : v.verifyRole source role (request.tokens.get role) = .ok () ↔
      Passes v source request now (verified role) := Verifier.verifyRole_eq_ok_iff hrole
  refine .single (fun h => ?_) fun h => ?_
  · rw [hiff.2 h]
  · cases hx : v.verifyRole source role (request.tokens.get role) with
    | ok u => exact absurd (hiff.1 hx) h
    | error fault => rfl

lemma order_decides :
    Decides v source request now order (Judgement.check v source request now) := by
  have hsigned : Role.signed.map verified = Role.signed.flatMap fun role => [verified role] := rfl
  rw [order, hsigned, List.append_assoc]
  refine .bind (presence_decides v source request now) fun _ => ?_
  refine .bind (.forM _ fun role _ => terms_decides v source request now role) fun _ => ?_
  refine .forM _ fun role hrole => role_decides v source request now ?_
  simpa [Role.isSigned] using hrole

end

/-- A bundle is accepted, with no reason, exactly when it passes every checkpoint; otherwise it is
rejected for the first checkpoint that it does not pass. -/
theorem judge_first_failure (v : Verifier) (source : PayloadSource) (request : Request)
    (now : Instant) (epoch : Epoch) :
    (Judgement.judge v source request now epoch = ⟨true, epoch, ""⟩ ↔
        ∀ c ∈ order, c.Passes v source request now) ∧
      ((¬∀ c ∈ order, c.Passes v source request now) →
        ∃ before c after, order = before ++ c :: after ∧
          (∀ b ∈ before, b.Passes v source request now) ∧ ¬c.Passes v source request now ∧
          Judgement.judge v source request now epoch = ⟨false, epoch, c.rejection request⟩) := by
  have hdecides := order_decides v source request now
  rw [Judgement.judge]
  generalize Judgement.check v source request now = x at hdecides ⊢
  generalize order = cs at hdecides ⊢
  cases hdecides with
  | passed h => exact ⟨iff_of_true rfl h, fun hn => absurd h hn⟩
  | @stopped before after c hbefore hc =>
    refine ⟨iff_of_false (by simp [Judgement.verdict, Verdict.rejected]) fun h => hc (h c (by simp)),
      fun _ => ⟨before, c, after, rfl, hbefore, hc, ?_⟩⟩
    rw [← text_reason]
    rfl

section Bounds

def bounded : PayloadSource := fun uri =>
  .ok (Utf8.ofString (
    if uri = "r" then "\x7b\"type\":\"RRMT\",\"nbf\":\" 1970-01-01T00:00:00Z\"\x7d"
    else if uri = "c" then "\x7b\"type\":\"CORT\",\"exp\":\"1970-01-01T01:00:00+01:00\"\x7d"
    else if uri = "p" then "\x7b\"type\":\" psrt\",\"revoked\":false\x7d"
    else "\x7b\"exp\":\" \",\"revoked\":null\x7d"))

def mistyped : PayloadSource := fun uri => bounded (if uri = "c" then "p" else uri)

def presented : Request := ⟨⟨"r", "i", "c", "p", none, none⟩⟩

theorem accepted_at_bounds :
    (Judgement.judge .structural bounded presented ⟨0, 0⟩ ⟨7⟩ = ⟨true, ⟨7⟩, ""⟩ ∧
        ∀ c ∈ order, c.Passes .structural bounded presented ⟨0, 0⟩) ∧
      Judgement.judge .structural mistyped presented ⟨0, 0⟩ ⟨7⟩ = ⟨false, ⟨7⟩, "invalid_cort"⟩ ∧
      ¬∀ c ∈ order, c.Passes .structural mistyped presented ⟨0, 0⟩ := by
  have haccepted : Judgement.judge .structural bounded presented ⟨0, 0⟩ ⟨7⟩ = ⟨true, ⟨7⟩, ""⟩ := by
    decide +kernel
  have hrejected : Judgement.judge .structural mistyped presented ⟨0, 0⟩ ⟨7⟩ =
      ⟨false, ⟨7⟩, "invalid_cort"⟩ := by decide +kernel
  obtain ⟨hbounded, -⟩ := judge_first_failure .structural bounded presented ⟨0, 0⟩ ⟨7⟩
  obtain ⟨hmistyped, -⟩ := judge_first_failure .structural mistyped presented ⟨0, 0⟩ ⟨7⟩
  refine ⟨⟨haccepted, hbounded.1 haccepted⟩, hrejected, fun hpasses => ?_⟩
  rw [hmistyped.2 hpasses] at hrejected
  cases hrejected

end Bounds

end Checkpoint

end CorridorTrust
