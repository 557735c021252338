import CorridorTrust.Proofs.Bundle.Checkpoints
import CorridorTrust.Proofs.Evidence.Attachment
import CorridorTrust.Proofs.Json.Agreement

/-!
What a verdict can depend on. Each checkpoint looks at a few members of one payload, so that stores which
agree on these lead to one verdict, whatever else their payloads say and however they are written.
-/

namespace CorridorTrust

open Json (Value Members Tree)
open Time (Instant)

namespace Payload

variable {source source' : PayloadSource} {uri : String} {ms ms' : Members} {names : List String}

def AgreeOn (names : List String) (ms ms' : Members) : Prop :=
  ∀ name ∈ names, ms.get? name = ms'.get? name

lemma AgreeOn.refl (names : List String) (ms : Members) : AgreeOn names ms ms := fun _ _ => rfl

lemma AgreeOn.subset {more : List String} (h : AgreeOn more ms ms') (hnames : names ⊆ more) :
    AgreeOn names ms ms' := fun name hname => h name (hnames hname)

lemma AgreeOn.bounds_iff {name s : String} (h : AgreeOn names ms ms') (hname : name ∈ names) :
    Bounds ms name s ↔ Bounds ms' name s := by
  rw [Bounds, Bounds, h name hname]

def termNames : List String := ["nbf", "exp", "revoked"]

lemma AgreeOn.isWellFormed_iff (h : AgreeOn termNames ms ms') : IsWellFormed ms ↔ IsWellFormed ms' := by
  rw [IsWellFormed, IsWellFormed, h "nbf" (by simp [termNames]), h "exp" (by simp [termNames]),
    h "revoked" (by simp [termNames])]

lemma AgreeOn.isRevoked_iff (h : AgreeOn names ms ms') (hname : "revoked" ∈ names) :
    IsRevoked ms ↔ IsRevoked ms' := by
  rw [IsRevoked, IsRevoked, h _ hname]

lemma AgreeOn.isTypedFor_iff (h : AgreeOn names ms ms') (hname : "type" ∈ names) {role : Role} :
    IsTypedFor ms role ↔ IsTypedFor ms' role := by
  rw [IsTypedFor, IsTypedFor, h _ hname]

def ShowAgreeing (names : List String) (source source' : PayloadSource) (uri : String) : Prop :=
  ∃ ms ms', Shows source uri ms ∧ Shows source' uri ms' ∧ AgreeOn names ms ms'

def ShowSame (source source' : PayloadSource) (uri : String) : Prop :=
  ∃ ms, Shows source uri ms ∧ Shows source' uri ms

lemma ShowSame.showAgreeing (h : ShowSame source source' uri) (names : List String) :
    ShowAgreeing names source source' uri := by
  obtain ⟨ms, hs, hs'⟩ := h
  exact ⟨ms, ms, hs, hs', .refl names ms⟩

lemma shows_of_mem_texts (hflat : ∀ m ∈ ms, (∃ s, m.2 = .string s) ∨ ∃ b, m.2 = .bool b) {text : String}
    (htext : text ∈ Seal.texts (.object ms)) (hsource : source uri = .ok (Utf8.ofString text)) :
    Shows source uri (Members.ofList (Value.normalizeMembers ms)) := by
  have hnumbers : (Value.object ms).AllNumbers Json.Number.IsStable := by
    refine .object fun m hm => ?_
    rcases hflat m hm with ⟨s, hs⟩ | ⟨b, hb⟩
    · exact hs ▸ .string s
    · exact hb ▸ .bool b
  have hdepth : (Value.object ms).depth ≤ Value.maxDepth := by
    refine Value.depth_object_le_iff.2 ⟨_, rfl, fun m hm => ?_⟩
    rcases hflat m hm with ⟨s, hs⟩ | ⟨b, hb⟩ <;> simp [*, Value.depth]
  have hread := Seal.read?_normalize_of_mem_texts hnumbers hdepth htext
  rw [Value.normalize] at hread
  exact ⟨_, hsource, Value.ne_nil_of_read? hread, hread⟩

def Coincide (source source' : PayloadSource) (uri : String) : Prop :=
  ∃ bs bs' t u, source uri = .ok bs ∧ source' uri = .ok bs' ∧
    Tree.read? bs = some t ∧ Tree.read? bs' = some u ∧ t.Agrees u ∧
    (∃ ms, Value.ofTree? t = some (.object ms)) ∧ ∃ ms, Value.ofTree? u = some (.object ms)

lemma showSame_iff_coincide : ShowSame source source' uri ↔ Coincide source source' uri := by
  symm
  constructor
  · rintro ⟨bs, bs', t, u, hbs, hbs', ht, hu, hagrees, ⟨ms, hms⟩, ms', hms'⟩
    have hread : Value.read? bs = some (.object ms) := by rw [Value.read?, ht, Option.bind_some, hms]
    have hread' : Value.read? bs' = some (.object ms') := by
      rw [Value.read?, hu, Option.bind_some, hms']
    rw [← Tree.eq_of_agrees hagrees hms hms'] at hread'
    exact ⟨ms, ⟨bs, hbs, Value.ne_nil_of_read? hread, hread⟩,
      bs', hbs', Value.ne_nil_of_read? hread', hread'⟩
  · rintro ⟨ms, ⟨bs, hbs, -, hread⟩, bs', hbs', -, hread'⟩
    obtain ⟨t, ht, hms⟩ := Option.bind_eq_some_iff.1 hread
    obtain ⟨u, hu, hms'⟩ := Option.bind_eq_some_iff.1 hread'
    exact ⟨bs, bs', t, u, hbs, hbs', ht, hu, Tree.agrees_of_eq hms hms', ⟨ms, hms⟩, ms, hms'⟩

end Payload

namespace Checkpoint

open Payload

def role : Checkpoint → Role
  | given r | found r | wellFormed r | unrevoked r | startReadable r | started r | endReadable r
  | unended r | verified r => r

def names : Checkpoint → List String
  | given _ | found _ => []
  | wellFormed _ => termNames
  | unrevoked _ => ["revoked"]
  | startReadable _ | started _ => ["nbf"]
  | endReadable _ | unended _ => ["exp"]
  | verified _ => ["type"]

variable {v : Verifier} {source source' : PayloadSource} {request request' : Request} {now : Instant}
  {ms ms' : Members} {c : Checkpoint}

lemma passes_found {r : Role} (h : Shows source (request.tokens.get r) ms) :
    Passes v source request now (found r) := by
  obtain ⟨bs, hbs, hne, -⟩ := h
  constructor
  · simpa [hbs] using hne
  · simp [hbs]

lemma passes_iff (hs : Shows source (request.tokens.get c.role) ms)
    (hs' : Shows source' (request'.tokens.get c.role) ms')
    (hgiven : request.tokens.get c.role = request'.tokens.get c.role) (h : AgreeOn c.names ms ms')
    (htrust : c = verified c.role → (v.Trusts ms ↔ v.Trusts ms')) :
    Passes v source request now c ↔ Passes v source' request' now c := by
  -- with one object shown on each side, a checkpoint asks something of that object alone
  cases c with
  | given r =>
    rw [role] at hgiven
    rw [Passes, Passes, hgiven]
  | found r => exact iff_of_true (passes_found hs) (passes_found hs')
  | wellFormed r => exact hs.exists_iff.trans (h.isWellFormed_iff.trans hs'.exists_iff.symm)
  | unrevoked r =>
    refine hs.exists_iff.trans (.trans ?_ hs'.exists_iff.symm)
    exact not_congr (h.isRevoked_iff List.mem_cons_self)
  | startReadable r | endReadable r =>
    refine hs.exists_iff.trans (.trans ?_ hs'.exists_iff.symm)
    exact forall_congr' fun s => imp_congr_left (h.bounds_iff List.mem_cons_self)
  | started r | unended r =>
    refine hs.exists_iff.trans (.trans ?_ hs'.exists_iff.symm)
    exact forall₂_congr fun s t => imp_congr_left (h.bounds_iff List.mem_cons_self)
  | verified r =>
    refine hs.exists_iff.trans (.trans ?_ hs'.exists_iff.symm)
    exact and_congr (htrust rfl) (h.isTypedFor_iff List.mem_cons_self)

lemma reason_eq (hgiven : request.tokens.get c.role = request'.tokens.get c.role) :
    c.reason request = c.reason request' := by
  cases c <;> simp_all [role, reason]

lemma role_mem_mandatory : ∀ c ∈ order, c.role ∈ Role.mandatory := by decide

lemma names_subset : ∀ c ∈ order, (c.names ⊆ termNames ∧ c ≠ verified c.role) ∨
    (c.names = ["type"] ∧ c.role ∈ Role.signed) := by decide

lemma judge_eq {epoch : Epoch}
    (hgiven : ∀ r ∈ Role.mandatory, request.tokens.get r = request'.tokens.get r)
    (hterms : ∀ r ∈ Role.mandatory, ShowAgreeing termNames source source' (request.tokens.get r))
    (hsigned : ∀ r ∈ Role.signed, ∃ ms ms', Shows source (request.tokens.get r) ms ∧
      Shows source' (request.tokens.get r) ms' ∧ AgreeOn ["type"] ms ms' ∧ (v.Trusts ms ↔ v.Trusts ms')) :
    Judgement.judge v source request now epoch = Judgement.judge v source' request' now epoch := by
  have hsame : ∀ c ∈ order, (Passes v source request now c ↔ Passes v source' request' now c) ∧
      c.reason request = c.reason request' := by
    intro c hc
    have hrole := role_mem_mandatory c hc
    refine ⟨?_, reason_eq (hgiven _ hrole)⟩
    -- the verifier has a say only where a signed token is verified
    rcases names_subset c hc with ⟨hnames, hother⟩ | ⟨hnames, hverified⟩
    · obtain ⟨ms, ms', hs, hs', hagree⟩ := hterms _ hrole
      rw [hgiven _ hrole] at hs'
      exact passes_iff hs hs' (hgiven _ hrole) (hagree.subset hnames) fun h => absurd h hother
    · obtain ⟨ms, ms', hs, hs', hagree, htrust⟩ := hsigned _ hverified
      rw [hgiven _ hrole] at hs'
      exact passes_iff hs hs' (hgiven _ hrole) (hnames ▸ hagree) fun _ => htrust
  have hcheck := (order_decides v source request now).eq_of_same (order_decides v source' request' now) hsame
  rw [Judgement.judge, Judgement.judge, hcheck]

end Checkpoint

namespace Snapshot

open Payload

/-- Two stores under one index lead to one verdict where they show the same objects for the tokens that
must be given. For the token that is not signed the terms of the objects are enough, and without keys the
terms of all tokens and the types of the signed ones. What the optional tokens are plays no part. -/
theorem judged_alike (index : Index) (content content' : ContentSource) (request request' : Request)
    (now : Instant) (epoch : Epoch)
    (hgiven : ∀ r ∈ Role.mandatory, request.tokens.get r = request'.tokens.get r) :
    let source := payload ⟨index, content⟩
    let source' := payload ⟨index, content'⟩
    ((∀ r ∈ Role.mandatory, ShowSame source source' (request.tokens.get r)) →
      ∀ v, Judgement.judge v source request now epoch = Judgement.judge v source' request' now epoch) ∧
    ((∀ r ∈ Role.signed, ShowSame source source' (request.tokens.get r)) →
      ShowAgreeing termNames source source' request.tokens.imt →
      ∀ v, Judgement.judge v source request now epoch = Judgement.judge v source' request' now epoch) ∧
    ((∀ r ∈ Role.mandatory, ShowAgreeing termNames source source' (request.tokens.get r)) →
      (∀ r ∈ Role.signed, ShowAgreeing ["type"] source source' (request.tokens.get r)) →
      Judgement.judge .structural source request now epoch =
        Judgement.judge .structural source' request' now epoch) ∧
    ∀ uri, ShowSame source source' uri ↔ Coincide source source' uri := by
  intro source source'
  have hsame : (∀ r ∈ Role.signed, ShowSame source source' (request.tokens.get r)) →
      ShowAgreeing termNames source source' request.tokens.imt →
      ∀ v, Judgement.judge v source request now epoch = Judgement.judge v source' request' now epoch := by
    intro hsigned himt v
    apply Checkpoint.judge_eq hgiven
    · intro r hr
      rcases Role.mem_mandatory_iff.1 hr with hr | rfl
      · exact (hsigned r hr).showAgreeing termNames
      · exact himt
    · intro r hr
      obtain ⟨ms, hs, hs'⟩ := hsigned r hr
      exact ⟨ms, ms, hs, hs', .refl _ ms, Iff.rfl⟩
  refine ⟨fun hall => ?_, hsame, fun hterms htypes => ?_, fun uri => showSame_iff_coincide⟩
  · apply hsame
    · exact fun r hr => hall r (Role.mem_mandatory_iff.2 (.inl hr))
    · exact (hall .imt (by decide)).showAgreeing termNames
  · apply Checkpoint.judge_eq hgiven hterms
    intro r hr
    obtain ⟨ms, ms', hs, hs', htype⟩ := htypes r hr
    exact ⟨ms, ms', hs, hs', htype, Iff.rfl⟩

section Restated

def plainMembers (reference : String) : Members :=
  if reference = "r" then [("revoked", .bool false), ("type", .string "RMT")]
  else if reference = "c" then [("type", .string "CORT")]
  else if reference = "p" then [("type", .string "PSRT")]
  else [("exp", .string "9999-01-01T00:00:00Z")]

def restatedMembers (reference : String) : Members :=
  if reference = "r" then [("type", .string "RMT"), ("revoked", .bool true), ("revoked", .bool false)]
  else if reference = "i" then
    [("type", .string "RMT"), ("proof", .string "?"), ("exp", .string "9999-01-01T00:00:00Z")]
  else plainMembers reference

def plainTokens : ContentSource := fun reference =>
  .ok (Utf8.ofString (Value.object (plainMembers reference)).compact)

def restatedTokens : ContentSource := fun reference =>
  .ok (Utf8.ofString (Value.object (restatedMembers reference)).indented)

def tokensIndex : Index :=
  ⟨[Entry.new "c" .cort "c", Entry.new "i" .imt "i", Entry.new "p" .psrt "p", Entry.new "r" .rmt "r"]⟩

def tokensRequest : Request := ⟨⟨"r", "i", "c", "p", none, none⟩⟩

theorem restated_judged_alike :
    let plain := payload ⟨tokensIndex, plainTokens⟩
    let restated := payload ⟨tokensIndex, restatedTokens⟩
    Judgement.judge .structural plain tokensRequest ⟨0, 0⟩ ⟨1⟩ = .accepted ⟨1⟩ ∧
      ∀ v, Judgement.judge v plain tokensRequest ⟨0, 0⟩ ⟨1⟩ = Judgement.judge v restated
        ⟨{ tokensRequest.tokens with amls := some "r", amlv := some "?" }⟩ ⟨0, 0⟩ ⟨1⟩ := by
  intro plain restated
  have hplain : ∀ uri ∈ ["r", "i", "c", "p"],
      Shows plain uri (Members.ofList (Value.normalizeMembers (plainMembers uri))) := by
    intro uri huri
    have hsource : ∀ uri ∈ ["r", "i", "c", "p"],
        plain uri = .ok (Utf8.ofString (Value.object (plainMembers uri)).compact) := by decide +kernel
    apply shows_of_mem_texts _ (by simp [Seal.texts]) (hsource uri huri)
    fin_cases huri <;> simp [plainMembers]
  have hrestated : ∀ uri ∈ ["r", "i", "c", "p"],
      Shows restated uri (Members.ofList (Value.normalizeMembers (restatedMembers uri))) := by
    intro uri huri
    have hsource : ∀ uri ∈ ["r", "i", "c", "p"],
        restated uri = .ok (Utf8.ofString (Value.object (restatedMembers uri)).indented) := by
      decide +kernel
    apply shows_of_mem_texts _ (by simp [Seal.texts]) (hsource uri huri)
    fin_cases huri <;> simp [restatedMembers, plainMembers]
  have hsame : ∀ uri ∈ ["r", "c", "p"], ShowSame plain restated uri := by
    intro uri huri
    have hmember : uri ∈ ["r", "i", "c", "p"] := by fin_cases huri <;> simp
    have hmembers : Members.ofList (Value.normalizeMembers (plainMembers uri)) =
        Members.ofList (Value.normalizeMembers (restatedMembers uri)) := by
      fin_cases huri <;> rfl
    exact ⟨_, hplain uri hmember, hmembers ▸ hrestated uri hmember⟩
  have hterms : ShowAgreeing termNames plain restated "i" := by
    refine ⟨_, _, hplain "i" (by simp), hrestated "i" (by simp), fun name hname => ?_⟩
    fin_cases hname <;> rfl
  have hrefs : ∀ r ∈ Role.signed, tokensRequest.tokens.get r ∈ ["r", "c", "p"] := by decide
  obtain ⟨-, halike, -⟩ := judged_alike tokensIndex plainTokens restatedTokens tokensRequest
    ⟨{ tokensRequest.tokens with amls := some "r", amlv := some "?" }⟩ ⟨0, 0⟩ ⟨1⟩ (by decide)
  exact ⟨by decide +kernel, halike (fun r hr => hsame _ (hrefs r hr)) hterms⟩

end Restated

end Snapshot

end CorridorTrust
