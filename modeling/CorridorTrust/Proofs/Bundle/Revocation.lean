import CorridorTrust.Proofs.Bundle.Authenticity
import CorridorTrust.Proofs.Publication.Loading

/-!
Revocation of one token. It is recorded in the token's payload, or by a flag of the entry that publishes
the token. A verification reads the payload alone, so that a revoked payload rejects every bundle it
stands in, and a flag changes no verdict.
-/

namespace CorridorTrust

open Time (Instant)

namespace Index

lemma find_map (x : Index) (f : Entry → Entry) (h : ∀ e, (f e).uri = e.uri) (uri : String) :
    (⟨x.entries.map f⟩ : Index).find uri = (x.find uri).map f := by
  have hsame : ((fun e : Entry => e.uri == uri) ∘ f) = fun e => e.uri == uri := by
    funext e
    simp [h]
  rw [find, find, List.find?_map, hsame]
  cases x.entries.find? (·.uri == uri) <;> rfl

end Index

namespace Snapshot

variable {s : Snapshot} {uri : String}

def Withdraws (s : Snapshot) (uri : String) : Prop :=
  ∃ bs terms, s.payload uri = .ok bs ∧ Terms.read bs = .ok terms ∧ terms.revoked = some true

def flagged (s : Snapshot) (flag : Entry → Bool) : Snapshot :=
  ⟨⟨s.index.entries.map fun e => { e with revoked := flag e }⟩, s.content⟩

lemma payload_flagged (s : Snapshot) (flag : Entry → Bool) : (s.flagged flag).payload = s.payload := by
  have hget (uri : String) : (s.flagged flag).get uri = s.get uri := by
    have hfind := Index.find_map s.index (fun e => { e with revoked := flag e }) (fun _ => rfl) uri
    change (s.flagged flag).index.find uri = _ at hfind
    rw [get, get, hfind]
    cases s.index.find uri <;> rfl
  funext uri
  rw [payload, payload, hget]

lemma Withdraws.shows (h : s.Withdraws uri) :
    ∃ ms, Payload.Shows s.payload uri ms ∧ Payload.IsRevoked ms := by
  obtain ⟨bs, terms, hbs, hterms, hrevoked⟩ := h
  obtain ⟨ms, hms, hof⟩ := Sequence.bind_eq_ok_iff.1 hterms
  have hread := Payload.read_eq_ok_iff.1 hms
  have hshows : Payload.Shows s.payload uri ms := ⟨bs, hbs, Json.Value.ne_nil_of_read? hread, hread⟩
  refine ⟨ms, hshows, ?_⟩
  apply (Terms.isRevoked_iff hshows.isMap.members hof).1
  simp [Terms.isRevoked, hrevoked]

/-- No bundle is accepted in which a payload is revoked, and no flag of an entry changes a verdict. -/
theorem verdict_of_withdrawn (v : Verifier) (s : Snapshot) (request : Request) (now : Instant)
    (epoch : Epoch) :
    (∀ role ∈ Role.mandatory, ∀ e ∈ s.index.entries, e.uri = request.tokens.get role →
        s.Withdraws e.uri → (Judgement.judge v s.payload request now epoch).valid = false) ∧
      ∀ flag : Entry → Bool, Judgement.judge v (s.flagged flag).payload request now epoch =
        Judgement.judge v s.payload request now epoch := by
  constructor
  · intro role hrole e _ huri hwithdraws
    obtain ⟨ms, hshows, hrevoked⟩ := hwithdraws.shows
    rw [huri] at hshows
    apply Bool.eq_false_iff.2
    intro hvalid
    have hcurrent := Checkpoint.isCurrent_of_passes (Checkpoint.passes_of_valid hvalid) hrole hshows
    exact hcurrent.unrevoked hrevoked
  · intro flag
    rw [payload_flagged]

section Flag

def flaggedEntries : List Entry :=
  [Entry.new "c" .cort "c", Entry.new "i" .imt "i", Entry.new "p" .psrt "p",
    { Entry.new "r" .rmt "r" with revoked := true }]

def payloads (rmt : String) : ContentSource := fun reference =>
  .ok (Utf8.ofString (
    if reference = "r" then rmt
    else if reference = "c" then "\x7b\"type\":\"CORT\"\x7d"
    else if reference = "p" then "\x7b\"type\":\"PSRT\"\x7d"
    else "\x7b\"type\":\"IMT\"\x7d"))

def withdrawn : Snapshot :=
  ⟨⟨flaggedEntries⟩, payloads "\x7b\"type\":\"RMT\",\"revoked\":true\x7d"⟩

def flaggedOnly : Snapshot := ⟨⟨flaggedEntries⟩, payloads "\x7b\"type\":\"RMT\"\x7d"⟩

def bundle : Request := ⟨⟨"r", "i", "c", "p", none, none⟩⟩

theorem verdict_withdrawn (v : Verifier) :
    (Judgement.judge v withdrawn.payload bundle ⟨0, 0⟩ ⟨1⟩).valid = false := by
  have hread : Terms.read (Utf8.ofString "\x7b\"type\":\"RMT\",\"revoked\":true\x7d") =
      .ok ⟨none, none, some true⟩ := by decide +kernel
  have hpublished : { Entry.new "r" .rmt "r" with revoked := true } ∈ withdrawn.index.entries := by
    decide +kernel
  exact (verdict_of_withdrawn v withdrawn bundle ⟨0, 0⟩ ⟨1⟩).1 .rmt (by decide) _ hpublished rfl
    ⟨_, _, rfl, hread, rfl⟩

theorem flagged_token_accepted : Index.build flaggedEntries = .ok flaggedOnly.index ∧
    (∃ e ∈ flaggedOnly.index.entries, e.uri = bundle.tokens.get .rmt ∧ e.revoked = true) ∧
    (Judgement.judge .structural flaggedOnly.payload bundle ⟨0, 0⟩ ⟨1⟩).valid = true := by
  refine ⟨?_, by decide +kernel, by decide +kernel⟩
  have hsort : Index.sort flaggedEntries = flaggedEntries :=
    List.mergeSort_of_pairwise (by decide +kernel)
  apply Index.build_eq_ok_iff.2
  rw [hsort]
  exact ⟨by simp [flaggedEntries], rfl, by unfold Index.Apart; decide +kernel⟩

end Flag

end Snapshot

end CorridorTrust
