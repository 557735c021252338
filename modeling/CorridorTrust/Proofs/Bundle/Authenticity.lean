import CorridorTrust.Proofs.Bundle.Checkpoints
import CorridorTrust.Proofs.Evidence.Sealing

namespace CorridorTrust

open Json (Value Members)
open Time (Instant)

namespace Payload

structure IsCurrent (ms : Members) (now : Instant) : Prop where
  wellFormed : IsWellFormed ms
  unrevoked : ¬IsRevoked ms
  started : ∀ s, Bounds ms "nbf" s → ∃ t, NamesInstant s t ∧ now.before t = false
  unended : ∀ s, Bounds ms "exp" s → ∃ t, NamesInstant s t ∧ t.before now = false

end Payload

namespace Checkpoint

open Payload

variable {v : Verifier} {source : PayloadSource} {request : Request} {now : Instant}

lemma passes_of_valid {epoch : Epoch} (h : (Judgement.judge v source request now epoch).valid = true)
    (c : Checkpoint) (hc : c ∈ order) : c.Passes v source request now := by
  have hcheck : Judgement.check v source request now = .ok () := by
    cases hx : Judgement.check v source request now with
    | ok u => rfl
    | error reason =>
      rw [Judgement.judge, hx] at h
      cases h
  exact (order_decides v source request now).eq_ok_iff.1 hcheck c hc

lemma isCurrent_of_passes {role : Role} {ms : Members} (h : ∀ c ∈ order, c.Passes v source request now)
    (hrole : role ∈ Role.mandatory) (hs : Shows source (request.tokens.get role) ms) :
    IsCurrent ms now := by
  have hterms : ∀ c ∈ [wellFormed role, unrevoked role, startReadable role, started role,
      endReadable role, unended role], c.Passes v source request now := by
    intro c hc
    apply h c
    apply List.mem_append_left
    apply List.mem_append_right
    exact List.mem_flatMap.2 ⟨role, hrole, List.mem_cons_of_mem _ hc⟩
  have hwellFormed : Passes v source request now (wellFormed role) := hterms _ (by simp)
  have hunrevoked : Passes v source request now (unrevoked role) := hterms _ (by simp)
  have hstartReadable : Passes v source request now (startReadable role) := hterms _ (by simp)
  have hstarted : Passes v source request now (started role) := hterms _ (by simp)
  have hendReadable : Passes v source request now (endReadable role) := hterms _ (by simp)
  have hunended : Passes v source request now (unended role) := hterms _ (by simp)
  constructor
  · exact hs.exists_iff.1 hwellFormed
  · exact hs.exists_iff.1 hunrevoked
  · intro s hbound
    obtain ⟨t, ht⟩ := hs.exists_iff.1 hstartReadable s hbound
    exact ⟨t, ht, hs.exists_iff.1 hstarted s t hbound ht⟩
  · intro s hbound
    obtain ⟨t, ht⟩ := hs.exists_iff.1 hendReadable s hbound
    exact ⟨t, ht, hs.exists_iff.1 hunended s t hbound ht⟩

lemma verified_mem_order {role : Role} (h : role ∈ Role.signed) : verified role ∈ order := by
  apply List.mem_append_right
  exact List.mem_map_of_mem h

end Checkpoint

namespace Snapshot

/-- When a bundle is accepted under a key set, the payload of each signed role is one object that a key
has signed and whose type and terms are those of the role now. Its members, but for the proof, are those
of an object of `S`, whichever objects the keys vouch for. -/
theorem accepted_authentic (keys : KeySet) (snapshot : Snapshot) (request : Request) (now : Instant)
    (epoch : Epoch)
    (h : (Judgement.judge (.ed25519 keys) snapshot.payload request now epoch).valid = true)
    (role : Role) (hrole : role ∈ Role.signed) :
    ∃ ms, Payload.Shows snapshot.payload (request.tokens.get role) ms ∧ keys.HasSigned ms ∧
      role.accepts (Payload.declaredType ms) = true ∧ Payload.IsCurrent ms now ∧
      ∀ S : Set Members, (∀ o ∈ S, (Value.object o).IsMap ∧ (Value.object o).IsRegular) →
        keys.Vouches S (Seal.message ms) → ∃ o ∈ S, ms.erase "proof" = o.erase "proof" := by
  have hpasses := Checkpoint.passes_of_valid h
  obtain ⟨ms, hshows, hsigned, htyped⟩ := hpasses _ (Checkpoint.verified_mem_order hrole)
  have hcurrent := Checkpoint.isCurrent_of_passes hpasses (Role.mem_mandatory_iff.2 (.inl hrole)) hshows
  refine ⟨ms, hshows, hsigned, Payload.isTypedFor_iff.1 htyped, hcurrent, fun S hS hvouches => ?_⟩
  obtain ⟨o, ho, hmessage⟩ := hsigned.vouched hvouches
  obtain ⟨hmap, hregular⟩ := hS o ho
  refine ⟨o, ho, ?_⟩
  exact Seal.erase_eq_of_message_eq hshows.isMap hmap hshows.isRegular hregular hmessage.symm

section Sealed

def issuer : Ed25519.PublicKey where
  bytes := [59, 106, 39, 188, 206, 182, 164, 45, 98, 163, 168, 208, 42, 111, 13, 115, 101, 50, 21, 119,
    29, 226, 67, 166, 58, 192, 72, 161, 139, 89, 218, 41]
  point := Curve.Point.ofAffine
    9639205628789703341510410801487549615560488670885798085067615194958049462616
    18930617471878267742194159801949745215346600387277955685031939302387136031291
  size := rfl
  decodes := by decide +kernel

def issuers : KeySet := KeySet.empty.insert "k" issuer

def attached (members signature : String) : Bytes :=
  Utf8.ofString (
    "\x7b" ++ members ++ ",\"proof\":\x7b\"kid\":\"k\",\"sig\":\"" ++ signature ++ "\"\x7d\x7d")

def attested : Snapshot where
  index := ⟨[Entry.new "c" .cort "c", Entry.new "i" .imt "i", Entry.new "p" .psrt "p",
    Entry.new "r" .rmt "r"]⟩
  content := fun reference =>
    .ok (
      if reference = "r" then
        attached "\"type\":\"RMT\",\"exp\":\"9999-01-01T00:00:00Z\""
          "RIG/xCpAtbjYExmVK1bSsDO3VNOs0wsgEUxFhvTCKJ32eoD8yypBfnCNeFoE4bV/WvU0V5qnNLxx5qHPlBOHAA=="
      else if reference = "c" then
        attached "\"type\":\"CORT\""
          "1lsWs3dIIufOa3/XeHMkfxeP3c1zqQqIVmW9ld9NskxvSD3f30zaf/HYtGS/23trGCksZI0I2gmuDC00TXK7Cg=="
      else if reference = "p" then
        attached "\"type\":\"PSRT\""
          "HXIDDkeM1e/YaSw4ZfKbMRI9ErPOqJKGBDUw+e7/3ACeYQFilApOUr2Xhy9pOELgasYW92aSWrrBpDy3AuaBAg=="
      else Utf8.ofString "\x7b\x7d")

def requested : Request := ⟨⟨"r", "i", "c", "p", none, none⟩⟩

theorem accepted_attested :
    (Judgement.judge (.ed25519 issuers) attested.payload requested ⟨0, 0⟩ ⟨1⟩).valid = true ∧
      ∃ ms, Payload.Shows attested.payload "r" ms ∧ issuers.HasSigned ms ∧ Payload.IsCurrent ms ⟨0, 0⟩ ∧
        ∀ o : Members, (Value.object o).IsMap → (Value.object o).IsRegular →
          issuers.Vouches {o} (Seal.message ms) → ms.erase "proof" = o.erase "proof" := by
  have hvalid : (Judgement.judge (.ed25519 issuers) attested.payload requested ⟨0, 0⟩ ⟨1⟩).valid =
      true := by decide +kernel
  obtain ⟨ms, hshows, hsigned, -, hcurrent, hauthentic⟩ :=
    accepted_authentic issuers attested requested ⟨0, 0⟩ ⟨1⟩ hvalid .rmt (by decide)
  refine ⟨hvalid, ms, hshows, hsigned, hcurrent, fun o hmap hregular hvouches => ?_⟩
  obtain ⟨o', ho', herase⟩ := hauthentic {o} (by simpa using ⟨hmap, hregular⟩) hvouches
  rw [herase, Set.mem_singleton_iff.1 ho']

end Sealed

end Snapshot

end CorridorTrust
