import CorridorTrust.Command.Program
import CorridorTrust.Proofs.Bundle.Authenticity
import CorridorTrust.Proofs.Codec.Base64
import CorridorTrust.Proofs.Json.Indentation

/-!
Attached seals. A seal sets the proof of an object and leaves its other members and its message alone;
what is printed of the sealed object is read back as the same object, so that the signature in its proof
stands for the message that was signed.
-/

namespace CorridorTrust

open Json (Value Members Number)

namespace Ed25519

structure KeyPair where
  secret : SecretKey
  publicKey : PublicKey
  matching : publicKey.bytes = secret.publicBytes

/-- Verification accepts the signature that signing produces for the message. -/
def KeyPair.Signs (pair : KeyPair) (message : Bytes) : Prop :=
  verify pair.publicKey message (sign pair.secret message) = true

end Ed25519

namespace Seal

open Ed25519 (KeyPair SecretKey)

lemma get?_attach (key : SecretKey) (kid : String) (ms : Members) (k : String) :
    (attach key kid ms).get? k =
      if k = "proof" then some (Proof.toJson ⟨kid, sign key (message ms)⟩) else ms.get? k := by
  split_ifs with hk
  · subst hk
    exact Members.get?_insert_self _ _ _
  · exact Members.get?_insert_of_ne hk _ _

lemma message_attach (key : SecretKey) (kid : String) (ms : Members) :
    message (attach key kid ms) = message ms := by
  simp only [message, canonicalText, unsigned, attach, Members.erase_insert]

lemma attach_attach (key key' : SecretKey) (kid kid' : String) (ms : Members) :
    attach key' kid' (attach key kid ms) = attach key' kid' ms := by
  rw [attach, message_attach, attach, Members.insert_insert]
  rfl

lemma declaredType_attach (key : SecretKey) (kid : String) (ms : Members) :
    Payload.declaredType (attach key kid ms) = Payload.declaredType ms := by
  have htype : (attach key kid ms).get? "type" = ms.get? "type" := get?_attach key kid ms "type"
  rw [Payload.declaredType, Payload.declaredType, htype]

lemma isLegible_attach {ms : Members} (h : (Value.object ms).IsLegible Value.maxDepth)
    (key : SecretKey) (kid : String) :
    (Value.object (attach key kid ms)).IsLegible Value.maxDepth := by
  apply Value.IsLegible.insert h
  have hmap : Members.IsMap [("kid", .string kid), ("sig", .string (sign key (message ms)))] :=
    List.pairwise_pair.2 (show "kid" < "sig" by decide +kernel)
  refine .object hmap fun m hm => ?_
  rcases List.mem_pair.1 hm with rfl | rfl
  · exact .string _
  · exact .string _

lemma hasSigned_attach {ms : Members} {keys : KeySet} {pair : KeyPair} {kid : String}
    (hkey : keys.get kid = .ok pair.publicKey) (hpair : pair.Signs (message ms)) :
    keys.HasSigned (attach pair.secret kid ms) := by
  refine ⟨_, ⟨kid, sign pair.secret (message ms)⟩, pair.publicKey,
    Ed25519.sign pair.secret (message ms), get?_attach _ _ _ _, .object rfl rfl,
    KeySet.get_eq_ok_iff.1 hkey, ?_, ?_⟩
  · rw [sign, String.toList_ofList, Base64.decode?_encode Base64.isReadable_standard]
  · rw [message_attach]
    exact hpair

lemma sealReport_eq {c : Command.Context} {payload file kid : String} {bs : Bytes} {ms : Members}
    {key : SecretKey} (hpayload : c.world.files.read payload = .ok bs)
    (hkey : Command.readSecret c file = .ok key) (hread : Value.read? bs = some (.object ms)) :
    Command.sealReport c payload kid file =
      .ofLines [(Value.object (attach key kid ms)).indented] := by
  have hfile : Command.readFile c payload = .ok bs := by rw [Command.readFile, hpayload]
  have hsealed : Command.sealed c payload kid file = .ok (.object (attach key kid ms)) := by
    rw [Command.sealed, hkey, Sequence.ok_bind, hfile, Sequence.ok_bind, hread]
    rfl
  rw [Command.sealReport, hsealed]

def texts (v : Value) : List String := [v.compact, v.indented, v.indented ++ "\n"]

lemma scan?_of_mem_texts {v : Value} (h : v.IsRegular) {text : String} (ht : text ∈ texts v) :
    Json.Token.scan? (Utf8.ofString text) = some v.tokens := by
  simp only [texts, List.mem_cons, List.not_mem_nil, or_false] at ht
  rcases ht with rfl | rfl | rfl
  · exact Value.scan?_compact h
  · have hscan := Value.scan?_indented h "" (by simp)
    rwa [String.append_empty] at hscan
  · exact Value.scan?_indented h "\n" (by simp [Json.Token.isSpace])

lemma read?_normalize_of_mem_texts {v : Value} (hnumbers : v.AllNumbers Json.Number.IsStable)
    (hdepth : v.depth ≤ Value.maxDepth) {text : String} (ht : text ∈ texts v) :
    Value.read? (Utf8.ofString text) = some v.normalize :=
  Value.read?_normalize_of_scan? hnumbers hdepth
    (scan?_of_mem_texts hnumbers.isRegular_of_isStable ht)

lemma read?_of_mem_texts {v : Value} (h : v.IsLegible Value.maxDepth) {text : String}
    (ht : text ∈ texts v) : Value.read? (Utf8.ofString text) = some v :=
  h.read?_of_scan? (scan?_of_mem_texts h.isRegular ht)

/-- A sealed payload is accepted from each of its texts for every role that its type fits, and sealing
changes nothing but the proof. -/
theorem verifyRole_attach (bs : Bytes) (ms : Members) (pair : KeyPair) (kid : String) (keys : KeySet)
    (role : Role) (hread : Value.read? bs = some (.object ms))
    (hdoubles : (Value.object ms).AllNumbers Number.IsFaithful)
    (hkey : keys.get kid = .ok pair.publicKey) (hrole : role.isSigned = true)
    (htype : role.accepts (Payload.declaredType ms) = true) (hpair : pair.Signs (message ms)) :
    let sealed := attach pair.secret kid ms
    (sealed.IsMap ∧ sealed.erase "proof" = ms.erase "proof" ∧ ∀ k, sealed.get? k =
      if k = "proof" then some (Proof.toJson ⟨kid, sign pair.secret (message ms)⟩) else ms.get? k) ∧
    (∀ c payload file, c.world.files.read payload = .ok bs →
      Command.readSecret c file = .ok pair.secret →
      Command.sealReport c payload kid file = .ofLines [(Value.object sealed).indented]) ∧
    (∀ text ∈ texts (.object sealed), ∀ source uri, source uri = .ok (Utf8.ofString text) →
      (Verifier.ed25519 keys).verifyRole source role uri = .ok ()) ∧
    ∀ key kid', attach key kid' sealed = attach key kid' ms := by
  intro sealed
  have hlegible : (Value.object sealed).IsLegible Value.maxDepth :=
    isLegible_attach (Value.isLegible_of_read? hread hdoubles) pair.secret kid
  refine ⟨⟨hlegible.isMap.members, Members.erase_insert _ _ _, get?_attach _ _ _⟩, ?_, ?_, ?_⟩
  · intro c payload file hpayload hsecret
    exact sealReport_eq hpayload hsecret hread
  · intro text ht source uri hsource
    have hsealed := read?_of_mem_texts hlegible ht
    apply (Verifier.verifyRole_eq_ok_iff hrole).2
    refine ⟨sealed, ⟨_, hsource, Value.ne_nil_of_read? hsealed, hsealed⟩, ?_, ?_⟩
    · exact hasSigned_attach hkey hpair
    · rw [Payload.isTypedFor_iff, declaredType_attach]
      exact htype
  · intro key kid'
    exact attach_attach pair.secret key kid kid' ms

section Limits

def issuerPair : KeyPair where
  secret := ⟨List.replicate 32 0⟩
  publicKey := Snapshot.issuer
  matching := by decide +kernel

def limits : Members :=
  [("lim", .array [.number (.integer (-2)), .number (.double ⟨false, Nat.pow 2 52, -53⟩)]),
    ("note", .string "\"q\"\n"), ("type", .string "RMT")]

def limitsText : String :=
  "\x7b \"type\": \"RMT\", \"note\": \"\\u0022q\\\"\\n\", \"lim\": [-2, 5e-1] \x7d"

lemma isLegible_limits : (Value.object limits).IsLegible Value.maxDepth := by
  have hmap : limits.IsMap := by
    show List.Pairwise (fun a b => a.1 < b.1) limits
    decide +kernel
  have hinteger : (Number.integer (-2)).IsStable := by
    show Json.Numeral.number? _ = _
    decide +kernel
  have hdouble : (Number.double ⟨false, Nat.pow 2 52, -53⟩).IsStable := by
    show Json.Numeral.number? _ = _
    decide +kernel
  refine .object hmap fun m hm => ?_
  simp only [limits, List.mem_cons, List.not_mem_nil, or_false] at hm
  rcases hm with rfl | rfl | rfl
  · refine .array fun v hv => ?_
    rcases List.mem_pair.1 hv with rfl | rfl
    · exact .number hinteger
    · exact .number hdouble
  · exact .string _
  · exact .string _

lemma read?_limitsText : Value.read? (Utf8.ofString limitsText) = some (.object limits) := by
  have htext : (Value.read? (Utf8.ofString limitsText)).map Value.compact =
      some (Value.object limits).compact := by decide +kernel
  obtain ⟨v, hv, hcompact⟩ := Option.map_eq_some_iff.1 htext
  rw [hv, Value.eq_of_compact_eq (Value.isRegular_of_read? hv) isLegible_limits.isRegular hcompact]

theorem accepted_limits : issuerPair.Signs (message limits) ∧
    ∀ text ∈ texts (.object (attach issuerPair.secret "k" limits)),
      (Verifier.ed25519 Snapshot.issuers).verifyRole (fun _ => .ok (Utf8.ofString text)) .rmt "r" =
        .ok () := by
  have hsigns : issuerPair.Signs (message limits) := by
    show Ed25519.verify _ _ _ = true
    decide +kernel
  have hdoubles : (Value.object limits).AllNumbers Number.IsFaithful :=
    isLegible_limits.allNumbers.imp fun _ hn => Value.isFaithful_of_isStable hn
  obtain ⟨-, -, haccepted, -⟩ := verifyRole_attach (Utf8.ofString limitsText) limits issuerPair "k"
    Snapshot.issuers .rmt read?_limitsText hdoubles rfl rfl rfl hsigns
  exact ⟨hsigns, fun text ht => haccepted text ht _ "r" rfl⟩

end Limits

end Seal

end CorridorTrust
