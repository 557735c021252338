import CorridorTrust.Proofs.Evidence.Reading
import CorridorTrust.Proofs.Json.Printing
import CorridorTrust.Proofs.Text.Utf8

/-!
What a signature vouches for. The signed message determines every member of the object but its proof, so
that keys whose signatures stand for some objects vouch for no other members.
-/

namespace CorridorTrust

open Json (Value Members)

namespace Payload

lemma Shows.isRegular {source : PayloadSource} {uri : String} {ms : Members}
    (h : Shows source uri ms) : (Value.object ms).IsRegular := by
  obtain ⟨bs, -, -, hv⟩ := h
  exact Value.isRegular_of_read? hv

end Payload

namespace Seal

lemma unsigned_eq {ms : Members} (h : (Value.object ms).IsMap) :
    unsigned ms = .object (ms.erase "proof") := by
  rw [unsigned]
  exact (h.erase "proof").normalize_eq_self

theorem erase_eq_of_message_eq {ms ms' : Members} (hmap : (Value.object ms).IsMap)
    (hmap' : (Value.object ms').IsMap) (hregular : (Value.object ms).IsRegular)
    (hregular' : (Value.object ms').IsRegular) (h : message ms = message ms') :
    ms.erase "proof" = ms'.erase "proof" := by
  have htext : canonicalText ms = canonicalText ms' := Utf8.ofString_injective h
  rw [canonicalText, canonicalText, unsigned_eq hmap, unsigned_eq hmap'] at htext
  have hvalue := Value.eq_of_compact_eq (hregular.erase "proof") (hregular'.erase "proof") htext
  simpa using hvalue

end Seal

namespace KeySet

/-- Whenever a key of the set verifies a signature of the message, the message is that of an object of
`S`. This is asked of one message: a key that can sign verifies some signature of every message. -/
def Vouches (keys : KeySet) (S : Set Members) (message : Bytes) : Prop :=
  ∀ kid key signature, (kid, key) ∈ keys.keys → Ed25519.verify key message signature = true →
    ∃ o ∈ S, Seal.message o = message

lemma HasSigned.vouched {keys : KeySet} {ms : Members} (h : keys.HasSigned ms) {S : Set Members}
    (hvouches : keys.Vouches S (Seal.message ms)) : ∃ o ∈ S, Seal.message o = Seal.message ms := by
  obtain ⟨v, p, key, signature, -, -, hkey, -, hverify⟩ := h
  exact hvouches p.kid key signature hkey hverify

end KeySet

end CorridorTrust
