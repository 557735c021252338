import Mathlib
import CorridorTrust.Evidence.Verifier
import CorridorTrust.Proofs.Json.Reading
import CorridorTrust.Proofs.Sequence

namespace CorridorTrust

open Json (Value Tree Members)
open Time (Instant)

namespace Payload

/-- The payload of the identifier is there and shows the object with these members. -/
def Shows (source : PayloadSource) (uri : String) (ms : Members) : Prop :=
  ∃ bs, source uri = .ok bs ∧ bs ≠ [] ∧ Value.read? bs = some (.object ms)

def IsText (v : Option Value) : Prop := v = none ∨ v = some .null ∨ ∃ s, v = some (.string s)

def IsFlag (v : Option Value) : Prop := v = none ∨ v = some .null ∨ ∃ b, v = some (.bool b)

def IsWellFormed (ms : Members) : Prop :=
  IsText (ms.get? "nbf") ∧ IsText (ms.get? "exp") ∧ IsFlag (ms.get? "revoked")

def IsRevoked (ms : Members) : Prop := ms.get? "revoked" = some (.bool true)

def IsTypedFor (ms : Members) (role : Role) : Prop :=
  ∃ s, ms.get? "type" = some (.string s) ∧ role.accepts s = true

def Bounds (ms : Members) (name s : String) : Prop :=
  ms.get? name = some (.string s) ∧ Text.isBlankText s = false

def NamesInstant (s : String) (t : Instant) : Prop := Time.Timestamp.read (Text.trim s) = .ok t

variable {source : PayloadSource} {uri : String} {ms ms' : Members} {role : Role}

lemma isTypedFor_iff : IsTypedFor ms role ↔ role.accepts (declaredType ms) = true := by
  rw [IsTypedFor, declaredType]
  split
  next s hs => simp [hs]
  next hnone =>
    -- the empty text is the name of no tag
    have hempty : role.accepts "" = false := by cases role <;> decide
    constructor
    · rintro ⟨s, hs, -⟩
      exact absurd hs (hnone s)
    · intro h
      rw [hempty] at h
      cases h

lemma Shows.unique (h : Shows source uri ms) (h' : Shows source uri ms') : ms = ms' := by
  obtain ⟨bs, hbs, -, hv⟩ := h
  obtain ⟨bs', hbs', -, hv'⟩ := h'
  obtain rfl : bs = bs' := by simpa [hbs] using hbs'
  simpa [hv] using hv'

lemma Shows.exists_iff (h : Shows source uri ms) {P : Members → Prop} :
    (∃ ms, Shows source uri ms ∧ P ms) ↔ P ms :=
  ⟨fun ⟨_, h', hp⟩ => h.unique h' ▸ hp, fun hp => ⟨ms, h, hp⟩⟩

lemma Shows.isMap (h : Shows source uri ms) : (Value.object ms).IsMap := by
  obtain ⟨bs, -, -, hv⟩ := h
  exact Value.isMap_of_read? hv

lemma read_eq_ok_iff {bs : Bytes} : read bs = .ok ms ↔ Value.read? bs = some (.object ms) := by
  rw [read]
  split <;> simp_all

lemma bind_read_eq_ok_iff {α : Type} {f : Members → Except Fault α} {a : α} :
    (source uri >>= fun bs => read bs >>= f) = .ok a ↔ ∃ ms, Shows source uri ms ∧ f ms = .ok a := by
  constructor
  · intro h
    cases hs : source uri with
    | error fault => rw [hs] at h; cases h
    | ok bs =>
      rw [hs] at h
      change (read bs >>= f) = .ok a at h
      cases hr : read bs with
      | error fault => rw [hr] at h; cases h
      | ok ms =>
        rw [hr] at h
        have hv := read_eq_ok_iff.1 hr
        exact ⟨ms, ⟨bs, hs, Value.ne_nil_of_read? hv, hv⟩, h⟩
  · rintro ⟨ms, ⟨bs, hs, -, hv⟩, h⟩
    rw [hs, ← h]
    change (read bs >>= f) = f ms
    rw [read_eq_ok_iff.2 hv]
    rfl

end Payload

namespace Terms

open Payload

def textField? : Option Value → Option (Option String)
  | none | some .null => some none
  | some (.string s) => some (some s)
  | some _ => none

def flagField? : Option Value → Option (Option Bool)
  | none | some .null => some none
  | some (.bool b) => some (some b)
  | some _ => none

lemma orElse_string (v : Option Value) :
    Tree.orElse none (Tree.nullable Tree.string?) (v.map Value.toTree) = textField? v := by
  rcases v with _ | (_ | _ | _ | _ | _ | _) <;> rfl

lemma orElse_bool (v : Option Value) :
    Tree.orElse none (Tree.nullable Tree.bool?) (v.map Value.toTree) = flagField? v := by
  rcases v with _ | (_ | _ | _ | _ | _ | _) <;> rfl

lemma textField?_isSome_iff (v : Option Value) : (textField? v).isSome ↔ IsText v := by
  rcases v with _ | (_ | _ | _ | _ | _ | _) <;> simp [textField?, IsText]

lemma flagField?_isSome_iff (v : Option Value) : (flagField? v).isSome ↔ IsFlag v := by
  rcases v with _ | (_ | _ | _ | _ | _ | _) <;> simp [flagField?, IsFlag]

variable {ms : Members} {terms : Terms}

lemma ofMembers_eq_ok_iff (h : ms.IsMap) : ofMembers ms = .ok terms ↔
    textField? (ms.get? "nbf") = some terms.notBefore ∧
      textField? (ms.get? "exp") = some terms.expires ∧
      flagField? (ms.get? "revoked") = some terms.revoked := by
  have htree : ofTree? (Value.object ms).toTree = some terms ↔
      textField? (ms.get? "nbf") = some terms.notBefore ∧
        textField? (ms.get? "exp") = some terms.expires ∧
        flagField? (ms.get? "revoked") = some terms.revoked := by
    obtain ⟨nbf, exp, revoked⟩ := terms
    simp only [ofTree?, h.fields?, orElse_string, orElse_bool, Option.bind_eq_bind, Option.bind_some,
      Option.bind_eq_some_iff, Option.some.injEq, Terms.mk.injEq]
    grind
  rw [← htree, ofMembers]
  cases ofTree? (Value.object ms).toTree <;> simp

lemma exists_ofMembers_iff (h : ms.IsMap) :
    (∃ terms, ofMembers ms = .ok terms) ↔ IsWellFormed ms := by
  rw [IsWellFormed, ← textField?_isSome_iff, ← textField?_isSome_iff, ← flagField?_isSome_iff]
  simp only [Option.isSome_iff_exists]
  constructor
  · rintro ⟨terms, ht⟩
    obtain ⟨h₁, h₂, h₃⟩ := (ofMembers_eq_ok_iff h).1 ht
    exact ⟨⟨_, h₁⟩, ⟨_, h₂⟩, ⟨_, h₃⟩⟩
  · rintro ⟨⟨nbf, h₁⟩, ⟨exp, h₂⟩, ⟨revoked, h₃⟩⟩
    exact ⟨⟨nbf, exp, revoked⟩, (ofMembers_eq_ok_iff h).2 ⟨h₁, h₂, h₃⟩⟩

lemma isRevoked_iff (hm : ms.IsMap) (h : ofMembers ms = .ok terms) :
    terms.isRevoked = true ↔ IsRevoked ms := by
  obtain ⟨-, -, hr⟩ := (ofMembers_eq_ok_iff hm).1 h
  revert hr
  rw [isRevoked, IsRevoked]
  generalize terms.revoked = revoked
  rcases ms.get? "revoked" with _ | (_ | b | _ | _ | _ | _) <;> rintro ⟨⟩ <;> simp

lemma bound_cases {name : String} {raw : Option String}
    (h : textField? (ms.get? name) = some raw) :
    (bound raw = .ok none ∧ ¬∃ s, Bounds ms name s) ∨
      (∃ s t, bound raw = .ok (some t) ∧ Bounds ms name s ∧ NamesInstant s t) ∨
      ∃ s fault, bound raw = .error fault ∧ Bounds ms name s ∧ ¬∃ t, NamesInstant s t := by
  unfold Bounds NamesInstant
  revert h
  rcases ms.get? name with _ | (_ | _ | _ | s | _ | _) <;> rintro ⟨⟩
  · exact .inl ⟨rfl, by simp⟩
  · exact .inl ⟨rfl, by simp⟩
  · cases hs : Text.isBlankText s with
    | true => exact .inl ⟨by simp [bound, hs], by rintro ⟨_, ⟨⟩, hb⟩; simp [hs] at hb⟩
    | false =>
      cases ht : Time.Timestamp.read (Text.trim s) with
      | ok t =>
        refine .inr (.inl ⟨s, t, ?_, ⟨rfl, hs⟩, ht⟩)
        simp [bound, hs, Instant.parse, ht, Except.map]
      | error defect =>
        refine .inr (.inr ⟨s, .invalidTimestamp (Text.trim s) defect, ?_, ⟨rfl, hs⟩, by simp [ht]⟩)
        simp [bound, hs, Instant.parse, ht, Except.map]

end Terms

namespace Proof

inductive Stands (p : Proof) : Value → Prop
  | object {ms : Members} (hkid : ms.get? "kid" = some (.string p.kid))
      (hsig : ms.get? "sig" = some (.string p.signature)) : Stands p (.object ms)
  | list : Stands p (.array [.string p.kid, .string p.signature])

lemma required_string_eq_some_iff {v : Option Value} {s : String} :
    Tree.required Tree.string? (v.map Value.toTree) = some s ↔ v = some (.string s) := by
  rcases v with _ | (_ | _ | _ | _ | _ | _) <;> simp [Tree.required, Tree.string?, Value.toTree]

lemma ofTree?_eq_some_iff {p : Proof} {f : Tree.Fields} {t : Tree}
    (hf : t.fields? ["kid", "sig"] = some f) : ofTree? t = some p ↔
      Tree.required Tree.string? (f "kid") = some p.kid ∧
        Tree.required Tree.string? (f "sig") = some p.signature := by
  obtain ⟨kid, sig⟩ := p
  simp only [ofTree?, hf, Option.bind_eq_bind, Option.bind_some, Option.bind_eq_some_iff,
    Option.some.injEq, Proof.mk.injEq]
  grind

lemma ofTree?_toTree_iff {p : Proof} {v : Value} (h : v.IsMap) :
    ofTree? v.toTree = some p ↔ p.Stands v := by
  cases h with
  | null | bool _ | number _ | string _ =>
    constructor
    · rintro ⟨⟩
    · rintro ⟨⟩
  | @object ms hms _ =>
    rw [ofTree?_eq_some_iff (hms.fields? _), required_string_eq_some_iff, required_string_eq_some_iff]
    constructor
    · rintro ⟨hkid, hsig⟩
      exact .object hkid hsig
    · rintro ⟨⟩
      exact ⟨‹_›, ‹_›⟩
  | @array es _ =>
    rw [Value.toTree, Value.toTrees_eq_map]
    by_cases hlen : es.length ≤ 2
    · have hf : (Tree.array (es.map Value.toTree)).fields? ["kid", "sig"] =
          some fun name => (es[["kid", "sig"].idxOf name]?).map Value.toTree := by
        simp [Tree.fields?, hlen]
      rw [ofTree?_eq_some_iff hf, required_string_eq_some_iff, required_string_eq_some_iff]
      change es[0]? = _ ∧ es[1]? = _ ↔ _
      rcases es with _ | ⟨a, _ | ⟨b, _ | ⟨c, es⟩⟩⟩
      · exact iff_of_false (by simp) (by rintro ⟨⟩)
      · exact iff_of_false (by simp) (by rintro ⟨⟩)
      · simp only [List.getElem?_cons_zero, List.getElem?_cons_succ, Option.some.injEq]
        constructor
        · rintro ⟨rfl, rfl⟩
          exact .list
        · rintro ⟨⟩
          exact ⟨rfl, rfl⟩
      · simp at hlen
    · have hnone : ofTree? (.array (es.map Value.toTree)) = none := by
        simp [ofTree?, Tree.fields?, hlen]
      rw [hnone]
      constructor
      · rintro ⟨⟩
      · rintro ⟨⟩
        simp at hlen

lemma ofMembers_eq_ok_iff {uri : String} {ms : Members} {p : Proof} (h : (Value.object ms).IsMap) :
    ofMembers uri ms = .ok p ↔ ∃ v, ms.get? "proof" = some v ∧ p.Stands v := by
  have hread : ofMembers uri ms = .ok p ↔
      ((ms.get? "proof").bind fun v => ofTree? v.toTree) = some p := by
    rw [ofMembers]
    cases (ms.get? "proof").bind fun v => ofTree? v.toTree <;> simp
  rw [hread, Option.bind_eq_some_iff]
  refine exists_congr fun v => and_congr_right fun hv => ofTree?_toTree_iff ?_
  exact h.get? hv

end Proof

namespace KeySet

lemma nodup_keys (s : KeySet) : (s.keys.map Prod.fst).Nodup := List.pairwise_map.2 (s.sorted.imp ne_of_lt)

lemma get_eq_ok_iff {keys : KeySet} {kid : String} {key : Ed25519.PublicKey} :
    keys.get kid = .ok key ↔ (kid, key) ∈ keys.keys := by
  rw [← Json.lookup_eq_some_iff keys.nodup_keys, get]
  cases keys.keys.lookup kid <;> simp

def HasSigned (keys : KeySet) (ms : Members) : Prop :=
  ∃ (v : Value) (p : Proof) (key : Ed25519.PublicKey) (signature : Bytes),
    ms.get? "proof" = some v ∧ p.Stands v ∧ (p.kid, key) ∈ keys.keys ∧
      Base64.decode? Base64.standard p.signature.toList = some signature ∧
      Ed25519.verify key (Seal.message ms) signature = true

end KeySet

namespace Seal

lemma verify_eq_ok_iff {key : Ed25519.PublicKey} {message : Bytes} {text : String} :
    verify key message text = .ok () ↔
      ∃ signature, Base64.decode? Base64.standard text.toList = some signature ∧
        Ed25519.verify key message signature = true := by
  rw [verify]
  cases Base64.decode? Base64.standard text.toList with
  | none => simp
  | some signature =>
    by_cases hlen : signature.length = 64
    · by_cases hv : Ed25519.verify key message signature = true <;> simp [hlen, hv]
    · simp [hlen, Ed25519.verify]

end Seal

namespace Verifier

def Trusts : Verifier → Members → Prop
  | .structural, _ => True
  | .ed25519 keys, ms => keys.HasSigned ms

lemma checkProof_eq_ok_iff {keys : KeySet} {uri : String} {ms : Members}
    (h : (Value.object ms).IsMap) : checkProof keys uri ms = .ok () ↔ keys.HasSigned ms := by
  simp only [checkProof, Sequence.bind_eq_ok_iff, Proof.ofMembers_eq_ok_iff h, KeySet.get_eq_ok_iff,
    Seal.verify_eq_ok_iff]
  constructor
  · rintro ⟨p, ⟨v, hv, hp⟩, key, hkey, signature, hsig, hverify⟩
    exact ⟨v, p, key, signature, hv, hp, hkey, hsig, hverify⟩
  · rintro ⟨v, p, key, signature, hv, hp, hkey, hsig, hverify⟩
    exact ⟨p, ⟨v, hv, hp⟩, key, hkey, signature, hsig, hverify⟩

lemma checkType_eq_ok_iff {role : Role} {uri : String} {ms : Members} :
    checkType role uri ms = .ok () ↔ Payload.IsTypedFor ms role := by
  rw [Payload.isTypedFor_iff]
  unfold checkType
  cases h : role.accepts (Payload.declaredType ms) <;> simp [h]

theorem verifyRole_eq_ok_iff {v : Verifier} {source : PayloadSource} {role : Role} {uri : String}
    (hrole : role.isSigned = true) : v.verifyRole source role uri = .ok () ↔
      ∃ ms, Payload.Shows source uri ms ∧ v.Trusts ms ∧ Payload.IsTypedFor ms role := by
  have hsigned : checkSigned role = .ok () := by rw [checkSigned, if_pos hrole]
  rw [verifyRole, hsigned, Sequence.ok_bind, Payload.bind_read_eq_ok_iff]
  refine exists_congr fun ms => and_congr_right fun hshows => ?_
  cases v with
  | structural => simp [Trusts, checkType_eq_ok_iff]
  | ed25519 keys =>
    have hproof : (∃ u : Unit, checkProof keys uri ms = .ok u) ↔ keys.HasSigned ms :=
      ⟨fun ⟨_, h⟩ => (checkProof_eq_ok_iff hshows.isMap).1 h,
        fun h => ⟨(), (checkProof_eq_ok_iff hshows.isMap).2 h⟩⟩
    simp [Sequence.bind_eq_ok_iff, Trusts, hproof, checkType_eq_ok_iff]

end Verifier

end CorridorTrust
