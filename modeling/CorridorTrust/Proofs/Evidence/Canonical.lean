import CorridorTrust.Proofs.Evidence.Sealing
import CorridorTrust.Proofs.Json.Agreement
import CorridorTrust.Proofs.Json.Layout

/-!
The signed message is a faithful normal form. It is the same for two objects exactly when they agree in
everything but their proofs, however they are written, and it is read back as the object without its proof.
-/

namespace CorridorTrust

open Json (Value Members Number Tree Token)

namespace Payload

variable {bs : Bytes} {a : Members}

lemma exists_tree_of_read (h : read bs = .ok a) : ∃ ms, Tree.read? bs = some (.object ms) ∧
    (Tree.object ms).toValue? Value.maxDepth = some (.object a) := by
  obtain ⟨t, ht, hvalue⟩ := Option.bind_eq_some_iff.1 (read_eq_ok_iff.1 h)
  obtain ⟨ms, rfl⟩ := Tree.exists_eq_object hvalue
  exact ⟨ms, ht, hvalue⟩

lemma read_of_isLaidOut {ts : List Token} {text text' : String} (h : Token.IsLaidOut ts text.toList)
    (h' : Token.IsLaidOut ts text'.toList) :
    read (Utf8.ofString text) = read (Utf8.ofString text') := by
  rw [read, read, Value.read?, Value.read?, Tree.read?, Tree.read?, h.scan?, h'.scan?]

end Payload

namespace Seal

variable {a b : Members}

lemma message_eq_iff (ha : (Value.object a).IsRegular) (hb : (Value.object b).IsRegular) :
    message a = message b ↔ unsigned a = unsigned b := by
  refine ⟨fun h => ?_, fun h => by rw [message, canonicalText, h, message, canonicalText]⟩
  exact Value.eq_of_compact_eq (ha.erase "proof").normalize (hb.erase "proof").normalize
    (Utf8.ofString_injective h)

lemma unsigned_eq_iff_agrees : unsigned a = unsigned b ↔
    (Value.object (a.erase "proof")).toTree.Agrees (Value.object (b.erase "proof")).toTree :=
  (Tree.agrees_iff (Value.toValue?_toTree le_rfl) (Value.toValue?_toTree le_rfl)).symm

lemma unsigned_eq_iff_of_isMap (ha : (Value.object a).IsMap) (hb : (Value.object b).IsMap) :
    unsigned a = unsigned b ↔ a.erase "proof" = b.erase "proof" := by
  rw [unsigned_eq ha, unsigned_eq hb, Value.object.injEq]

lemma read_message (ha : (Value.object a).IsRegular) (hmap : (Value.object a).IsMap)
    (hdepth : (Value.object a).depth ≤ Value.maxDepth)
    (hnumbers : (Value.object a).AllNumbers fun n => n.InRange ∧ n.IsFaithful) :
    Payload.read (message a) = .ok (a.erase "proof") := by
  have hstable : (Value.object a).AllNumbers Number.IsStable :=
    ha.allNumbers.imp₂ hnumbers fun n hregular hn => Value.isStable_of_isFaithful ⟨hregular, hn.1⟩ hn.2
  have hlegible := (Value.isLegible_of_depth_le hmap hstable hdepth).erase "proof"
  rw [Payload.read_eq_ok_iff, message, canonicalText, unsigned_eq hmap, hlegible.read?_compact]

/-- The objects may be given with their members in any order, as finite maps, or as texts: they have one
message exactly when they agree without their proofs. -/
theorem canonical (a b : Members) (ha : (Value.object a).IsRegular)
    (hb : (Value.object b).IsRegular) :
    (message a = message b ↔
      (Value.object (a.erase "proof")).toTree.Agrees (Value.object (b.erase "proof")).toTree) ∧
    ((Value.object a).IsMap → (Value.object b).IsMap →
      (message a = message b ↔ a.erase "proof" = b.erase "proof")) ∧
    (∀ bs bs', Payload.read bs = .ok a → Payload.read bs' = .ok b → ∃ ms ns,
      Tree.read? bs = some (.object ms) ∧ Tree.read? bs' = some (.object ns) ∧
      (message a = message b ↔
        (Tree.object (Tree.without "proof" ms)).Agrees (.object (Tree.without "proof" ns)))) ∧
    (∀ ts (text text' : String), Token.IsLaidOut ts text.toList → Token.IsLaidOut ts text'.toList →
      Payload.read (Utf8.ofString text) = Payload.read (Utf8.ofString text')) ∧
    ((Value.object a).IsMap → (Value.object a).depth ≤ Value.maxDepth →
      ((Value.object a).AllNumbers fun n => n.InRange ∧ n.IsFaithful) →
      Payload.read (message a) = .ok (a.erase "proof")) := by
  have hmessage := message_eq_iff ha hb
  refine ⟨hmessage.trans unsigned_eq_iff_agrees,
    fun hmap hmap' => hmessage.trans (unsigned_eq_iff_of_isMap hmap hmap'), fun bs bs' h h' => ?_,
    fun ts text text' => Payload.read_of_isLaidOut, read_message ha⟩
  obtain ⟨ms, hms, hvalue⟩ := Payload.exists_tree_of_read h
  obtain ⟨ns, hns, hvalue'⟩ := Payload.exists_tree_of_read h'
  have hmap : (Value.object a).IsMap := Tree.toValue?_isMap hvalue
  have hmap' : (Value.object b).IsMap := Tree.toValue?_isMap hvalue'
  have hagrees := Tree.agrees_iff (Tree.toValue?_without hvalue "proof")
    (Tree.toValue?_without hvalue' "proof")
  refine ⟨ms, ns, hms, hns, ?_⟩
  rw [hmessage, unsigned_eq_iff_of_isMap hmap hmap', hagrees, Value.object.injEq]

section Nested

def endorsed (valid : Bool) : Members :=
  [("nested", .object [("proof", .bool valid)]), ("proof", .null)]

lemma isMap_endorsed (valid : Bool) : (Value.object (endorsed valid)).IsMap := by
  have hmap : (endorsed valid).IsMap := List.pairwise_pair.2 (show "nested" < "proof" by decide +kernel)
  refine .object hmap fun m hm => ?_
  rcases List.mem_pair.1 hm with rfl | rfl
  · refine .object (List.pairwise_singleton _ _) fun m hm => ?_
    obtain rfl := List.mem_singleton.1 hm
    exact .bool valid
  · exact .null

lemma allNumbers_endorsed (P : Number → Prop) (valid : Bool) :
    (Value.object (endorsed valid)).AllNumbers P := by
  refine .object fun m hm => ?_
  rcases List.mem_pair.1 hm with rfl | rfl
  · refine .object fun m hm => ?_
    obtain rfl := List.mem_singleton.1 hm
    exact .bool valid
  · exact .null

theorem nested_proof_signed : message (endorsed true) ≠ message (endorsed false) ∧
    Payload.read (message (endorsed true)) = .ok [("nested", .object [("proof", .bool true)])] := by
  obtain ⟨-, hmaps, -, -, hread⟩ := canonical (endorsed true) (endorsed false)
    (allNumbers_endorsed _ true).isRegular (allNumbers_endorsed _ false).isRegular
  have hmessage := hmaps (isMap_endorsed true) (isMap_endorsed false)
  refine ⟨fun h => ?_, hread (isMap_endorsed true) (by decide) (allNumbers_endorsed _ true)⟩
  have hsame := hmessage.1 h
  simp [endorsed, Members.erase] at hsame

end Nested

end Seal

end CorridorTrust
