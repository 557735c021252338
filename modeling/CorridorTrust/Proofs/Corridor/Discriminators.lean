import CorridorTrust.Corridor.Catalog
import CorridorTrust.Proofs.Evidence.Reading
import CorridorTrust.Proofs.Publication.Lookup

/-!
Discriminators. A raw text is compared with tags letter by letter, by the key of lookups and by the roles
that take it. The comparisons agree on every text, so that a type which passes for a role finds entries of
that role only, and the roles of a corridor are those that take one of its tags.
-/

namespace CorridorTrust

variable {raw slug : String} {t u : Tag} {r r' : Role}

namespace Tag

lemma isNamedBy_iff : t.isNamedBy raw = true ↔
    Text.IsSameWord (Text.trimChars raw.toList) t.text.toList := by
  rw [isNamedBy, Text.equalUpToCase, Text.trim, String.toList_ofList, Text.isEqv_iff]

lemma keyOf_eq_key_iff_isNamedBy : keyOf raw = t.key ↔ t.isNamedBy raw = true := by
  rw [isNamedBy_iff, Text.isSameWord_iff, keyOf_eq_key_iff_map]

lemma isNamedBy_iff_isWrittenAs : t.isNamedBy raw = true ↔ t.IsWrittenAs raw := by
  rw [← keyOf_eq_key_iff_isNamedBy, keyOf_eq_key_iff]

lemma eq_of_isNamedBy (ht : t.isNamedBy raw = true) (hu : u.isNamedBy raw = true) : t = u := by
  rw [← keyOf_eq_key_iff_isNamedBy] at ht hu
  exact key_injective (ht.symm.trans hu)

lemma mem_all (t : Tag) : t ∈ all := by cases t <;> decide

lemma ofText?_eq_some_iff : ofText? raw = some t ↔ t.isNamedBy raw = true := by
  rw [ofText?]
  cases hfind : all.find? (·.isNamedBy raw) with
  | none => simpa using List.find?_eq_none.1 hfind t t.mem_all
  | some u =>
    have hu : u.isNamedBy raw = true := (List.find?_eq_some_iff_append.1 hfind).1
    rw [Option.some.injEq]
    constructor
    · rintro rfl
      exact hu
    · intro ht
      exact eq_of_isNamedBy hu ht

lemma parse_eq_ok_iff : parse raw = .ok t ↔ t.isNamedBy raw = true := by
  rw [← ofText?_eq_some_iff, parse]
  cases ofText? raw <;> simp

lemma parse_eq_error_iff {fault : Fault} : parse raw = .error fault ↔
    (∀ t : Tag, t.isNamedBy raw = false) ∧ fault = .invalidIdentifier (.tag raw) := by
  have hnone : ofText? raw = none ↔ ∀ t : Tag, t.isNamedBy raw = false := by
    simp [ofText?, List.find?_eq_none, mem_all]
  rw [← hnone, parse]
  cases ofText? raw <;> simp [eq_comm]

lemma ofTree?_eq_some_iff {tree : Json.Tree} :
    ofTree? tree = some t ↔ ∃ raw, tree = .string (some raw) ∧ t.isNamedBy raw = true := by
  simp only [← ofText?_eq_some_iff, ofTree?, Option.bind_eq_some_iff]
  cases tree <;> simp [Json.Tree.string?]

def Fills (t : Tag) (r : Role) : Prop := t.key = r.text ∨ t = .rrmt ∧ r = .rmt

instance (t : Tag) (r : Role) : Decidable (t.Fills r) := inferInstanceAs (Decidable (_ ∨ _))

lemma fills_iff_mem : t.Fills r ↔ t ∈ r.tags := by cases r <;> cases t <;> decide

lemma Fills.role_eq (h : t.Fills r) (h' : t.Fills r') : r = r' := by
  revert h h'
  cases t <;> cases r <;> cases r' <;> decide

structure IsAgreed (raw : String) (t : Tag) : Prop where
  written : t.isNamedBy raw = true ↔ t.IsWrittenAs raw
  unique : t.isNamedBy raw = true → ∀ u : Tag, u.isNamedBy raw = true → u = t
  parsed : parse raw = .ok t ↔ t.isNamedBy raw = true
  decoded : ofTree? (.string (some raw)) = some t ↔ t.isNamedBy raw = true
  keyed : keyOf raw = t.key ↔ t.isNamedBy raw = true

lemma isAgreed (raw : String) (t : Tag) : IsAgreed raw t where
  written := isNamedBy_iff_isWrittenAs
  unique ht _ hu := eq_of_isNamedBy hu ht
  parsed := parse_eq_ok_iff
  decoded := by simp [ofTree?_eq_some_iff]
  keyed := keyOf_eq_key_iff_isNamedBy

end Tag

namespace Role

lemma accepts_iff : r.accepts raw = true ↔ ∃ t, Tag.parse raw = .ok t ∧ t.Fills r := by
  simp only [accepts, List.any_eq_true, Tag.parse_eq_ok_iff, Tag.fills_iff_mem, and_comm]

lemma eq_of_accepts (h : r.accepts raw = true) (h' : r'.accepts raw = true) : r = r' := by
  obtain ⟨t, ht, hr⟩ := accepts_iff.1 h
  obtain ⟨t', ht', hr'⟩ := accepts_iff.1 h'
  obtain rfl := Except.ok.inj (ht.symm.trans ht')
  exact hr.role_eq hr'

lemma mem_all (r : Role) : r ∈ all := by cases r <;> decide

end Role

lemma Index.isNamedBy_of_findNamed {x : Index} {e : Entry} (h : x.findNamed raw slug = .ok e) :
    e.tag.isNamedBy raw = true := by
  by_cases hslug : IsUnsafe slug
  · rw [findNamed_of_isUnsafe hslug] at h
    cases h
  · rw [findNamed_of_safe hslug] at h
    cases hfind : x.entries.find? (isNamed raw slug) with
    | none =>
      rw [hfind] at h
      cases h
    | some found =>
      obtain rfl : found = e := by simpa [hfind] using h
      exact Tag.isNamedBy_iff_isWrittenAs.2 (isNamed_iff.1 (List.find?_some hfind)).2

lemma Corridor.mem_roles_iff {c : Corridor} :
    r ∈ c.roles ↔ ∃ t ∈ c.required, r.accepts t.text = true := by
  simp [roles, Role.mem_all]

/-- The comparisons agree on every raw text: one tag at most is meant, and parsing, decoding and lookups
mean the same one; a role takes the texts of its own tags, and no text is taken by two. What passes for a
role therefore finds entries of its tags only. The roles of a corridor are those that take a required tag,
in the order of requests and each once. -/
theorem discriminators_agree :
    (∀ (raw : String) (t : Tag), Tag.IsAgreed raw t) ∧
      (∀ (raw : String) (fault : Fault), Tag.parse raw = .error fault ↔
        (∀ t : Tag, t.isNamedBy raw = false) ∧ fault = .invalidIdentifier (.tag raw)) ∧
      (∀ (raw : String) (r : Role),
        (r.accepts raw = true ↔ ∃ t, Tag.parse raw = .ok t ∧ t.Fills r) ∧
          ∀ r' : Role, r.accepts raw = true → r'.accepts raw = true → r = r') ∧
      (∀ (r : Role) (uri : String) (ms : Json.Members), Verifier.checkType r uri ms = .ok () →
        ∀ (x : Index) (slug : String) (e : Entry),
          x.findNamed (Payload.declaredType ms) slug = .ok e → e.tag.Fills r) ∧
      ∀ c : Corridor, (∀ r : Role, r ∈ c.roles ↔ ∃ t ∈ c.required, r.accepts t.text = true) ∧
        (c.roles.map Role.text).Sublist ["rmt", "imt", "cort", "psrt", "amls", "amlv"] ∧
        c.roles.Nodup := by
  refine ⟨Tag.isAgreed, fun raw fault => Tag.parse_eq_error_iff,
    fun raw r => ⟨Role.accepts_iff, fun r' => Role.eq_of_accepts⟩,
    fun r uri ms hpass x slug e hfound => ?_, fun c => ⟨fun r => Corridor.mem_roles_iff, ?_, ?_⟩⟩
  · have haccepts := Payload.isTypedFor_iff.1 (Verifier.checkType_eq_ok_iff.1 hpass)
    obtain ⟨t, hparse, hfills⟩ := Role.accepts_iff.1 haccepts
    obtain rfl := Tag.eq_of_isNamedBy (Index.isNamedBy_of_findNamed hfound) (Tag.parse_eq_ok_iff.1 hparse)
    exact hfills
  · exact List.filter_sublist.map Role.text
  · have hall : Role.all.Nodup := by decide
    exact hall.filter _

def regional : Entry := { Entry.new "u" .rrmt "c" with slug := some "s" }

def regionalMembers : Json.Members := [("type", .string "\u3000rRmT\n")]

theorem regional_found :
    Verifier.checkType .rmt "u" regionalMembers = .ok () ∧
      (Index.mk [regional]).findNamed (Payload.declaredType regionalMembers) "s" = .ok regional ∧
      regional.tag.Fills .rmt ∧
      Tag.parse "\u3000rRmT\n" = .ok .rrmt ∧
      Tag.parse "P\u017fRT" = .error (.invalidIdentifier (.tag "P\u017fRT")) ∧
      Role.rmt ∈ (Corridor.mk "d" [.amls, .rrmt]).roles := by
  obtain ⟨hagreed, hrefused, -, hfound, hcorridors⟩ := discriminators_agree
  have hpass : Verifier.checkType .rmt "u" regionalMembers = .ok () := by decide
  have hentry : (Index.mk [regional]).findNamed (Payload.declaredType regionalMembers) "s" =
      .ok regional := by decide
  refine ⟨hpass, hentry, hfound .rmt "u" regionalMembers hpass _ "s" regional hentry,
    (hagreed _ .rrmt).parsed.2 (by decide), (hrefused _ _).2 ⟨fun t => ?_, rfl⟩,
    ((hcorridors _).1 .rmt).2 ⟨.rrmt, by simp, by decide⟩⟩
  cases t <;> decide

end CorridorTrust
