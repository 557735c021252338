import CorridorTrust.Corridor.Tag
import CorridorTrust.Proofs.Text.Parts

namespace CorridorTrust

namespace Text

def IsSameWord (cs ds : List Char) : Prop := List.Forall₂ (fun c d => c.toLower = d.toLower) cs ds

variable {cs ds : List Char}

lemma isSameWord_iff : IsSameWord cs ds ↔ cs.map Char.toLower = ds.map Char.toLower := by
  rw [IsSameWord, ← List.forall₂_eq_eq_eq, List.forall₂_map_left_iff, List.forall₂_map_right_iff]

lemma isEqv_iff :
    cs.isEqv ds (fun c d => c.toLower == d.toLower) = true ↔ IsSameWord cs ds := by
  induction cs generalizing ds with
  | nil => cases ds <;> simp [List.isEqv, IsSameWord]
  | cons c cs ih =>
    cases ds with
    | nil => simp [List.isEqv, IsSameWord]
    | cons d ds =>
      rw [List.isEqv, Bool.and_eq_true, beq_iff_eq, ih, IsSameWord, IsSameWord, List.forall₂_cons]

lemma toLower_of_isBlank {c : Char} (h : isBlank c = true) : c.toLower = c := by
  unfold Char.toLower
  split
  next hupper =>
    have hrange : 65 ≤ c.toNat ∧ c.toNat ≤ 90 := by
      simpa [UInt32.le_iff_toNat_le, ← Char.toNat_val] using hupper
    simp [isBlank] at h
    omega
  next => rfl

end Text

namespace Tag

def IsWrittenAs (t : Tag) (raw : String) : Prop :=
  ∃ left core right, raw.toList = left ++ core ++ right ∧ (∀ c ∈ left, Text.isBlank c = true) ∧
    (∀ c ∈ right, Text.isBlank c = true) ∧ Text.IsSameWord core t.text.toList

variable {t : Tag} {raw : String}

lemma isBlank_of_mem_key {c : Char} (h : c ∈ t.text.toList.map Char.toLower) :
    Text.isBlank c = false := by
  have hall : (t.text.toList.map Char.toLower).all (fun c => !Text.isBlank c) = true := by
    cases t <;> decide
  simpa using List.all_eq_true.1 hall c h

lemma keyOf_eq_key_iff_map : keyOf raw = t.key ↔
    (Text.trimChars raw.toList).map Char.toLower = t.text.toList.map Char.toLower := by
  rw [keyOf, key, Text.foldCase, Text.foldCase, Text.trim, String.toList_ofList, String.ofList_inj]

theorem keyOf_eq_key_iff : keyOf raw = t.key ↔ t.IsWrittenAs raw := by
  rw [keyOf_eq_key_iff_map]
  constructor
  · intro h
    obtain ⟨left, right, hraw, hleft, hright⟩ := Text.exists_trimChars raw.toList
    exact ⟨left, _, right, hraw, hleft, hright, Text.isSameWord_iff.2 h⟩
  · rintro ⟨left, core, right, hraw, hleft, hright, hsame⟩
    rw [Text.isSameWord_iff] at hsame
    -- no letter of the tag is a blank, so that trimming stops at both ends of the word
    have hcore : ∀ c ∈ core, Text.isBlank c = false := by
      intro c hc
      by_contra hblank
      have hmem : c.toLower ∈ t.text.toList.map Char.toLower := hsame ▸ List.mem_map_of_mem hc
      rw [Text.toLower_of_isBlank (by simpa using hblank)] at hmem
      exact hblank (isBlank_of_mem_key hmem)
    rw [hraw, Text.trimChars_eq hleft hright hcore, hsame]

end Tag

end CorridorTrust
