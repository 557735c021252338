import CorridorTrust.Proofs.Text.Utf8
import CorridorTrust.Text.Match

namespace CorridorTrust

namespace Text

variable {α : Type} {c : α} {pieces : List (List α)} {xs : List α}

def terminate (c : α) (pieces : List (List α)) : List α := pieces.flatMap (· ++ [c])

lemma terminate_cons (c : α) (piece : List α) (pieces : List (List α)) :
    terminate c (piece :: pieces) = piece ++ c :: terminate c pieces := by
  rw [terminate, List.flatMap_cons, List.append_assoc, List.singleton_append, terminate]

lemma terminate_concat (c : α) (pieces : List (List α)) (piece : List α) :
    terminate c (pieces ++ [piece]) = terminate c pieces ++ piece ++ [c] := by
  simp [terminate]

variable [DecidableEq α]

lemma exists_split_eq (c : α) (xs : List α) :
    ∃ ended rest, split c xs = ended ++ [rest] ∧ xs = terminate c ended ++ rest ∧
      (∀ piece ∈ ended, c ∉ piece) ∧ c ∉ rest := by
  induction xs with
  | nil => exact ⟨[], [], rfl, rfl, by simp, by simp⟩
  | cons x xs ih =>
    obtain ⟨ended, rest, hsplit, hxs, hended, hrest⟩ := ih
    rw [split, hsplit]
    split_ifs with hx
    · subst hx
      refine ⟨[] :: ended, rest, rfl, ?_, List.forall_mem_cons.2 ⟨by simp, hended⟩, hrest⟩
      rw [terminate_cons, List.nil_append, List.cons_append, ← hxs]
    · cases ended with
      | nil =>
        refine ⟨[], x :: rest, rfl, congrArg (x :: ·) hxs, by simp, ?_⟩
        simpa [Ne.symm hx] using hrest
      | cons piece ended =>
        obtain ⟨hpiece, hended⟩ := List.forall_mem_cons.1 hended
        have hlonger : c ∉ x :: piece := by simpa [Ne.symm hx] using hpiece
        refine ⟨(x :: piece) :: ended, rest, rfl, ?_, List.forall_mem_cons.2 ⟨hlonger, hended⟩, hrest⟩
        rw [hxs, terminate_cons, terminate_cons, List.cons_append, List.cons_append]

lemma split_append_cons {piece : List α} (h : c ∉ piece) (xs : List α) :
    split c (piece ++ c :: xs) = piece :: split c xs := by
  induction piece with
  | nil => rw [List.nil_append, split, if_pos rfl]
  | cons x piece ih =>
    obtain ⟨hx, hpiece⟩ : c ≠ x ∧ c ∉ piece := by simpa using h
    rw [List.cons_append, split, if_neg (Ne.symm hx), ih hpiece]

lemma split_append (c : α) (xs ys : List α) : split c (xs ++ c :: ys) = split c xs ++ split c ys := by
  induction xs with
  | nil => simp [split]
  | cons x xs ih =>
    rw [List.cons_append, split, split, ih]
    split_ifs with hx
    · rfl
    · obtain ⟨ended, rest, hsplit, -⟩ := exists_split_eq c xs
      cases ended <;> simp [hsplit]

lemma split_terminate (h : ∀ piece ∈ pieces, c ∉ piece) :
    split c (terminate c pieces) = pieces ++ [[]] := by
  induction pieces with
  | nil => rfl
  | cons piece pieces ih =>
    obtain ⟨hpiece, hpieces⟩ := List.forall_mem_cons.1 h
    rw [terminate_cons, split_append_cons hpiece, ih hpieces, List.cons_append]

end Text

namespace Utf8

lemma eq_newline_of_mem_encodeChar {c : Char} (h : 10 ∈ encodeChar c) : c = '\n' := by
  have hbyte {n : ℕ} (hn : n < 256) (h : (10 : UInt8) = n.toUInt8) : n = 10 := by
    rw [← toNat_toUInt8 hn, ← h]
    rfl
  have hlt := toNat_lt c
  unfold encodeChar at h
  dsimp only at h
  have hc : c.toNat = 10 := by
    split_ifs at h <;> simp only [List.mem_cons, List.not_mem_nil, or_false] at h
    · exact hbyte (by omega) h
    · rcases h with h | h <;> have := hbyte (by omega) h <;> omega
    · rcases h with h | h | h <;> have := hbyte (by omega) h <;> omega
    · rcases h with h | h | h | h <;> have := hbyte (by omega) h <;> omega
  rw [← Char.ofNat_toNat c, hc]

lemma newline_not_mem_ofString {s : String} (h : '\n' ∉ s.toList) : 10 ∉ ofString s := by
  intro hmem
  obtain ⟨c, hc, hbyte⟩ := List.mem_flatMap.1 hmem
  obtain rfl := eq_newline_of_mem_encodeChar hbyte
  exact h hc

end Utf8

end CorridorTrust
