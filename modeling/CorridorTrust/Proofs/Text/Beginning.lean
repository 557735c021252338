import Mathlib

namespace CorridorTrust.Text

lemma head_append {p : Char → Bool} {a b : String} (h : a.toList.head?.any p = true) :
    (a ++ b).toList.head?.any p = true := by
  rw [String.toList_append]
  cases ha : a.toList with
  | nil => simp [ha] at h
  | cons c cs => simpa [ha] using h

lemma append_ne_append {a b x y : String}
    (h : (a.toList.zip b.toList).any (fun p => p.1 != p.2) = true) : a ++ x ≠ b ++ y := by
  intro he
  have hl := congrArg String.toList he
  rw [String.toList_append, String.toList_append] at hl
  generalize a.toList = as at h hl
  generalize b.toList = bs at h hl
  induction as generalizing bs with
  | nil => simp at h
  | cons c as ih =>
    cases bs with
    | nil => simp at h
    | cons d bs =>
      obtain ⟨rfl, htail⟩ := List.cons.inj hl
      exact ih bs (by simpa using h) htail

end CorridorTrust.Text
