import CorridorTrust.Corridor.Tag
import CorridorTrust.Proofs.Text.Lines
import CorridorTrust.Proofs.Text.Parts

/-!
Tags in identifiers. A tag is detected where it is a segment with a colon on both sides, whatever the place.
Of several such segments the tag that is tried first is given, so that the type of an identifier is
recognized exactly when no tag tried before it stands in another segment.
-/

namespace CorridorTrust

namespace Text

section Pieces

variable {α : Type} {c : α} {piece : List α} {pieces more : List (List α)}

lemma terminate_append (c : α) (pieces more : List (List α)) :
    terminate c (pieces ++ more) = terminate c pieces ++ terminate c more := List.flatMap_append

lemma exists_terminate_eq_concat (h : pieces ≠ []) : ∃ start, terminate c pieces = start ++ [c] := by
  obtain ⟨before, last, rfl⟩ := (List.eq_nil_or_concat pieces).resolve_left h
  exact ⟨_, by rw [List.concat_eq_append, terminate_concat]⟩

variable [DecidableEq α] {xs : List α}

lemma split_ne_nil (c : α) (xs : List α) : split c xs ≠ [] := by
  obtain ⟨ended, rest, hsplit, -⟩ := exists_split_eq c xs
  simp [hsplit]

lemma infix_of_mem_inner (h : piece ∈ (split c xs).tail.dropLast) : c :: (piece ++ [c]) <:+: xs := by
  obtain ⟨ended, rest, hsplit, hxs, -⟩ := exists_split_eq c xs
  rw [hsplit] at h
  cases ended with
  | nil => simp at h
  | cons first ended =>
    rw [List.cons_append, List.tail_cons, List.dropLast_concat] at h
    obtain ⟨before, after, rfl⟩ := List.append_of_mem h
    -- the pieces up to this one end with the item that stands before it
    obtain ⟨start, hstart⟩ := exists_terminate_eq_concat (c := c) (List.cons_ne_nil first before)
    have hterminate : terminate c (first :: (before ++ piece :: after)) =
        start ++ [c] ++ (piece ++ c :: terminate c after) := by
      rw [← List.cons_append, terminate_append, hstart, terminate_cons]
    refine ⟨start, terminate c after ++ rest, ?_⟩
    rw [hxs, hterminate]
    simp

lemma mem_inner_of_surrounded (hpiece : c ∉ piece) (h : c :: (piece ++ [c]) <:+: xs) :
    piece ∈ (split c xs).tail.dropLast := by
  obtain ⟨start, rest, rfl⟩ := h
  have hsplit : split c (start ++ c :: (piece ++ [c]) ++ rest) =
      split c start ++ piece :: split c rest := by
    rw [← split_append_cons hpiece, ← split_append]
    simp
  rw [hsplit, List.tail_append_of_ne_nil (split_ne_nil c start), List.dropLast_append_of_ne_nil (by simp),
    List.dropLast_cons_of_ne_nil (split_ne_nil c rest)]
  simp

end Pieces

def segments (s : String) : List String := (split ':' s.toList).map String.ofList

def innerSegments (s : String) : List String := (segments s).tail.dropLast

variable {s name : String}

lemma segments_ne_nil (s : String) : segments s ≠ [] :=
  List.map_eq_nil_iff.not.2 (split_ne_nil ':' s.toList)

lemma segments_append (s rest : String) : segments (s ++ ":" ++ rest) = segments s ++ segments rest := by
  have hsplit := split_append ':' s.toList rest.toList
  simp only [segments, String.toList_append, ← List.map_append, ← hsplit]
  simp

lemma segments_of_colon_notMem (h : ':' ∉ s.toList) : segments s = [s] := by
  have hsplit := split_append_cons h []
  rw [split_append] at hsplit
  have hs : split ':' s.toList = [s.toList] := List.append_cancel_right hsplit
  rw [segments, hs, List.map_singleton, String.ofList_toList]

lemma contains_iff_mem_innerSegments (h : ':' ∉ name.toList) :
    contains s (":" ++ name ++ ":") = true ↔ name ∈ innerSegments s := by
  have hpart : (":" ++ name ++ ":").toList = ':' :: (name.toList ++ [':']) := by
    rw [String.toList_append, String.toList_append]
    rfl
  have hmem : name ∈ innerSegments s ↔ name.toList ∈ (split ':' s.toList).tail.dropLast := by
    rw [innerSegments, segments, ← List.map_tail, ← List.map_dropLast, List.mem_map]
    constructor
    · rintro ⟨piece, hpiece, rfl⟩
      rwa [String.toList_ofList]
    · intro hname
      exact ⟨_, hname, String.ofList_toList⟩
  rw [contains_iff, hpart, hmem]
  exact ⟨mem_inner_of_surrounded h, infix_of_mem_inner⟩

end Text

namespace Tag

open Text (segments innerSegments)

variable {uri lead rest : String} {t u : Tag}

def Precedes (u t : Tag) : Prop := detectionOrder.idxOf u < detectionOrder.idxOf t

instance (u t : Tag) : Decidable (u.Precedes t) := inferInstanceAs (Decidable (_ < _))

lemma mem_detectionOrder (t : Tag) : t ∈ detectionOrder := by cases t <;> decide

lemma colon_notMem_text (t : Tag) : ':' ∉ t.text.toList := by cases t <;> decide

lemma find?_detectionOrder_iff {p : Tag → Bool} :
    detectionOrder.find? p = some t ↔ p t = true ∧ ∀ u : Tag, u.Precedes t → p u = false := by
  have hnodup : detectionOrder.Nodup := by decide
  rw [List.find?_eq_some_iff_getElem]
  refine and_congr_right fun _ => ?_
  constructor
  · rintro ⟨i, hi, rfl, hbefore⟩ u hu
    rw [Precedes, hnodup.idxOf_getElem i hi] at hu
    have hnot := hbefore _ hu
    rw [List.getElem_idxOf] at hnot
    simpa using hnot
  · intro hbefore
    have hlength := List.idxOf_lt_length_of_mem t.mem_detectionOrder
    refine ⟨_, hlength, List.getElem_idxOf _, fun j hj => ?_⟩
    have hlt : j < detectionOrder.length := hj.trans hlength
    have hu : detectionOrder[j].Precedes t := by
      rw [Precedes, hnodup.idxOf_getElem]
      exact hj
    simp [hbefore _ hu]

lemma detect?_eq_some_iff : detect? uri = some t ↔
    t.text ∈ innerSegments uri ∧ ∀ u : Tag, u.Precedes t → u.text ∉ innerSegments uri := by
  simp only [detect?, find?_detectionOrder_iff, Bool.eq_false_iff, ne_eq,
    Text.contains_iff_mem_innerSegments (colon_notMem_text _)]

lemma detect?_eq_none_iff : detect? uri = none ↔ ∀ t : Tag, t.text ∉ innerSegments uri := by
  simp only [detect?, List.find?_eq_none, Text.contains_iff_mem_innerSegments (colon_notMem_text _),
    mem_detectionOrder, true_imp_iff]

def identifier (lead : String) (t : Tag) (rest : String) : String :=
  lead ++ ":" ++ "token" ++ ":" ++ t.text ++ ":" ++ rest

lemma innerSegments_identifier (lead : String) (t : Tag) (rest : String) :
    innerSegments (identifier lead t rest) =
      (segments lead).tail ++ "token" :: t.text :: (segments rest).dropLast := by
  have htoken : segments "token" = ["token"] := by decide
  have hsegments : segments (identifier lead t rest) =
      segments lead ++ "token" :: t.text :: segments rest := by
    rw [identifier, Text.segments_append, Text.segments_append, Text.segments_append, htoken,
      Text.segments_of_colon_notMem t.colon_notMem_text]
    simp
  rw [innerSegments, hsegments, List.tail_append_of_ne_nil (Text.segments_ne_nil lead),
    List.dropLast_append_of_ne_nil (by simp), List.dropLast_cons_of_ne_nil (by simp),
    List.dropLast_cons_of_ne_nil (Text.segments_ne_nil rest)]

lemma detect?_identifier_iff : detect? (identifier lead t rest) = some t ↔
    ∀ u : Tag, u.Precedes t → u.text ∉ (segments lead).tail ∧ u.text ∉ (segments rest).dropLast := by
  have htoken (u : Tag) : u.text ≠ "token" := by cases u <;> decide
  have hself (u : Tag) (hu : u.Precedes t) : u.text ≠ t.text := by
    revert hu
    cases u <;> cases t <;> decide
  rw [detect?_eq_some_iff, innerSegments_identifier]
  constructor
  · rintro ⟨-, hbefore⟩ u hu
    have hnot := hbefore u hu
    simp only [List.mem_append, List.mem_cons, not_or] at hnot
    exact ⟨hnot.1, hnot.2.2.2⟩
  · intro hbefore
    refine ⟨by simp, fun u hu => ?_⟩
    simp [hbefore u hu, htoken u, hself u hu]

/-- Nothing is detected exactly where no segment between colons is a tag, and otherwise the first tag in
the order of the search that is one. An identifier of a token has its own type detected exactly when no
tag before that stands in a segment of what goes before or comes after; there is always some type. -/
theorem detect?_exact (uri lead rest : String) (t : Tag) :
    (detect? uri = none ↔ ∀ u : Tag, u.text ∉ innerSegments uri) ∧
      (detect? uri = some t ↔
        t.text ∈ innerSegments uri ∧ ∀ u : Tag, u.Precedes t → u.text ∉ innerSegments uri) ∧
      (∃ u, detect? (identifier lead t rest) = some u) ∧
      (detect? (identifier lead t rest) = some t ↔ ∀ u : Tag, u.Precedes t →
        u.text ∉ (segments lead).tail ∧ u.text ∉ (segments rest).dropLast) := by
  refine ⟨detect?_eq_none_iff, detect?_eq_some_iff, ?_, detect?_identifier_iff⟩
  rw [← Option.ne_none_iff_exists', Ne, detect?_eq_none_iff]
  intro hnone
  exact hnone t (by simp [innerSegments_identifier])

theorem corridor_detected : detect? (identifier "urn:IMT" .cort "PSRT:2025") = some .cort ∧
    detect? "RMT:x:IMT" = none := by
  obtain ⟨hnone, -, -, hidentifier⟩ := detect?_exact "RMT:x:IMT" "urn:IMT" "PSRT:2025" .cort
  constructor
  · refine hidentifier.2 fun u hu => ?_
    revert hu
    cases u <;> decide
  · refine hnone.2 fun u => ?_
    cases u <;> decide

theorem corridor_mistaken : detect? (identifier "urn:lane2" .cort "RRMT:2025") = some .rrmt ∧
    ¬∀ (lead : String) (t : Tag) (rest : String), "token" ∉ segments lead →
      detect? (identifier lead t rest) = some t := by
  have hregional : detect? (identifier "urn:lane2" .cort "RRMT:2025") = some .rrmt := by decide
  refine ⟨hregional, fun h => ?_⟩
  have hcorridor := h "urn:lane2" .cort "RRMT:2025" (by decide)
  rw [hregional] at hcorridor
  cases hcorridor

end Tag

end CorridorTrust
