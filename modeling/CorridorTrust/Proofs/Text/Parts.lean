import Mathlib
import CorridorTrust.Text.Blank
import CorridorTrust.Text.Match

namespace CorridorTrust.Text

variable {cs left core right : List Char}

lemma isPart_iff {part : List Char} : isPart part cs = true ↔ part <:+: cs := by
  induction cs with
  | nil => simp [isPart]
  | cons c cs ih => rw [isPart, Bool.or_eq_true, ih, List.isPrefixOf_iff_prefix, List.infix_cons_iff]

lemma contains_iff {s part : String} : contains s part = true ↔ part.toList <:+: s.toList := isPart_iff

lemma isBlank_of_mem_takeWhile {c : Char} (h : c ∈ cs.takeWhile isBlank) : isBlank c = true :=
  List.all_eq_true.1 List.all_takeWhile c h

lemma trimLeft_eq_append (cs : List Char) :
    trimLeft cs = trimChars cs ++ ((trimLeft cs).reverse.takeWhile isBlank).reverse := by
  rw [trimChars, trimRight, ← List.reverse_append, List.takeWhile_append_dropWhile, List.reverse_reverse]

lemma exists_trimChars (cs : List Char) : ∃ left right, cs = left ++ trimChars cs ++ right ∧
    (∀ c ∈ left, isBlank c = true) ∧ ∀ c ∈ right, isBlank c = true := by
  refine ⟨cs.takeWhile isBlank, ((trimLeft cs).reverse.takeWhile isBlank).reverse, ?_,
    fun c => isBlank_of_mem_takeWhile, fun c hc => isBlank_of_mem_takeWhile (List.mem_reverse.1 hc)⟩
  rw [List.append_assoc, ← trimLeft_eq_append, trimLeft, List.takeWhile_append_dropWhile]

lemma dropWhile_append_of_blank {rest : List Char} (h : ∀ c ∈ left, isBlank c = true)
    (hrest : ∀ c, rest.head? = some c → isBlank c = false) :
    (left ++ rest).dropWhile isBlank = rest := by
  induction left with
  | nil =>
    cases rest with
    | nil => rfl
    | cons c rest => rw [List.nil_append, List.dropWhile_cons_of_neg (by simp [hrest c rfl])]
  | cons c left ih =>
    obtain ⟨hc, hleft⟩ := List.forall_mem_cons.1 h
    rw [List.cons_append, List.dropWhile_cons_of_pos hc, ih hleft]

lemma isBlank_of_head?_dropWhile {c : Char} (h : (cs.dropWhile isBlank).head? = some c) :
    isBlank c = false := by
  have hnot := List.head?_dropWhile_not isBlank cs
  rwa [h] at hnot

structure IsTrimmed (cs core : List Char) : Prop where
  around : ∃ left right, cs = left ++ core ++ right ∧ (∀ c ∈ left, isBlank c = true) ∧
    ∀ c ∈ right, isBlank c = true
  first : ∀ c, core.head? = some c → isBlank c = false
  last : ∀ c, core.getLast? = some c → isBlank c = false

lemma isTrimmed_trimChars (cs : List Char) : IsTrimmed cs (trimChars cs) where
  around := exists_trimChars cs
  first c hc := by
    have hhead : (trimLeft cs).head? = some c := by
      rw [trimLeft_eq_append, List.head?_append, hc, Option.some_or]
    exact isBlank_of_head?_dropWhile hhead
  last c hc := by
    rw [trimChars, trimRight, List.getLast?_reverse] at hc
    exact isBlank_of_head?_dropWhile hc

lemma IsTrimmed.trimChars_eq (h : IsTrimmed cs core) : trimChars cs = core := by
  obtain ⟨left, right, rfl, hleft, hright⟩ := h.around
  by_cases hcore : core = []
  · subst hcore
    have hblank : trimLeft (left ++ [] ++ right) = [] := by
      rw [List.append_nil, trimLeft, List.dropWhile_eq_nil_iff]
      intro c hc
      exact (List.mem_append.1 hc).elim (hleft c) (hright c)
    rw [trimChars, hblank]
    rfl
  · have htrimLeft : trimLeft (left ++ core ++ right) = core ++ right := by
      rw [trimLeft, List.append_assoc]
      refine dropWhile_append_of_blank hleft fun c hc => h.first c ?_
      rwa [List.head?_append_of_ne_nil _ hcore] at hc
    have hreverse : (right.reverse ++ core.reverse).dropWhile isBlank = core.reverse := by
      refine dropWhile_append_of_blank (fun c hc => hright c (List.mem_reverse.1 hc)) fun c hc => h.last c ?_
      rwa [List.head?_reverse] at hc
    rw [trimChars, htrimLeft, trimRight, List.reverse_append, hreverse, List.reverse_reverse]

lemma trimChars_eq_iff : trimChars cs = core ↔ IsTrimmed cs core := by
  constructor
  · rintro rfl
    exact isTrimmed_trimChars cs
  · exact IsTrimmed.trimChars_eq

lemma trimChars_eq (hleft : ∀ c ∈ left, isBlank c = true) (hright : ∀ c ∈ right, isBlank c = true)
    (hcore : ∀ c ∈ core, isBlank c = false) : trimChars (left ++ core ++ right) = core :=
  IsTrimmed.trimChars_eq ⟨⟨left, right, rfl, hleft, hright⟩,
    fun c hc => hcore c (List.mem_of_head? hc), fun c hc => hcore c (List.mem_of_getLast? hc)⟩

structure IsBare (s : String) : Prop where
  ne_empty : s ≠ ""
  first : ∀ c, s.toList.head? = some c → isBlank c = false
  last : ∀ c, s.toList.getLast? = some c → isBlank c = false

lemma IsBare.trim_eq {s : String} (h : IsBare s) : trim s = s := by
  have htrimmed : IsTrimmed s.toList s.toList := ⟨⟨[], [], by simp⟩, h.first, h.last⟩
  rw [trim, htrimmed.trimChars_eq, String.ofList_toList]

lemma IsBare.isBlankText_eq {s : String} (h : IsBare s) : isBlankText s = false := by
  obtain ⟨c, cs, hcs⟩ := List.exists_cons_of_ne_nil (mt String.toList_eq_nil_iff.1 h.ne_empty)
  have hc : isBlank c = false := h.first c (by rw [hcs, List.head?_cons])
  rw [isBlankText, hcs, List.all_cons, hc, Bool.false_and]

section End

variable {c : Char} {s : String}

lemma stripEnd_append {ds : List Char} (hds : ds.getLast? ≠ some c) (count : ℕ)
    (hs : s.toList = ds ++ List.replicate count c) : (stripEnd c s).toList = ds := by
  have hreverse : (ds ++ List.replicate count c).reverse.dropWhile (· == c) = ds.reverse := by
    rw [List.reverse_append, List.reverse_replicate, List.dropWhile_append_of_pos (by simp)]
    cases hds' : ds.reverse with
    | nil => rfl
    | cons d rest =>
      have hd : d ≠ c := by
        rintro rfl
        apply hds
        rw [← List.head?_reverse, hds', List.head?_cons]
      rw [List.dropWhile_cons_of_neg (by simpa using hd)]
  rw [stripEnd, String.toList_ofList, hs, hreverse, List.reverse_reverse]

lemma exists_eq_stripEnd_append (c : Char) (s : String) :
    ∃ count, s.toList = (stripEnd c s).toList ++ List.replicate count c := by
  have hrun : s.toList.reverse.takeWhile (· == c) =
      List.replicate (s.toList.reverse.takeWhile (· == c)).length c :=
    List.eq_replicate_of_mem fun d hd => by simpa using List.mem_takeWhile_imp hd
  refine ⟨(s.toList.reverse.takeWhile (· == c)).length, ?_⟩
  rw [stripEnd, String.toList_ofList, ← List.reverse_replicate, ← hrun, ← List.reverse_append,
    List.takeWhile_append_dropWhile, List.reverse_reverse]

lemma getLast?_stripEnd_ne (c : Char) (s : String) : (stripEnd c s).toList.getLast? ≠ some c := by
  rw [stripEnd, String.toList_ofList, List.getLast?_reverse]
  intro hlast
  have hnot := List.head?_dropWhile_not (· == c) s.toList.reverse
  rw [hlast] at hnot
  simp at hnot

lemma toList_stripEnd_eq_iff {ds : List Char} : (stripEnd c s).toList = ds ↔
    ds.getLast? ≠ some c ∧ ∃ count, s.toList = ds ++ List.replicate count c := by
  constructor
  · rintro rfl
    exact ⟨getLast?_stripEnd_ne c s, exists_eq_stripEnd_append c s⟩
  · rintro ⟨hds, count, hs⟩
    exact stripEnd_append hds count hs

end End

end CorridorTrust.Text
