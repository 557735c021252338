import Mathlib
import CorridorTrust.Json.Record

namespace CorridorTrust.Json.Tree

variable {names : List String} {name : String} {tree : Tree} {f : Fields}
  {ms : List (Option String × Tree)} {o : Option Tree}

inductive IsMember (ms : List (Option String × Tree)) (name : String) : Option Tree → Prop
  | absent (h : ∀ m ∈ ms, m.1 ≠ some name) : IsMember ms name none
  | only {before after : List (Option String × Tree)} {t : Tree} (h : ms = before ++ (some name, t) :: after)
      (hothers : ∀ m ∈ before ++ after, m.1 ≠ some name) : IsMember ms name (some t)

lemma filter_eq_nil_iff :
    (ms.filter fun m => m.1 == some name) = [] ↔ ∀ m ∈ ms, m.1 ≠ some name := by
  simp [List.filter_eq_nil_iff]

lemma single_of_isMember (h : IsMember ms name o) : single ms name = some o := by
  cases h with
  | absent h => rw [single, filter_eq_nil_iff.2 h]
  | @only before after t hms hothers =>
    have hbefore := filter_eq_nil_iff.2 fun m hm => hothers m (List.mem_append_left after hm)
    have hafter := filter_eq_nil_iff.2 fun m hm => hothers m (List.mem_append_right before hm)
    rw [single, hms, List.filter_append, hbefore, List.filter_cons_of_pos (by simp), hafter, List.nil_append]

lemma isMember_of_single (h : single ms name = some o) : IsMember ms name o := by
  rw [single] at h
  split at h
  next hnone =>
    obtain rfl := Option.some.inj h
    exact .absent (filter_eq_nil_iff.1 hnone)
  next m hone =>
    obtain rfl := Option.some.inj h
    obtain ⟨before, after, rfl, hbefore, hm, hafter⟩ := List.filter_eq_cons_iff.1 hone
    obtain ⟨k, t⟩ := m
    obtain rfl : k = some name := by simpa using hm
    refine .only rfl fun a ha => ?_
    rcases List.mem_append.1 ha with ha | ha
    · simpa using hbefore a ha
    · exact filter_eq_nil_iff.1 hafter a ha
  next => cases h

inductive IsRecord (names : List String) : Tree → Fields → Prop
  | array {es : List Tree} {f : Fields} (hlength : es.length ≤ names.length)
      (h : ∀ (i : ℕ) (name : String), names[i]? = some name → f name = es[i]?) :
      IsRecord names (.array es) f
  | object {ms : List (Option String × Tree)} {f : Fields} (hkeys : ∀ m ∈ ms, m.1 ≠ none)
      (h : ∀ name ∈ names, IsMember ms name (f name)) : IsRecord names (.object ms) f

lemma isRecord_of_fields? (hnames : names.Nodup) (h : tree.fields? names = some f) :
    IsRecord names tree f := by
  cases tree with
  | array es =>
    rw [fields?] at h
    split_ifs at h with hlength
    obtain rfl := Option.some.inj h
    refine .array hlength fun i name hi => ?_
    obtain ⟨hlt, rfl⟩ := List.getElem?_eq_some_iff.1 hi
    rw [hnames.idxOf_getElem i hlt]
  | object ms =>
    rw [fields?] at h
    split_ifs at h with hmembers
    obtain rfl := Option.some.inj h
    obtain ⟨hkeys, hsingle⟩ := Bool.and_eq_true_iff.1 hmembers
    refine .object (fun m hm => ?_) fun name hname => ?_
    · exact Option.isSome_iff_ne_none.1 (List.all_eq_true.1 hkeys m hm)
    · obtain ⟨o, ho⟩ := Option.isSome_iff_exists.1 (List.all_eq_true.1 hsingle name hname)
      rw [ho, Option.join_some]
      exact isMember_of_single ho
  | _ => cases h

lemma IsRecord.exists_fields? (h : IsRecord names tree f) :
    ∃ g, tree.fields? names = some g ∧ ∀ name ∈ names, g name = f name := by
  cases h with
  | array hlength h =>
    refine ⟨_, by rw [fields?, if_pos hlength], fun name hname => (h _ _ ?_).symm⟩
    rw [List.getElem?_eq_getElem (List.idxOf_lt_length_of_mem hname), List.getElem_idxOf]
  | @object ms _ hkeys h =>
    have hsingle (name : String) (hname : name ∈ names) : single ms name = some (f name) :=
      single_of_isMember (h name hname)
    have hmembers : (ms.all (fun m => m.1.isSome) &&
        names.all fun name => (single ms name).isSome) = true := by
      rw [Bool.and_eq_true, List.all_eq_true, List.all_eq_true]
      refine ⟨fun m hm => Option.isSome_iff_ne_none.2 (hkeys m hm), fun name hname => ?_⟩
      rw [hsingle name hname, Option.isSome_some]
    refine ⟨_, by rw [fields?, if_pos hmembers], fun name hname => ?_⟩
    rw [hsingle name hname, Option.join_some]

def IsField {α : Type} (absent : α) (read : Tree → Option α) (o : Option Tree) (a : α) : Prop :=
  o.elim (a = absent) fun t => read t = some a

lemma orElse_eq_some_iff {α : Type} {absent a : α} {read : Tree → Option α} :
    orElse absent read o = some a ↔ IsField absent read o a := by
  cases o <;> simp [orElse, IsField, eq_comm]

end CorridorTrust.Json.Tree
