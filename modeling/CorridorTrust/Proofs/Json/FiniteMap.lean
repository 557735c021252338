import Mathlib
import CorridorTrust.Json.Value

namespace CorridorTrust.Json

lemma lookup_eq_some_iff {α : Type} {ks : List (String × α)} (h : (ks.map Prod.fst).Nodup) {k : String}
    {a : α} : ks.lookup k = some a ↔ (k, a) ∈ ks := by
  induction ks with
  | nil => simp
  | cons k' ks ih =>
    obtain ⟨hk, hks⟩ := List.nodup_cons.1 h
    obtain ⟨k', a'⟩ := k'
    by_cases he : k = k'
    · subst he
      have hnot : (k, a) ∉ ks := fun hm => hk (List.mem_map.2 ⟨_, hm, rfl⟩)
      simp [hnot, eq_comm]
    · have hbeq : (k == k') = false := by simpa using he
      simp [List.lookup_cons, hbeq, he, ih hks]

namespace Members

def IsMap (ms : Members) : Prop := ms.Pairwise fun a b => a.1 < b.1

variable {ms : Members} {k : String} {v : Value}

lemma mem_insert {a : String × Value} (h : a ∈ insert k v ms) : a = (k, v) ∨ a ∈ ms := by
  fun_induction insert k v ms <;> grind

lemma isMap_insert (h : ms.IsMap) : (insert k v ms).IsMap := by
  induction ms with
  | nil => simp [insert, IsMap]
  | cons m ms ih =>
    obtain ⟨hm, hms⟩ := List.pairwise_cons.1 h
    rw [insert]
    split
    next hlt =>
      refine List.pairwise_cons.2 ⟨fun a ha => ?_, h⟩
      rcases List.mem_cons.1 ha with rfl | ha
      · exact hlt
      · exact hlt.trans (hm a ha)
    next hlt =>
      split
      next heq =>
        subst heq
        exact List.pairwise_cons.2 ⟨hm, hms⟩
      next hne =>
        refine List.pairwise_cons.2 ⟨fun a ha => ?_, ih hms⟩
        rcases mem_insert ha with rfl | ha
        · exact lt_of_le_of_ne (not_lt.1 hlt) (Ne.symm hne)
        · exact hm a ha

lemma isMap_foldl_insert (ms acc : Members) (h : acc.IsMap) :
    (ms.foldl (fun acc m => insert m.1 m.2 acc) acc).IsMap := by
  induction ms generalizing acc with
  | nil => exact h
  | cons m ms ih => exact ih _ (isMap_insert h)

lemma isMap_ofList (ms : Members) : (ofList ms).IsMap := isMap_foldl_insert ms [] List.Pairwise.nil

lemma mem_foldl_insert {acc : Members} {a : String × Value}
    (h : a ∈ ms.foldl (fun acc m => insert m.1 m.2 acc) acc) : a ∈ ms ∨ a ∈ acc := by
  induction ms generalizing acc with
  | nil => exact .inr h
  | cons m ms ih =>
    rcases ih h with h | h
    · exact .inl (List.mem_cons_of_mem _ h)
    · rcases mem_insert h with rfl | h
      · exact .inl List.mem_cons_self
      · exact .inr h

lemma mem_of_mem_ofList {a : String × Value} (h : a ∈ ofList ms) : a ∈ ms :=
  (mem_foldl_insert h).resolve_right List.not_mem_nil

lemma insert_last (h : ∀ a ∈ ms, a.1 < k) : insert k v ms = ms ++ [(k, v)] := by
  induction ms with
  | nil => rfl
  | cons m ms ih =>
    have hm : m.1 < k := h m List.mem_cons_self
    have hms : insert k v ms = ms ++ [(k, v)] := ih fun a ha => h a (List.mem_cons_of_mem _ ha)
    rw [insert, if_neg hm.not_gt, if_neg hm.ne', hms, List.cons_append]

lemma foldl_insert_append (ms acc : Members) (h : (acc ++ ms).IsMap) :
    ms.foldl (fun acc m => insert m.1 m.2 acc) acc = acc ++ ms := by
  induction ms generalizing acc with
  | nil => simp
  | cons m ms ih =>
    have hlast : insert m.1 m.2 acc = acc ++ [m] :=
      insert_last fun a ha => (List.pairwise_append.1 h).2.2 a ha m List.mem_cons_self
    rw [List.foldl_cons, hlast, ih _ (by simpa using h), List.append_assoc, List.singleton_append]

lemma ofList_eq_self (h : ms.IsMap) : ofList ms = ms := foldl_insert_append ms [] h

lemma isMap_erase (h : ms.IsMap) : (ms.erase k).IsMap := List.Pairwise.filter _ h

lemma mem_of_mem_erase {a : String × Value} (h : a ∈ ms.erase k) : a ∈ ms :=
  List.mem_of_mem_filter h

lemma mem_of_get? (h : ms.get? k = some v) : (k, v) ∈ ms := by
  obtain ⟨before, after, rfl, _⟩ := List.lookup_eq_some_iff.1 h
  simp

lemma get?_insert_self (k : String) (v : Value) (ms : Members) : (insert k v ms).get? k = some v := by
  induction ms with
  | nil => simp [insert, get?]
  | cons m ms ih =>
    obtain ⟨k', w⟩ := m
    rw [insert]
    split_ifs with hlt heq
    · simp [get?]
    · simp [get?]
    · have hne : (k == k') = false := by simpa using heq
      rw [get?, List.lookup_cons, hne]
      exact ih

lemma get?_insert_of_ne {j : String} (h : j ≠ k) (v : Value) (ms : Members) :
    (insert k v ms).get? j = ms.get? j := by
  have hne : (j == k) = false := by simpa using h
  induction ms with
  | nil => simp [insert, get?, List.lookup_cons, hne]
  | cons m ms ih =>
    obtain ⟨k', w⟩ := m
    rw [insert]
    split_ifs with hlt heq
    · rw [get?, List.lookup_cons, hne]
      rfl
    · subst heq
      simp [get?, List.lookup_cons, hne]
    · rw [get?, get?, List.lookup_cons, List.lookup_cons]
      split
      · rfl
      · exact ih

lemma erase_insert (k : String) (v : Value) (ms : Members) : (insert k v ms).erase k = ms.erase k := by
  induction ms with
  | nil => simp [insert, erase]
  | cons m ms ih =>
    obtain ⟨k', w⟩ := m
    rw [insert]
    split_ifs with hlt heq
    · simp [erase]
    · simp [erase, heq]
    · simp only [erase, List.filter_cons] at ih ⊢
      rw [ih]

lemma insert_insert (k : String) (v w : Value) (ms : Members) :
    insert k v (insert k w ms) = insert k v ms := by
  induction ms with
  | nil => simp [insert]
  | cons m ms ih =>
    obtain ⟨k', u⟩ := m
    by_cases hlt : k < k'
    · simp [insert, hlt]
    · by_cases heq : k = k'
      · simp [insert, heq]
      · simp [insert, hlt, heq, ih]

end Members

namespace Value

@[elab_as_elim]
theorem induction {motive : Value → Prop} (null : motive .null) (bool : ∀ b, motive (.bool b))
    (number : ∀ n, motive (.number n)) (string : ∀ s, motive (.string s))
    (array : ∀ es, (∀ v ∈ es, motive v) → motive (.array es))
    (object : ∀ ms, (∀ m ∈ ms, motive m.2) → motive (.object ms)) (v : Value) : motive v := by
  refine Value.rec (motive_1 := motive) (motive_2 := fun es => ∀ v ∈ es, motive v)
    (motive_3 := fun ms => ∀ m ∈ ms, motive m.2) (motive_4 := fun m => motive m.2)
    null bool number string array object (by simp) ?_ (by simp) ?_ (fun _ _ h => h) v
  · rintro v vs hv hvs w (_ | ⟨_, hw⟩)
    · exact hv
    · exact hvs w hw
  · rintro m ms hm hms a (_ | ⟨_, ha⟩)
    · exact hm
    · exact hms a ha

lemma normalizeList_eq_map (es : List Value) : normalizeList es = es.map normalize := by
  induction es with
  | nil => rfl
  | cons v vs ih => rw [normalizeList, ih, List.map_cons]

lemma normalizeMembers_eq_map (ms : Members) :
    normalizeMembers ms = ms.map fun m => (m.1, m.2.normalize) := by
  induction ms with
  | nil => rfl
  | cons m ms ih => rw [normalizeMembers, ih, List.map_cons]

inductive IsMap : Value → Prop
  | null : IsMap .null
  | bool (b : Bool) : IsMap (.bool b)
  | number (n : Number) : IsMap (.number n)
  | string (s : String) : IsMap (.string s)
  | array {es : List Value} (h : ∀ v ∈ es, IsMap v) : IsMap (.array es)
  | object {ms : Members} (hms : ms.IsMap) (h : ∀ m ∈ ms, IsMap m.2) : IsMap (.object ms)

lemma IsMap.members {ms : Members} (h : IsMap (.object ms)) : ms.IsMap := by
  cases h with
  | object hms _ => exact hms

lemma IsMap.erase {ms : Members} (h : IsMap (.object ms)) (k : String) :
    IsMap (.object (ms.erase k)) := by
  cases h with
  | object hms h => exact .object (Members.isMap_erase hms) fun m hm => h m (Members.mem_of_mem_erase hm)

lemma IsMap.get? {ms : Members} (h : IsMap (.object ms)) {k : String} {v : Value}
    (hv : ms.get? k = some v) : v.IsMap := by
  cases h with
  | object _ h => exact h (k, v) (Members.mem_of_get? hv)

theorem IsMap.normalize_eq_self {v : Value} (h : v.IsMap) : v.normalize = v := by
  induction h with
  | null | bool _ | number _ | string _ => rfl
  | @array es _ ih =>
    have hid : es.map normalize = es := (List.map_congr_left ih).trans (List.map_id es)
    rw [normalize, normalizeList_eq_map, hid]
  | @object ms hms _ ih =>
    have hid : (ms.map fun m => (m.1, m.2.normalize)) = ms := by
      refine (List.map_congr_left (g := id) fun m hm => ?_).trans (List.map_id ms)
      exact Prod.ext rfl (ih m hm)
    rw [normalize, normalizeMembers_eq_map, hid, Members.ofList_eq_self hms]

end Value

end CorridorTrust.Json
