import Mathlib
import CorridorTrust.Json.Record
import CorridorTrust.Proofs.Json.FiniteMap

namespace CorridorTrust.Json

namespace Tree

lemma forall₂_of_toValues? {depth : ℕ} {ts : List Tree} {vs : List Value}
    (h : toValues? depth ts = some vs) :
    List.Forall₂ (fun t v => t.toValue? depth = some v) ts vs := by
  induction ts generalizing vs with
  | nil =>
    obtain rfl : [] = vs := by simpa [toValues?] using h
    exact .nil
  | cons t ts ih =>
    simp only [toValues?, Option.bind_eq_bind, Option.bind_eq_some_iff, Option.some.injEq] at h
    obtain ⟨v, hv, vs, hvs, rfl⟩ := h
    exact .cons hv (ih hvs)

lemma forall₂_of_toMembers? {depth : ℕ} {ms : List (Option String × Tree)} {out : Members}
    (h : toMembers? depth ms = some out) :
    List.Forall₂ (fun m a => m.1 = some a.1 ∧ m.2.toValue? depth = some a.2) ms out := by
  induction ms generalizing out with
  | nil =>
    obtain rfl : [] = out := by simpa [toMembers?] using h
    exact .nil
  | cons m ms ih =>
    simp only [toMembers?, Option.bind_eq_bind, Option.bind_eq_some_iff, Option.some.injEq] at h
    obtain ⟨k, hk, v, hv, out, hout, rfl⟩ := h
    exact .cons ⟨hk, hv⟩ (ih hout)

lemma exists_of_forall₂ {α β : Type} {R : α → β → Prop} {xs : List α} {ys : List β}
    (h : List.Forall₂ R xs ys) {y : β} (hy : y ∈ ys) : ∃ x ∈ xs, R x y := by
  induction h with
  | nil => cases hy
  | @cons x z xs ys hxz _ ih =>
    rcases List.mem_cons.1 hy with rfl | hy
    · exact ⟨x, List.mem_cons_self, hxz⟩
    · obtain ⟨x', hx', hR⟩ := ih hy
      exact ⟨x', List.mem_cons_of_mem _ hx', hR⟩

lemma exists_of_mem_toValues? {depth : ℕ} {ts : List Tree} {vs : List Value}
    (h : toValues? depth ts = some vs) {v : Value} (hv : v ∈ vs) :
    ∃ t ∈ ts, t.toValue? depth = some v :=
  exists_of_forall₂ (forall₂_of_toValues? h) hv

lemma exists_of_mem_toMembers? {depth : ℕ} {ms : List (Option String × Tree)} {out : Members}
    (h : toMembers? depth ms = some out) {a : String × Value} (ha : a ∈ out) :
    ∃ m ∈ ms, m.2.toValue? depth = some a.2 := by
  obtain ⟨m, hm, -, hvalue⟩ := exists_of_forall₂ (forall₂_of_toMembers? h) ha
  exact ⟨m, hm, hvalue⟩

section Lists

variable {α : Type} {read : Tree → Option α} {xs : List α}

lemma list?_array_eq_some_iff {ts : List Tree} :
    list? read (.array ts) = some xs ↔ List.Forall₂ (fun t x => read t = some x) ts xs := by
  rw [list?]
  induction ts generalizing xs with
  | nil => simp [eq_comm]
  | cons t ts ih =>
    simp only [List.mapM_cons, Option.bind_eq_bind, Option.bind_eq_some_iff, Option.pure_def,
      Option.some.injEq, List.forall₂_cons_left_iff, ih]
    constructor
    · rintro ⟨x, hx, rest, hrest, rfl⟩
      exact ⟨x, rest, hx, hrest, rfl⟩
    · rintro ⟨x, rest, hx, hrest, rfl⟩
      exact ⟨x, hx, rest, hrest, rfl⟩

lemma list?_map {f : α → Tree} (h : ∀ x ∈ xs, read (f x) = some x) :
    list? read (.array (xs.map f)) = some xs :=
  list?_array_eq_some_iff.2 (List.forall₂_map_left_iff.2 (List.forall₂_same.2 h))

lemma exists_of_mem_list? {t : Tree} (h : list? read t = some xs) {x : α} (hx : x ∈ xs) :
    ∃ u, read u = some x := by
  cases t with
  | array ts =>
    obtain ⟨u, -, hu⟩ := exists_of_forall₂ (list?_array_eq_some_iff.1 h) hx
    exact ⟨u, hu⟩
  | _ => cases h

end Lists

inductive Denotes : ℕ → Tree → Value → Prop
  | null {depth : ℕ} : Denotes depth .null .null
  | bool {depth : ℕ} (b : Bool) : Denotes depth (.bool b) (.bool b)
  | number {depth : ℕ} (n : Number) : Denotes depth (.number (some n)) (.number n)
  | string {depth : ℕ} (s : String) : Denotes depth (.string (some s)) (.string s)
  | array {depth : ℕ} {ts : List Tree} {vs : List Value} (h : toValues? depth ts = some vs) :
      Denotes (depth + 1) (.array ts) (.array vs)
  | object {depth : ℕ} {ms : List (Option String × Tree)} {out : Members}
      (h : toMembers? depth ms = some out) :
      Denotes (depth + 1) (.object ms) (.object (Members.ofList out))

lemma denotes_of_toValue? {depth : ℕ} {t : Tree} {v : Value} (h : t.toValue? depth = some v) :
    Denotes depth t v := by
  cases t with
  | null =>
    obtain rfl : .null = v := by simpa [toValue?] using h
    exact .null
  | bool b =>
    obtain rfl : .bool b = v := by simpa [toValue?] using h
    exact .bool b
  | number n =>
    obtain ⟨n, rfl, rfl⟩ := Option.map_eq_some_iff.1 (by simpa only [toValue?] using h)
    exact .number n
  | string s =>
    obtain ⟨s, rfl, rfl⟩ := Option.map_eq_some_iff.1 (by simpa only [toValue?] using h)
    exact .string s
  | array ts =>
    cases depth with
    | zero => cases h
    | succ depth =>
      obtain ⟨vs, hvs, rfl⟩ := Option.map_eq_some_iff.1 (by simpa only [toValue?] using h)
      exact .array hvs
  | object ms =>
    cases depth with
    | zero => cases h
    | succ depth =>
      obtain ⟨out, hout, rfl⟩ := Option.map_eq_some_iff.1 (by simpa only [toValue?] using h)
      exact .object hout

lemma toValue?_isMap {depth : ℕ} {t : Tree} {v : Value} (h : t.toValue? depth = some v) : v.IsMap := by
  induction v using Value.induction generalizing depth t with
  | null => exact .null
  | bool b => exact .bool b
  | number n => exact .number n
  | string s => exact .string s
  | array vs ih =>
    cases denotes_of_toValue? h with
    | array hvs =>
      refine .array fun v hv => ?_
      obtain ⟨t, -, hvalue⟩ := exists_of_mem_toValues? hvs hv
      exact ih v hv hvalue
  | object ms ih =>
    cases denotes_of_toValue? h with
    | object hout =>
      refine .object (Members.isMap_ofList _) fun a ha => ?_
      obtain ⟨m, -, hvalue⟩ := exists_of_mem_toMembers? hout (Members.mem_of_mem_ofList ha)
      exact ih a ha hvalue

end Tree

namespace Value

theorem isMap_of_read? {bs : Bytes} {v : Value} (h : read? bs = some v) : v.IsMap := by
  obtain ⟨t, -, ht⟩ := Option.bind_eq_some_iff.1 h
  exact Tree.toValue?_isMap ht

lemma ne_nil_of_read? {bs : Bytes} {v : Value} (h : read? bs = some v) : bs ≠ [] := by
  rintro rfl
  cases h

lemma toTrees_eq_map (es : List Value) : toTrees es = es.map toTree := by
  induction es with
  | nil => rfl
  | cons v vs ih => rw [toTrees, ih, List.map_cons]

lemma toTreeMembers_eq_map (ms : Members) :
    toTreeMembers ms = ms.map fun m => (some m.1, m.2.toTree) := by
  induction ms with
  | nil => rfl
  | cons m ms ih => rw [toTreeMembers, ih, List.map_cons]

end Value

namespace Members

variable {ms : Members}

lemma IsMap.nodup (h : ms.IsMap) : (ms.map Prod.fst).Nodup := List.pairwise_map.2 (h.imp ne_of_lt)

lemma filter_eq (h : (ms.map Prod.fst).Nodup) (name : String) :
    ms.filter (fun m => m.1 == name) = ((ms.get? name).map fun v => (name, v)).toList := by
  induction ms with
  | nil => rfl
  | cons m ms ih =>
    obtain ⟨hm, hms⟩ := List.nodup_cons.1 h
    obtain ⟨k, v⟩ := m
    by_cases hk : k = name
    · subst hk
      have hrest : ms.filter (fun m => m.1 == k) = [] := by
        refine List.filter_eq_nil_iff.2 fun a ha hak => hm ?_
        exact List.mem_map.2 ⟨a, ha, by simpa using hak⟩
      simp [get?, hrest]
    · have hname : (name == k) = false := by simpa using Ne.symm hk
      have hkey : (k == name) = false := by simpa using hk
      simpa [get?, List.lookup_cons, hname, hkey] using ih hms

lemma single_map (h : (ms.map Prod.fst).Nodup) (f : Value → Tree) (name : String) :
    Tree.single (ms.map fun m => (some m.1, f m.2)) name = some ((ms.get? name).map f) := by
  have hfilter : (ms.map fun m => (some m.1, f m.2)).filter (fun m => m.1 == some name) =
      ((ms.get? name).map fun v => (some name, f v)).toList := by
    have hsame : ((fun m : Option String × Tree => m.1 == some name) ∘
        fun m : String × Value => (some m.1, f m.2)) = fun m => m.1 == name := by
      funext m
      simp
    rw [List.filter_map, hsame, filter_eq h]
    cases ms.get? name <;> rfl
  rw [Tree.single, hfilter]
  cases ms.get? name <;> rfl

theorem fields?_map (h : (ms.map Prod.fst).Nodup) (f : Value → Tree) (names : List String) :
    (Tree.object (ms.map fun m => (some m.1, f m.2))).fields? names =
      some fun name => (ms.get? name).map f := by
  have hkeys : (ms.map fun m => (some m.1, f m.2)).all (fun m => m.1.isSome) = true := by simp
  have hnames : names.all (fun name =>
      (Tree.single (ms.map fun m => (some m.1, f m.2)) name).isSome) = true := by
    simp [single_map h]
  rw [Tree.fields?, if_pos (by rw [hkeys, hnames]; rfl)]
  congr 1
  funext name
  rw [single_map h, Option.join_some]

theorem IsMap.fields? (h : ms.IsMap) (names : List String) :
    (Value.object ms).toTree.fields? names = some fun name => (ms.get? name).map Value.toTree := by
  rw [Value.toTree, Value.toTreeMembers_eq_map, fields?_map h.nodup]

end Members

end CorridorTrust.Json
