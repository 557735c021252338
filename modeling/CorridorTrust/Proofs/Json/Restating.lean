import CorridorTrust.Proofs.Json.Parsing

/-!
One text read twice. The value of a tree, written out and parsed again, restates the tree: of the members
with one key only the last is there, and numbers may be different. A record that was read from the tree is
read from the restatement as well, for a field of it that stands twice cannot be read at all.
-/

namespace CorridorTrust.Json

namespace Members

lemma get?_foldl_insert (ms acc : Members) (k : String) :
    (ms.foldl (fun acc m => insert m.1 m.2 acc) acc).get? k =
      (((ms.filter fun m => m.1 == k).getLast?).map Prod.snd).or (acc.get? k) := by
  induction ms generalizing acc with
  | nil => simp
  | cons m ms ih =>
    rw [List.foldl_cons, ih]
    by_cases hk : m.1 = k
    · subst hk
      rw [List.filter_cons_of_pos (by simp), get?_insert_self, List.getLast?_cons]
      cases (ms.filter fun a => a.1 == m.1).getLast? <;> rfl
    · rw [List.filter_cons_of_neg (by simpa using hk), get?_insert_of_ne (Ne.symm hk)]

lemma get?_ofList (ms : Members) (k : String) :
    (ofList ms).get? k = ((ms.filter fun m => m.1 == k).getLast?).map Prod.snd := by
  rw [ofList, get?_foldl_insert]
  exact Option.or_none

lemma get?_ofList_of_nodup {ms : Members} (h : (ms.map Prod.fst).Nodup) (k : String) :
    (ofList ms).get? k = ms.get? k := by
  rw [get?_ofList, filter_eq h]
  cases ms.get? k <;> rfl

end Members

namespace Tree

variable {t u : Tree} {ts : List Tree} {ms : List (Option String × Tree)} {α : Type}
  {read : Tree → Option α}

/-- What `u` says is the value of `t`, with whatever numbers in place of the value's. -/
def IsRestatedBy (t u : Tree) : Prop :=
  ∃ (depth : ℕ) (v : Value) (f : Number → Option Number), t.toValue? depth = some v ∧ u = v.treeWith f

lemma IsRestatedBy.elements (h : IsRestatedBy (.array ts) u) :
    ∃ us, u = .array us ∧ List.Forall₂ IsRestatedBy ts us := by
  obtain ⟨depth, v, f, hv, rfl⟩ := h
  cases denotes_of_toValue? hv with
  | @array depth _ vs hvs =>
    refine ⟨vs.map (Value.treeWith f), by rw [Value.treeWith, Value.treesWith_eq_map], ?_⟩
    rw [List.forall₂_map_right_iff]
    exact (forall₂_of_toValues? hvs).imp fun t v hv => ⟨depth, v, f, hv, rfl⟩

lemma IsRestatedBy.members (h : IsRestatedBy (.object ms) u) :
    ∃ us, u = .object us ∧ us.all (fun m => m.1.isSome) = true ∧
      ∀ name found, single ms name = some found →
        ∃ again, single us name = some again ∧ Option.Rel IsRestatedBy found again := by
  obtain ⟨depth, v, f, hv, rfl⟩ := h
  cases denotes_of_toValue? hv with
  | @object depth _ out hout =>
    refine ⟨_, by rw [Value.treeWith, Value.treeMembersWith_eq_map], by simp, fun name found hfound => ?_⟩
    have hnamed := List.rel_filter (p := fun m : Option String × Tree => m.1 == some name)
      (q := fun a : String × Value => a.1 == name) (fun m a hm => by simp [hm.1])
      (forall₂_of_toMembers? hout)
    rw [Members.single_map (Members.isMap_ofList out).nodup (Value.treeWith f), Members.get?_ofList]
    refine ⟨_, rfl, ?_⟩
    rw [single] at hfound
    -- the last of the members with this name is the only one, as the tree's reader found at most one
    generalize ms.filter (fun m => m.1 == some name) = named at hnamed hfound
    generalize out.filter (fun a => a.1 == name) = outNamed at hnamed ⊢
    cases hnamed with
    | nil =>
      obtain rfl : none = found := by simpa using hfound
      exact .none
    | @cons m a named outNamed hm hrest =>
      cases hrest with
      | nil =>
        obtain rfl : some m.2 = found := by simpa using hfound
        exact .some ⟨depth, a.2, f, hm.2, rfl⟩
      | cons _ _ => cases hfound

lemma rel_getElem? {β γ : Type} {R : β → γ → Prop} {xs : List β} {ys : List γ}
    (h : List.Forall₂ R xs ys) (i : ℕ) : Option.Rel R xs[i]? ys[i]? := by
  induction h generalizing i with
  | nil => exact .none
  | cons hxy _ ih =>
    cases i with
    | zero => exact .some hxy
    | succ i => exact ih i

lemma IsRestatedBy.fields? {names : List String} {fs : Fields} (h : t.IsRestatedBy u)
    (ht : t.fields? names = some fs) :
    ∃ gs, u.fields? names = some gs ∧ ∀ name ∈ names, Option.Rel IsRestatedBy (fs name) (gs name) := by
  cases t with
  | array ts =>
    obtain ⟨us, rfl, hus⟩ := h.elements
    rw [Tree.fields?] at ht ⊢
    rw [← hus.length_eq]
    split_ifs at ht ⊢
    obtain rfl := Option.some.inj ht
    exact ⟨_, rfl, fun name _ => rel_getElem? hus _⟩
  | object ms =>
    obtain ⟨us, rfl, hkeys, hus⟩ := h.members
    rw [Tree.fields?] at ht ⊢
    split_ifs at ht with hms
    obtain rfl := Option.some.inj ht
    obtain ⟨-, hms⟩ := Bool.and_eq_true_iff.1 hms
    have hagain : ∀ name ∈ names, ∃ again, single us name = some again ∧
        Option.Rel IsRestatedBy (single ms name).join again := by
      intro name hname
      obtain ⟨found, hfound⟩ := Option.isSome_iff_exists.1 (List.all_eq_true.1 hms name hname)
      rw [hfound]
      exact hus name found hfound
    have hnames : names.all (fun name => (single us name).isSome) = true := by
      refine List.all_eq_true.2 fun name hname => ?_
      obtain ⟨again, hsingle, -⟩ := hagain name hname
      rw [hsingle, Option.isSome_some]
    refine ⟨_, if_pos (by rw [hkeys, hnames]; rfl), fun name hname => ?_⟩
    obtain ⟨again, hsingle, hrel⟩ := hagain name hname
    rwa [hsingle]
  | _ => cases ht

lemma IsRestatedBy.eq_null (h : t.IsRestatedBy .null) : t = .null := by
  obtain ⟨depth, v, f, hv, heq⟩ := h
  cases denotes_of_toValue? hv with
  | null => rfl
  | _ => simp [Value.treeWith] at heq

def Survives (read : Tree → Option α) : Prop :=
  ∀ ⦃t u : Tree⦄ ⦃x : α⦄, t.IsRestatedBy u → read t = some x → read u = some x

lemma survives_string? : Survives string? := by
  intro t u s h ht
  cases t with
  | string o =>
    obtain rfl : o = some s := ht
    obtain ⟨depth, v, f, hv, rfl⟩ := h
    obtain rfl : .string s = v := by simpa [toValue?] using hv
    rfl
  | _ => cases ht

lemma Survives.nullable (h : Survives read) : Survives (nullable read) := by
  intro t u x htu ht
  by_cases hnull : t = .null
  · subst hnull
    obtain ⟨depth, v, f, hv, rfl⟩ := htu
    obtain rfl : .null = v := by simpa [toValue?] using hv
    exact ht
  · have hunfold (t : Tree) (hne : t ≠ .null) : Tree.nullable read t = (read t).map some := by
      cases t <;> first | rfl | exact absurd rfl hne
    have hu : u ≠ .null := by
      rintro rfl
      exact hnull htu.eq_null
    rw [hunfold t hnull] at ht
    obtain ⟨y, hy, rfl⟩ := Option.map_eq_some_iff.1 ht
    rw [hunfold u hu, h htu hy, Option.map_some]

lemma Survives.list? (h : Survives read) : Survives (list? read) := by
  intro t u xs htu ht
  cases t with
  | array ts =>
    obtain ⟨us, rfl, hus⟩ := htu.elements
    clear htu
    rw [Tree.list?] at ht ⊢
    induction hus generalizing xs with
    | nil => exact ht
    | @cons t u ts us htu _ ih =>
      simp only [List.mapM_cons, Option.bind_eq_bind, Option.bind_eq_some_iff, Option.pure_def] at ht ⊢
      obtain ⟨x, hx, rest, hrest, hcons⟩ := ht
      exact ⟨x, h htu hx, rest, ih hrest, hcons⟩
  | _ => cases ht

variable {o o' : Option Tree} {x : α}

lemma Survives.required (h : Survives read) (ho : Option.Rel IsRestatedBy o o')
    (hx : required read o = some x) : Tree.required read o' = some x := by
  cases ho with
  | none => cases hx
  | some hrel => exact h hrel hx

lemma Survives.orElse {absent : α} (h : Survives read) (ho : Option.Rel IsRestatedBy o o')
    (hx : orElse absent read o = some x) : Tree.orElse absent read o' = some x := by
  cases ho with
  | none => exact hx
  | some hrel => exact h hrel hx

end Tree

end CorridorTrust.Json
