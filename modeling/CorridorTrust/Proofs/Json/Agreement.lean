import CorridorTrust.Proofs.Json.Restating

namespace CorridorTrust.Json

namespace Members

variable {ms ns : Members} {k : String} {v : Value}

lemma IsMap.get?_eq_some_iff (h : ms.IsMap) : ms.get? k = some v ↔ (k, v) ∈ ms := by
  refine ⟨mem_of_get?, fun hmem => ?_⟩
  induction ms with
  | nil => cases hmem
  | cons m ms ih =>
    obtain ⟨hm, hms⟩ := List.pairwise_cons.1 h
    rcases List.mem_cons.1 hmem with rfl | hmem
    · simp [get?]
    · have hne : (k == m.1) = false := by simpa using (hm _ hmem).ne'
      rw [get?, List.lookup_cons, hne]
      exact ih hms hmem

lemma IsMap.ext (hms : ms.IsMap) (hns : ns.IsMap) (h : ∀ k, ms.get? k = ns.get? k) : ms = ns := by
  have hnodup {l : Members} (hl : l.IsMap) : l.Nodup :=
    hl.imp fun hab he => hab.ne (congrArg Prod.fst he)
  have hperm : ms.Perm ns := by
    refine (List.perm_ext_iff_of_nodup (hnodup hms) (hnodup hns)).2 fun m => ?_
    rw [← hms.get?_eq_some_iff, h, hns.get?_eq_some_iff]
  exact hperm.eq_of_pairwise (fun a b _ _ hab hba => absurd hba hab.not_gt) hms hns

lemma get?_erase (name k : String) (ms : Members) :
    (ms.erase name).get? k = if k = name then none else ms.get? k := by
  induction ms with
  | nil => simp [erase, get?]
  | cons m ms ih =>
    rw [erase] at ih ⊢
    by_cases hm : m.1 = name
    · rw [List.filter_cons_of_neg (by simpa using hm), ih, get?, get?, List.lookup_cons]
      split_ifs with hk
      · rfl
      · have hne : (k == m.1) = false := by simpa [hm] using hk
        rw [hne]
    · rw [List.filter_cons_of_pos (by simpa using hm), get?, get?, List.lookup_cons, List.lookup_cons]
      rw [get?, get?] at ih
      by_cases hk : k = m.1
      · subst hk
        simp [hm]
      · have hne : (k == m.1) = false := by simpa using hk
        rw [hne, ih]

lemma erase_ofList (name : String) (ms : Members) :
    (ofList ms).erase name = ofList (ms.erase name) := by
  refine IsMap.ext (isMap_erase (isMap_ofList ms)) (isMap_ofList _) fun k => ?_
  rw [get?_erase, get?_ofList, get?_ofList, erase, List.filter_filter]
  split_ifs with hk
  · subst hk
    simp
  · congr 3
    funext m
    by_cases hm : m.1 = k <;> simp [hm, hk]

end Members

namespace Tree

def last? (ms : List (Option String × Tree)) (k : String) : Option Tree :=
  ((ms.filter fun m => m.1 == some k).getLast?).map Prod.snd

def without (name : String) (ms : List (Option String × Tree)) : List (Option String × Tree) :=
  ms.filter fun m => m.1 != some name

inductive Agrees : Tree → Tree → Prop
  | null : Agrees .null .null
  | bool (b : Bool) : Agrees (.bool b) (.bool b)
  | number (n : Option Number) : Agrees (.number n) (.number n)
  | string (s : Option String) : Agrees (.string s) (.string s)
  | array {ts us : List Tree} (hlength : ts.length = us.length)
      (h : ∀ (i : ℕ) t u, ts[i]? = some t → us[i]? = some u → Agrees t u) : Agrees (.array ts) (.array us)
  | object {ms ns : List (Option String × Tree)}
      (hkeys : ∀ k, (last? ms k).isSome = (last? ns k).isSome)
      (h : ∀ k t u, last? ms k = some t → last? ns k = some u → Agrees t u) :
      Agrees (.object ms) (.object ns)

variable {depth depth' : ℕ} {t u : Tree} {v w : Value} {ms ns : List (Option String × Tree)}
  {out : Members}

lemma exists_eq_object {a : Members} (h : t.toValue? depth = some (.object a)) :
    ∃ ms, t = .object ms := by
  cases denotes_of_toValue? h with
  | object => exact ⟨_, rfl⟩

lemma rel_getLast? {α β : Type} {R : α → β → Prop} {xs : List α} {ys : List β}
    (h : List.Forall₂ R xs ys) : Option.Rel R xs.getLast? ys.getLast? := by
  induction h with
  | nil => exact .none
  | @cons x y xs ys hxy h ih =>
    cases h with
    | nil => exact .some hxy
    | cons => simpa using ih

lemma rel_last? (h : toMembers? depth ms = some out) (k : String) :
    Option.Rel (fun t v => t.toValue? depth = some v) (last? ms k) ((Members.ofList out).get? k) := by
  have hnamed := List.rel_filter (p := fun m : Option String × Tree => m.1 == some k)
    (q := fun a : String × Value => a.1 == k) (fun m a hm => by simp [hm.1])
    (forall₂_of_toMembers? h)
  have hlast := rel_getLast? hnamed
  rw [last?, Members.get?_ofList]
  revert hlast
  generalize (ms.filter fun m => m.1 == some k).getLast? = o
  generalize (out.filter fun a => a.1 == k).getLast? = o'
  rintro (hm | _)
  · exact .some hm.2
  · exact .none

section Parts

variable {o o' : Option Tree} {x y : Option Value}

lemma eq_of_rel (ho : Option.Rel (fun t v => t.toValue? depth = some v) o x)
    (ho' : Option.Rel (fun t v => t.toValue? depth' = some v) o' y) (hsome : o.isSome = o'.isSome)
    (h : ∀ t u, o = some t → o' = some u → ∀ v w, t.toValue? depth = some v →
      u.toValue? depth' = some w → v = w) : x = y := by
  cases ho with
  | none =>
    cases ho' with
    | none => rfl
    | some => cases hsome
  | some ht =>
    cases ho' with
    | none => cases hsome
    | some hu => rw [h _ _ rfl rfl _ _ ht hu]

lemma exists_of_rel (ho : Option.Rel (fun t v => t.toValue? depth = some v) o x)
    (ht : o = some t) : ∃ v, x = some v ∧ t.toValue? depth = some v := by
  subst ht
  cases ho with
  | some hv => exact ⟨_, rfl, hv⟩

lemma isSome_of_rel (ho : Option.Rel (fun t v => t.toValue? depth = some v) o x) :
    o.isSome = x.isSome := by
  cases ho <;> rfl

end Parts

theorem eq_of_agrees (h : t.Agrees u) (ht : t.toValue? depth = some v)
    (hu : u.toValue? depth' = some w) : v = w := by
  induction h generalizing depth depth' v w with
  | null | bool _ | number _ | string _ =>
    cases denotes_of_toValue? ht
    cases denotes_of_toValue? hu
    rfl
  | @array ts us hlength _ ih =>
    cases denotes_of_toValue? ht with
    | @array _ _ vs hvs =>
    cases denotes_of_toValue? hu with
    | @array _ _ ws hws =>
    have hts (i : ℕ) := rel_getElem? (forall₂_of_toValues? hvs) i
    have hus (i : ℕ) := rel_getElem? (forall₂_of_toValues? hws) i
    refine congrArg Value.array (List.ext_getElem? fun i => eq_of_rel (hts i) (hus i) ?_ ?_)
    · rw [Bool.eq_iff_iff]
      simp [hlength]
    · exact fun t u hit hiu v w => ih i t u hit hiu
  | @object ms ns hkeys _ ih =>
    cases denotes_of_toValue? ht with
    | @object _ _ out hout =>
    cases denotes_of_toValue? hu with
    | @object _ _ out' hout' =>
    refine congrArg Value.object ((Members.isMap_ofList _).ext (Members.isMap_ofList _) fun k => ?_)
    exact eq_of_rel (rel_last? hout k) (rel_last? hout' k) (hkeys k)
      fun t u hkt hku v w => ih k t u hkt hku

theorem agrees_of_eq (ht : t.toValue? depth = some v) (hu : u.toValue? depth' = some v) :
    t.Agrees u := by
  induction v using Value.induction generalizing depth depth' t u with
  | null =>
    cases denotes_of_toValue? ht
    cases denotes_of_toValue? hu
    exact .null
  | bool b =>
    cases denotes_of_toValue? ht
    cases denotes_of_toValue? hu
    exact .bool b
  | number n =>
    cases denotes_of_toValue? ht
    cases denotes_of_toValue? hu
    exact .number _
  | string s =>
    cases denotes_of_toValue? ht
    cases denotes_of_toValue? hu
    exact .string _
  | array vs ih =>
    cases denotes_of_toValue? ht with
    | @array _ ts _ hts =>
    cases denotes_of_toValue? hu with
    | @array _ us _ hus =>
    have hts := forall₂_of_toValues? hts
    have hus := forall₂_of_toValues? hus
    refine .array (hts.length_eq.trans hus.length_eq.symm) fun i t u hit hiu => ?_
    obtain ⟨v, hv, hread⟩ := exists_of_rel (rel_getElem? hts i) hit
    obtain ⟨w, hw, hread'⟩ := exists_of_rel (rel_getElem? hus i) hiu
    obtain rfl : v = w := Option.some.inj (hv.symm.trans hw)
    exact ih v (List.mem_of_getElem? hv) hread hread'
  | object vs ih =>
    cases denotes_of_toValue? ht with
    | @object _ ms out hout =>
    generalize hvs : Members.ofList out = vs at hu ih
    cases denotes_of_toValue? hu with
    | @object _ ns out' hout' =>
    have hms (k : String) := rel_last? hout k
    have hns (k : String) := rel_last? hout' k
    rw [hvs] at hms
    refine .object (fun k => (isSome_of_rel (hms k)).trans (isSome_of_rel (hns k)).symm)
      fun k t u hkt hku => ?_
    obtain ⟨v, hv, hread⟩ := exists_of_rel (hms k) hkt
    obtain ⟨w, hw, hread'⟩ := exists_of_rel (hns k) hku
    obtain rfl : v = w := Option.some.inj (hv.symm.trans hw)
    exact ih (k, v) (Members.mem_of_get? hv) hread hread'

theorem agrees_iff (ht : t.toValue? depth = some v) (hu : u.toValue? depth' = some w) :
    t.Agrees u ↔ v = w :=
  ⟨fun h => eq_of_agrees h ht hu, fun h => agrees_of_eq ht (h ▸ hu)⟩

lemma toMembers?_without (h : toMembers? depth ms = some out) (name : String) :
    toMembers? depth (without name ms) = some (out.erase name) := by
  induction ms generalizing out with
  | nil =>
    obtain rfl : [] = out := by simpa [toMembers?] using h
    simp [without, Members.erase, toMembers?]
  | cons m ms ih =>
    simp only [toMembers?, Option.bind_eq_bind, Option.bind_eq_some_iff, Option.some.injEq] at h
    obtain ⟨k, hk, v, hv, rest, hrest, rfl⟩ := h
    have hms := ih hrest
    rw [without, Members.erase] at hms ⊢
    by_cases hname : k = name
    · rw [List.filter_cons_of_neg (by simp [hk, hname]), List.filter_cons_of_neg (by simp [hname]), hms]
    · rw [List.filter_cons_of_pos (by simp [hk, hname]), List.filter_cons_of_pos (by simp [hname])]
      simp [toMembers?, hk, hv, hms]

lemma toValue?_without {a : Members} (h : (object ms).toValue? depth = some (.object a))
    (name : String) : (object (without name ms)).toValue? depth = some (.object (a.erase name)) := by
  cases denotes_of_toValue? h with
  | @object depth _ out hout =>
  rw [toValue?, toMembers?_without hout, Option.map_some, Members.erase_ofList]

end Tree

end CorridorTrust.Json
