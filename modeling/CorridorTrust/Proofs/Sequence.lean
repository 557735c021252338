import Mathlib

namespace CorridorTrust.Sequence

variable {ε α β : Type}

@[simp]
lemma ok_bind (a : α) (f : α → Except ε β) : (Except.ok a >>= f) = f a := rfl

@[simp]
lemma error_bind (e : ε) (f : α → Except ε β) : (Except.error e >>= f) = .error e := rfl

lemma exists_of_toBool {x : Except ε α} (h : x.toBool = true) : ∃ a, x = .ok a := by
  cases x with
  | ok a => exact ⟨a, rfl⟩
  | error e => cases h

lemma bind_eq_ok_iff {x : Except ε α} {f : α → Except ε β} {b : β} :
    (x >>= f) = .ok b ↔ ∃ a, x = .ok a ∧ f a = .ok b := by
  cases x <;> simp

lemma forM_eq_ok_iff {as : List α} {f : α → Except ε Unit} :
    as.forM f = .ok () ↔ ∀ a ∈ as, f a = .ok () := by
  induction as with
  | nil => simp [pure, Except.pure]
  | cons a as ih =>
    rw [List.forall_mem_cons, ← ih]
    change (f a >>= fun _ => as.forM f) = .ok () ↔ _
    rw [bind_eq_ok_iff]
    exact ⟨fun ⟨⟨⟩, ha, has⟩ => ⟨ha, has⟩, fun ⟨ha, has⟩ => ⟨(), ha, has⟩⟩

lemma map_eq_ok_iff {x : Except ε α} {f : α → β} {b : β} :
    x.map f = .ok b ↔ ∃ a, x = .ok a ∧ f a = b := by
  cases x <;> simp [Except.map]

lemma map_eq_error_iff {e : ε} {x : Except ε α} {f : α → β} : x.map f = .error e ↔ x = .error e := by
  cases x <;> simp [Except.map]

section Each

variable {as : List α} {f : α → Except ε β} {e : ε}

lemma mapM_cons_eq (a : α) (as : List α) (f : α → Except ε β) :
    (a :: as).mapM f = (f a).bind fun b => (as.mapM f).map (b :: ·) := by
  rw [List.mapM_cons]
  cases f a with
  | error e => rfl
  | ok b => cases as.mapM f <;> rfl

lemma mapM_eq_ok_iff {bs : List β} :
    as.mapM f = .ok bs ↔ List.Forall₂ (fun a b => f a = .ok b) as bs := by
  induction as generalizing bs with
  | nil => cases bs <;> simp [pure, Except.pure]
  | cons a as ih =>
    rw [mapM_cons_eq, List.forall₂_cons_left_iff]
    simp only [← ih]
    cases f a <;> cases as.mapM f <;> simp [Except.bind, Except.map, eq_comm]

lemma mapM_eq_error_iff : as.mapM f = .error e ↔
    ∃ before a after, as = before ++ a :: after ∧ (∀ b ∈ before, ∃ c, f b = .ok c) ∧ f a = .error e := by
  induction as with
  | nil => simp [pure, Except.pure]
  | cons a as ih =>
    rw [mapM_cons_eq]
    cases ha : f a with
    | error e' =>
      constructor
      · intro h
        exact ⟨[], a, as, rfl, by simp, ha.trans (by simpa [Except.bind] using h)⟩
      · rintro ⟨before, b, after, has, hbefore, hb⟩
        cases before with
        | nil =>
          obtain ⟨rfl, -⟩ := List.cons.inj has
          exact congrArg _ (Except.error.inj (ha.symm.trans hb))
        | cons c before =>
          obtain ⟨rfl, -⟩ := List.cons.inj has
          obtain ⟨d, hd⟩ := hbefore a List.mem_cons_self
          rw [ha] at hd
          cases hd
    | ok b =>
      have hrest : ((Except.ok b : Except ε β).bind fun b => (as.mapM f).map (b :: ·)) = .error e ↔
          as.mapM f = .error e := by
        cases as.mapM f <;> simp [Except.bind, Except.map]
      rw [hrest, ih]
      constructor
      · rintro ⟨before, c, after, rfl, hbefore, hc⟩
        exact ⟨a :: before, c, after, rfl, List.forall_mem_cons.2 ⟨⟨b, ha⟩, hbefore⟩, hc⟩
      · rintro ⟨before, c, after, has, hbefore, hc⟩
        cases before with
        | nil =>
          obtain ⟨rfl, -⟩ := List.cons.inj has
          rw [ha] at hc
          cases hc
        | cons d before =>
          obtain ⟨-, rfl⟩ := List.cons.inj has
          exact ⟨before, c, after, rfl, (List.forall_mem_cons.1 hbefore).2, hc⟩

lemma forM_eq_map_mapM (as : List α) (f : α → Except ε Unit) :
    as.forM f = (as.mapM f).map fun _ => () := by
  induction as with
  | nil => rfl
  | cons a as ih =>
    rw [mapM_cons_eq]
    change (f a >>= fun _ => as.forM f) = _
    rw [ih]
    cases f a with
    | error e => rfl
    | ok b => cases as.mapM f <;> rfl

lemma forM_eq_error_iff {f : α → Except ε Unit} : as.forM f = .error e ↔
    ∃ before a after, as = before ++ a :: after ∧ (∀ b ∈ before, f b = .ok ()) ∧ f a = .error e := by
  have hdone (b : α) : (∃ u, f b = .ok u) ↔ f b = .ok () := ⟨fun ⟨⟨⟩, h⟩ => h, fun h => ⟨(), h⟩⟩
  simp only [forM_eq_map_mapM, map_eq_error_iff, mapM_eq_error_iff, hdone]

end Each

/-- The outcome of tests made in order: each is passed, or the first that is not gives the error. -/
inductive Outcome (pass : α → Prop) (error : α → ε) : List α → Except ε Unit → Prop
  | passed {tests : List α} (h : ∀ t ∈ tests, pass t) : Outcome pass error tests (.ok ())
  | stopped (before : List α) {after : List α} {t : α} (h : ∀ u ∈ before, pass u) (ht : ¬pass t) :
      Outcome pass error (before ++ t :: after) (.error (error t))

namespace Outcome

variable {pass : α → Prop} {error : α → ε} {tests more : List α} {x : Except ε Unit}

lemma single {t : α} (hok : pass t → x = .ok ()) (herror : ¬pass t → x = .error (error t)) :
    Outcome pass error [t] x := by
  by_cases h : pass t
  · rw [hok h]
    exact .passed (by simpa using h)
  · rw [herror h]
    exact stopped [] (by simp) h

lemma append (tests : List α) {y : Except ε Unit} (h : ∀ t ∈ tests, pass t)
    (hy : Outcome pass error more y) : Outcome pass error (tests ++ more) y := by
  cases hy with
  | passed hmore => exact .passed fun t ht => (List.mem_append.1 ht).elim (h t) (hmore t)
  | @stopped before after t hbefore ht =>
    rw [← List.append_assoc]
    exact .stopped _ (fun u hu => (List.mem_append.1 hu).elim (h u) (hbefore u)) ht

lemma bind {f : Unit → Except ε Unit} (hx : Outcome pass error tests x)
    (hf : x = .ok () → Outcome pass error more (f ())) :
    Outcome pass error (tests ++ more) (x >>= f) := by
  cases hx with
  | passed h => exact append tests h (hf rfl)
  | @stopped before after t h ht =>
    rw [List.append_assoc, List.cons_append]
    exact .stopped before h ht

lemma forM {g : β → List α} {f : β → Except ε Unit} (bs : List β)
    (h : ∀ b ∈ bs, Outcome pass error (g b) (f b)) :
    Outcome pass error (bs.flatMap g) (bs.forM f) := by
  induction bs with
  | nil => exact .passed (by simp)
  | cons b bs ih =>
    rw [List.flatMap_cons]
    exact bind (h b List.mem_cons_self) fun _ => ih fun c hc => h c (List.mem_cons_of_mem _ hc)

lemma eq_ok_iff (h : Outcome pass error tests x) : x = .ok () ↔ ∀ t ∈ tests, pass t := by
  cases h with
  | passed h => exact iff_of_true rfl h
  | @stopped before after t hbefore ht =>
    exact iff_of_false (by simp) fun hall => ht (hall t (by simp))

lemma exists_of_error (hx : Outcome pass error tests x) {e : ε} (he : x = .error e) :
    ∃ before t after, tests = before ++ t :: after ∧ (∀ u ∈ before, pass u) ∧ ¬pass t ∧ e = error t := by
  cases hx with
  | passed => cases he
  | @stopped before after t hbefore ht => exact ⟨before, t, after, rfl, hbefore, ht, by simpa using he.symm⟩

lemma cons_iff {t : α} : Outcome pass error (t :: tests) x ↔
    (pass t ∧ Outcome pass error tests x) ∨ (¬pass t ∧ x = .error (error t)) := by
  constructor
  · generalize hall : t :: tests = all
    intro h
    cases h with
    | passed h =>
      subst hall
      exact .inl ⟨h t (by simp), .passed fun u hu => h u (List.mem_cons_of_mem _ hu)⟩
    | stopped before h hu =>
      cases before with
      | nil =>
        obtain ⟨rfl, -⟩ := List.cons.inj hall
        exact .inr ⟨hu, rfl⟩
      | cons w before =>
        obtain ⟨rfl, rfl⟩ := List.cons.inj hall
        obtain ⟨hpass, hbefore⟩ := List.forall_mem_cons.1 h
        exact .inl ⟨hpass, .stopped before hbefore hu⟩
  · rintro (⟨hpass, h⟩ | ⟨hfail, rfl⟩)
    · exact append [t] (by simpa using hpass) h
    · exact .stopped [] (by simp) hfail

lemma eq_of_same {pass' : α → Prop} {error' : α → ε} {y : Except ε Unit}
    (hx : Outcome pass error tests x) (hy : Outcome pass' error' tests y)
    (h : ∀ t ∈ tests, (pass t ↔ pass' t) ∧ error t = error' t) : x = y := by
  induction tests with
  | nil => exact (hx.eq_ok_iff.2 (by simp)).trans (hy.eq_ok_iff.2 (by simp)).symm
  | cons t tests ih =>
    obtain ⟨⟨hpass, herror⟩, htests⟩ := List.forall_mem_cons.1 h
    rcases cons_iff.1 hx with ⟨ht, hx⟩ | ⟨ht, rfl⟩
    · rcases cons_iff.1 hy with ⟨-, hy⟩ | ⟨ht', -⟩
      · exact ih hx hy htests
      · exact absurd (hpass.1 ht) ht'
    · rcases cons_iff.1 hy with ⟨ht', -⟩ | ⟨-, rfl⟩
      · exact absurd (hpass.2 ht') ht
      · rw [herror]

section Stricter

variable {strict : α → Prop} {y : Except ε Unit}

lemma exists_error_of_stricter (h : ∀ t, strict t → pass t) (hx : Outcome strict error tests x)
    (hy : Outcome pass error tests y) {e : ε} (he : y = .error e) :
    ∃ before u after, tests = before ++ u :: after ∧ e = error u ∧
      ∃ t ∈ before ++ [u], x = .error (error t) := by
  obtain ⟨before, u, after, rfl, -, hu, rfl⟩ := hy.exists_of_error he
  refine ⟨before, u, after, rfl, rfl, ?_⟩
  cases hok : x with
  | ok =>
    have hall := hx.eq_ok_iff.1 hok
    exact absurd (h u (hall u (by simp))) hu
  | error e' =>
    obtain ⟨first, t, rest, htests, hfirst, -, rfl⟩ := hx.exists_of_error hok
    refine ⟨t, ?_, rfl⟩
    have hnot : u ∉ first := fun hmem => hu (h u (hfirst u hmem))
    rcases List.append_eq_append_iff.1 htests with ⟨between, rfl, hrest⟩ | ⟨between, rfl, hrest⟩
    · cases between with
      | nil =>
        obtain ⟨rfl, -⟩ := List.cons.inj hrest
        exact List.mem_append_right _ List.mem_cons_self
      | cons w between =>
        obtain ⟨rfl, -⟩ := List.cons.inj hrest
        exact absurd (by simp) hnot
    · cases between with
      | nil =>
        obtain ⟨rfl, -⟩ := List.cons.inj hrest
        exact List.mem_append_right _ List.mem_cons_self
      | cons w between =>
        obtain ⟨rfl, -⟩ := List.cons.inj hrest
        simp

end Stricter

end Outcome

end CorridorTrust.Sequence
