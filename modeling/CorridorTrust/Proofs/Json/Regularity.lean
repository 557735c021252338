import CorridorTrust.Proofs.Json.Numeral
import CorridorTrust.Proofs.Json.Reading

namespace CorridorTrust.Json

namespace Value

inductive IsRegular : Value → Prop
  | null : IsRegular .null
  | bool (b : Bool) : IsRegular (.bool b)
  | number {n : Number} (h : n.IsRegular) : IsRegular (.number n)
  | string (s : String) : IsRegular (.string s)
  | array {es : List Value} (h : ∀ v ∈ es, IsRegular v) : IsRegular (.array es)
  | object {ms : Members} (h : ∀ m ∈ ms, IsRegular m.2) : IsRegular (.object ms)

lemma IsRegular.erase {ms : Members} (h : IsRegular (.object ms)) (k : String) :
    IsRegular (.object (ms.erase k)) := by
  cases h with
  | object h => exact .object fun m hm => h m (Members.mem_of_mem_erase hm)

@[simp]
lemma isRegular_bool (b : Bool) : (bool b).IsRegular := .bool b

@[simp]
lemma isRegular_string (s : String) : (string s).IsRegular := .string s

@[simp]
lemma isRegular_integer (n : ℤ) : (number (.integer n)).IsRegular := .number trivial

@[simp]
lemma isRegular_array {es : List Value} : (array es).IsRegular ↔ ∀ v ∈ es, v.IsRegular := by
  refine ⟨fun h => ?_, .array⟩
  cases h with
  | array h => exact h

lemma isRegular_object {ms : Members} : (object ms).IsRegular ↔ ∀ m ∈ ms, m.2.IsRegular := by
  refine ⟨fun h => ?_, .object⟩
  cases h with
  | object h => exact h

lemma IsRegular.normalize {v : Value} (h : v.IsRegular) : v.normalize.IsRegular := by
  induction h with
  | null | bool _ | number _ | string _ => constructor; try assumption
  | array _ ih =>
    rw [Value.normalize, normalizeList_eq_map]
    refine .array fun w hw => ?_
    obtain ⟨v, hv, rfl⟩ := List.mem_map.1 hw
    exact ih v hv
  | object _ ih =>
    rw [Value.normalize, normalizeMembers_eq_map]
    refine .object fun m hm => ?_
    obtain ⟨a, ha, rfl⟩ := List.mem_map.1 (Members.mem_of_mem_ofList hm)
    exact ih a ha

variable {P Q : Number → Prop}

inductive AllNumbers (P : Number → Prop) : Value → Prop
  | null : AllNumbers P .null
  | bool (b : Bool) : AllNumbers P (.bool b)
  | number {n : Number} (h : P n) : AllNumbers P (.number n)
  | string (s : String) : AllNumbers P (.string s)
  | array {es : List Value} (h : ∀ v ∈ es, AllNumbers P v) : AllNumbers P (.array es)
  | object {ms : Members} (h : ∀ m ∈ ms, AllNumbers P m.2) : AllNumbers P (.object ms)

lemma AllNumbers.isRegular {v : Value} (h : v.AllNumbers Number.IsRegular) : v.IsRegular := by
  induction h with
  | null => exact .null
  | bool b => exact .bool b
  | number h => exact .number h
  | string s => exact .string s
  | array _ ih => exact .array ih
  | object _ ih => exact .object ih

lemma IsRegular.allNumbers {v : Value} (h : v.IsRegular) : v.AllNumbers Number.IsRegular := by
  induction h with
  | null => exact .null
  | bool b => exact .bool b
  | number h => exact .number h
  | string s => exact .string s
  | array _ ih => exact .array ih
  | object _ ih => exact .object ih

lemma AllNumbers.imp₂ {R : Number → Prop} {v : Value} (hP : v.AllNumbers P) (hQ : v.AllNumbers Q)
    (h : ∀ n, P n → Q n → R n) : v.AllNumbers R := by
  induction hP with
  | null => exact .null
  | bool b => exact .bool b
  | @number n hp =>
    cases hQ with
    | number hq => exact .number (h n hp hq)
  | string s => exact .string s
  | array _ ih =>
    cases hQ with
    | array hes => exact .array fun v hv => ih v hv (hes v hv)
  | object _ ih =>
    cases hQ with
    | object hms => exact .object fun m hm => ih m hm (hms m hm)

lemma AllNumbers.imp {v : Value} (hv : v.AllNumbers P) (h : ∀ n, P n → Q n) : v.AllNumbers Q :=
  hv.imp₂ hv fun n hn _ => h n hn

end Value

namespace Tree

variable {P : Number → Prop}

inductive AllNumbers (P : Number → Prop) : Tree → Prop
  | null : AllNumbers P .null
  | bool (b : Bool) : AllNumbers P (.bool b)
  | number {n : Option Number} (h : ∀ m, n = some m → P m) : AllNumbers P (.number n)
  | string (s : Option String) : AllNumbers P (.string s)
  | array {es : List Tree} (h : ∀ t ∈ es, AllNumbers P t) : AllNumbers P (.array es)
  | object {ms : List (Option String × Tree)} (h : ∀ m ∈ ms, AllNumbers P m.2) :
      AllNumbers P (.object ms)

def Frame.AllNumbers (P : Number → Prop) : Frame → Prop
  | .array es => ∀ t ∈ es, t.AllNumbers P
  | .object ms _ => ∀ m ∈ ms, m.2.AllNumbers P

lemma allNumbers_of_start (hP : ∀ (a : Numeral) n, a.number? = some n → P n) (ts : List Token)
    (fs : List Frame) :
    (∀ f ∈ fs, f.AllNumbers P) → ∀ t, start ts fs = some t → t.AllNumbers P := by
  -- reading a value keeps the property of the open frames, going on after it also needs it of the value
  refine start.induct (motive_1 := fun ts fs => (∀ f ∈ fs, f.AllNumbers P) →
      ∀ t, start ts fs = some t → t.AllNumbers P)
    (motive_2 := fun ts u fs => u.AllNumbers P → (∀ f ∈ fs, f.AllNumbers P) →
      ∀ t, resume ts u fs = some t → t.AllNumbers P)
    ?null ?bool ?number ?string ?array₀ ?array ?object₀ ?object ?none
    ?done ?element ?elements ?member ?members ?stuck ts fs
  case null => exact fun ts fs ih => ih .null
  case bool => exact fun b ts fs ih => ih (.bool b)
  case number => exact fun n ts fs ih => ih (.number fun m hm => hP n m hm)
  case string => exact fun s ts fs ih => ih (.string s)
  case array₀ => exact fun ts fs ih => ih (.array (by simp))
  case array =>
    intro ts fs hne ih hfs t h
    rw [start] at h
    · exact ih (List.forall_mem_cons.2 ⟨by simp [Frame.AllNumbers], hfs⟩) t h
    · exact hne
  case object₀ => exact fun ts fs ih => ih (.object (by simp))
  case object =>
    intro k ts fs ih hfs
    exact ih (List.forall_mem_cons.2 ⟨by simp [Frame.AllNumbers], hfs⟩)
  case none =>
    intro ts fs _ _ _ _ _ _ _ _ _ t h
    rw [start] at h <;> first | cases h | assumption
  case done =>
    rintro t ht - _ ⟨⟩
    exact ht
  case element =>
    intro ts t es fs ih ht hfs
    obtain ⟨hes, hfs⟩ := List.forall_mem_cons.1 hfs
    exact ih (List.forall_mem_cons.2 ⟨List.forall_mem_cons.2 ⟨ht, hes⟩, hfs⟩)
  case elements =>
    intro ts t es fs ih ht hfs
    obtain ⟨hes, hfs⟩ := List.forall_mem_cons.1 hfs
    exact ih (.array fun u hu => List.forall_mem_cons.2 ⟨ht, hes⟩ u (List.mem_reverse.1 hu)) hfs
  case member =>
    intro k ts t ms key fs ih ht hfs
    obtain ⟨hms, hfs⟩ := List.forall_mem_cons.1 hfs
    exact ih (List.forall_mem_cons.2 ⟨List.forall_mem_cons.2 ⟨ht, hms⟩, hfs⟩)
  case members =>
    intro ts t ms key fs ih ht hfs
    obtain ⟨hms, hfs⟩ := List.forall_mem_cons.1 hfs
    have hall : ∀ m ∈ (key, t) :: ms, m.2.AllNumbers P := List.forall_mem_cons.2 ⟨ht, hms⟩
    exact ih (.object fun m hm => hall m (List.mem_reverse.1 hm)) hfs
  case stuck =>
    intro ts t fs _ _ _ _ _ _ _ u h
    rw [resume] at h <;> first | cases h | assumption

lemma AllNumbers.value {t : Tree} (ht : t.AllNumbers P) {depth : ℕ} {v : Value}
    (h : t.toValue? depth = some v) : v.AllNumbers P := by
  induction ht generalizing depth v with
  | null =>
    cases denotes_of_toValue? h
    exact .null
  | bool b =>
    cases denotes_of_toValue? h
    exact .bool b
  | number hn =>
    cases denotes_of_toValue? h
    exact .number (hn _ rfl)
  | string =>
    cases denotes_of_toValue? h
    exact .string _
  | array _ ih =>
    cases denotes_of_toValue? h with
    | array hvs =>
      refine .array fun v hv => ?_
      obtain ⟨t, ht, hvalue⟩ := exists_of_mem_toValues? hvs hv
      exact ih t ht hvalue
  | object _ ih =>
    cases denotes_of_toValue? h with
    | object hout =>
      refine .object fun a ha => ?_
      obtain ⟨m, hm, hvalue⟩ := exists_of_mem_toMembers? hout (Members.mem_of_mem_ofList ha)
      exact ih m hm hvalue

end Tree

namespace Value

variable {P : Number → Prop} {bs : Bytes} {v : Value}

theorem allNumbers_of_read? (hP : ∀ (a : Numeral) n, a.number? = some n → P n)
    (h : read? bs = some v) : v.AllNumbers P := by
  obtain ⟨t, ht, hv⟩ := Option.bind_eq_some_iff.1 h
  obtain ⟨ts, -, hstart⟩ := Option.bind_eq_some_iff.1 ht
  exact (Tree.allNumbers_of_start hP ts [] (by simp) t hstart).value hv

theorem isRegular_of_read? (h : read? bs = some v) : v.IsRegular :=
  (allNumbers_of_read? (fun _ _ => Number.isRegular_of_number?) h).isRegular

end Value

end CorridorTrust.Json
