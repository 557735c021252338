import CorridorTrust.Proofs.Json.Nesting
import CorridorTrust.Proofs.Json.Parsing

/-!
Values that are read back from their compact text: every number is what its numeral stands for, every
object is a finite map, and nothing is nested deeper than reading goes. Whatever was read is such a value
as soon as its doubles are read back; integers always are.
-/

namespace CorridorTrust.Json

open Decimal

namespace Number

def IsStable (n : Number) : Prop := n.numeral.number? = some n

def InRange : Number → Prop
  | .integer n => -(2 ^ 63) ≤ n ∧ n < 2 ^ 64
  | .double _ => True

def IsFaithful : Number → Prop
  | .integer _ => True
  | .double x => Value.read? (Utf8.ofString (Value.number (.double x)).compact) =
      some (.number (.double x))

lemma IsStable.isRegular {n : Number} (h : n.IsStable) : n.IsRegular := isRegular_of_number? h

lemma inRange_of_number? {a : Numeral} {n : Number} (h : a.number? = some n) : n.InRange := by
  have hsize : UInt64.size = 2 ^ 64 := rfl
  unfold Numeral.number? at h
  dsimp only at h
  split_ifs at h with hplus hminus
  · obtain ⟨-, -, -, hlt⟩ := hplus
    obtain rfl : .integer (ofDigits a.whole) = n := by simpa using h
    constructor <;> omega
  · obtain ⟨-, -, -, -, hle⟩ := hminus
    obtain rfl : .integer (-ofDigits a.whole) = n := by simpa using h
    constructor <;> omega
  · obtain ⟨x, -, rfl⟩ := Option.map_eq_some_iff.1 h
    trivial

lemma isStable_integer {n : ℤ} (h : (integer n).InRange) : (integer n).IsStable := by
  obtain ⟨hlow, hhigh⟩ := h
  have hsize : UInt64.size = 2 ^ 64 := rfl
  rw [IsStable, numeral, Numeral.number?]
  simp only [ofDigits_digits, true_and]
  by_cases hn : n < 0
  · have habs : 0 < n.natAbs ∧ n.natAbs ≤ UInt64.size / 2 := by omega
    have hback : -(n.natAbs : ℤ) = n := by omega
    rw [if_neg (by simp [hn]), if_pos ⟨by simpa using hn, habs⟩, hback]
  · have habs : n.natAbs < UInt64.size := by omega
    have hback : (n.natAbs : ℤ) = n := by omega
    rw [if_pos ⟨by simpa using hn, habs⟩, hback]

end Number

namespace Tree

variable {v : Value}

lemma printedTree_eq_toTree (h : v.AllNumbers Number.IsStable) : v.printedTree = v.toTree :=
  Value.treeWith_eq_toTree h

lemma read?_of_scan? (h : v.AllNumbers Number.IsStable) {bs : Bytes}
    (hscan : Token.scan? bs = some v.tokens) : read? bs = some v.toTree := by
  rw [read?_of_scan?_tokens hscan, printedTree_eq_toTree h]

end Tree

namespace Value

variable {depth : ℕ} {v : Value} {es : List Value} {ms : Members}

/-- The value is read back where so many levels of nesting are left. -/
inductive IsLegible : ℕ → Value → Prop
  | null {depth : ℕ} : IsLegible depth .null
  | bool {depth : ℕ} (b : Bool) : IsLegible depth (.bool b)
  | number {depth : ℕ} {n : Number} (h : n.IsStable) : IsLegible depth (.number n)
  | string {depth : ℕ} (s : String) : IsLegible depth (.string s)
  | array {depth : ℕ} {es : List Value} (h : ∀ v ∈ es, IsLegible depth v) :
      IsLegible (depth + 1) (.array es)
  | object {depth : ℕ} {ms : Members} (hms : ms.IsMap) (h : ∀ m ∈ ms, IsLegible depth m.2) :
      IsLegible (depth + 1) (.object ms)

lemma IsLegible.allNumbers (h : IsLegible depth v) : v.AllNumbers Number.IsStable := by
  induction h with
  | null => exact .null
  | bool b => exact .bool b
  | number h => exact .number h
  | string s => exact .string s
  | array _ ih => exact .array ih
  | object _ _ ih => exact .object ih

lemma AllNumbers.isRegular_of_isStable (h : v.AllNumbers Number.IsStable) : v.IsRegular :=
  (h.imp fun _ hn => hn.isRegular).isRegular

lemma IsLegible.isRegular (h : IsLegible depth v) : v.IsRegular := h.allNumbers.isRegular_of_isStable

lemma IsLegible.isMap (h : IsLegible depth v) : v.IsMap := by
  induction h with
  | null => exact .null
  | bool b => exact .bool b
  | number => exact .number _
  | string s => exact .string s
  | array _ ih => exact .array ih
  | object hms _ ih => exact .object hms ih

lemma IsLegible.insert (h : IsLegible (depth + 1) (.object ms)) (k : String)
    (hv : IsLegible depth v) : IsLegible (depth + 1) (.object (ms.insert k v)) := by
  cases h with
  | object hms h =>
    refine .object (Members.isMap_insert hms) fun m hm => ?_
    rcases Members.mem_insert hm with rfl | hm
    · exact hv
    · exact h m hm

lemma IsLegible.erase (h : IsLegible depth (.object ms)) (k : String) :
    IsLegible depth (.object (ms.erase k)) := by
  cases h with
  | object hms h =>
    exact .object (Members.isMap_erase hms) fun m hm => h m (Members.mem_of_mem_erase hm)

lemma IsLegible.depth_le (h : IsLegible depth v) : v.depth ≤ depth := by
  induction h with
  | null | bool _ | number _ | string _ => simp [Value.depth]
  | array _ ih => exact depth_array_le_iff.2 ⟨_, rfl, ih⟩
  | object _ _ ih => exact depth_object_le_iff.2 ⟨_, rfl, ih⟩

lemma isLegible_of_depth_le (hmap : v.IsMap) (hnumbers : v.AllNumbers Number.IsStable)
    (hdepth : v.depth ≤ depth) : v.IsLegible depth := by
  induction hmap generalizing depth with
  | null => exact .null
  | bool b => exact .bool b
  | number n =>
    cases hnumbers with
    | number hn => exact .number hn
  | string s => exact .string s
  | array _ ih =>
    obtain ⟨below, rfl, hes⟩ := depth_array_le_iff.1 hdepth
    cases hnumbers with
    | array hnumbers => exact .array fun v hv => ih v hv (hnumbers v hv) (hes v hv)
  | object hms _ ih =>
    obtain ⟨below, rfl, hdepths⟩ := depth_object_le_iff.1 hdepth
    cases hnumbers with
    | object hnumbers => exact .object hms fun m hm => ih m hm (hnumbers m hm) (hdepths m hm)

lemma read?_normalize_of_scan? (hnumbers : v.AllNumbers Number.IsStable) (hdepth : v.depth ≤ maxDepth)
    {bs : Bytes} (hscan : Token.scan? bs = some v.tokens) : read? bs = some v.normalize := by
  rw [read?, Tree.read?_of_scan? hnumbers hscan, Option.bind_some, ofTree?, toValue?_toTree hdepth]

lemma IsLegible.read?_of_scan? (h : IsLegible maxDepth v) {bs : Bytes}
    (hscan : Token.scan? bs = some v.tokens) : read? bs = some v := by
  rw [read?_normalize_of_scan? h.allNumbers h.depth_le hscan, h.isMap.normalize_eq_self]

theorem IsLegible.read?_compact (h : IsLegible maxDepth v) : read? (Utf8.ofString v.compact) = some v :=
  h.read?_of_scan? (scan?_compact h.isRegular)

lemma isLegible_of_toValue? {t : Tree} (h : t.toValue? depth = some v)
    (hv : v.AllNumbers Number.IsStable) : v.IsLegible depth := by
  induction hv generalizing depth t with
  | null => exact .null
  | bool b => exact .bool b
  | number hn => exact .number hn
  | string s => exact .string s
  | array _ ih =>
    cases Tree.denotes_of_toValue? h with
    | array hvs =>
      refine .array fun v hv => ?_
      obtain ⟨t, -, hvalue⟩ := Tree.exists_of_mem_toValues? hvs hv
      exact ih v hv hvalue
  | object _ ih =>
    cases Tree.denotes_of_toValue? h with
    | object hout =>
      refine .object (Members.isMap_ofList _) fun a ha => ?_
      obtain ⟨m, -, hvalue⟩ := Tree.exists_of_mem_toMembers? hout (Members.mem_of_mem_ofList ha)
      exact ih a ha hvalue

lemma isFaithful_of_isStable {n : Number} (h : n.IsStable) : n.IsFaithful := by
  cases n with
  | integer n => trivial
  | double x => exact (IsLegible.number h).read?_compact

lemma isStable_of_isFaithful {n : Number} (hn : n.IsRegular ∧ n.InRange) (h : n.IsFaithful) :
    n.IsStable := by
  cases n with
  | integer n => exact Number.isStable_integer hn.2
  | double x =>
    have hscan : Token.scan? (Utf8.ofString (number (.double x)).compact) =
        some [.number (Number.double x).numeral] := scan?_compact (.number hn.1)
    rw [Number.IsFaithful, read?, Tree.read?, hscan] at h
    change ((Number.double x).numeral.number?.map number) = some (number (.double x)) at h
    obtain ⟨m, hm, heq⟩ := Option.map_eq_some_iff.1 h
    rw [Number.IsStable, hm, number.inj heq]

theorem isLegible_of_read? {bs : Bytes} (h : read? bs = some v) (hv : v.AllNumbers Number.IsFaithful) :
    v.IsLegible maxDepth := by
  have hnumbers : v.AllNumbers fun n => n.IsRegular ∧ n.InRange :=
    allNumbers_of_read? (fun _ _ hn => ⟨Number.isRegular_of_number? hn, Number.inRange_of_number? hn⟩) h
  obtain ⟨t, -, ht⟩ := Option.bind_eq_some_iff.1 h
  exact isLegible_of_toValue? ht (hnumbers.imp₂ hv fun _ => isStable_of_isFaithful)

end Value

end CorridorTrust.Json
