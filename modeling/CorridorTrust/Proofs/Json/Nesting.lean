import CorridorTrust.Proofs.Json.Reading

namespace CorridorTrust.Json.Value

mutual

def depth : Value → ℕ
  | .array es => depthOfList es + 1
  | .object ms => depthOfMembers ms + 1
  | _ => 0

def depthOfList : List Value → ℕ
  | [] => 0
  | v :: vs => max (depth v) (depthOfList vs)

def depthOfMembers : Members → ℕ
  | [] => 0
  | (_, v) :: ms => max (depth v) (depthOfMembers ms)

end

variable {es : List Value} {ms : Members} {levels : ℕ} {v : Value}

lemma depthOfList_le_iff : depthOfList es ≤ levels ↔ ∀ v ∈ es, v.depth ≤ levels := by
  induction es with
  | nil => simp [depthOfList]
  | cons v es ih => rw [depthOfList, max_le_iff, ih, List.forall_mem_cons]

lemma depthOfMembers_le_iff : depthOfMembers ms ≤ levels ↔ ∀ m ∈ ms, m.2.depth ≤ levels := by
  induction ms with
  | nil => simp [depthOfMembers]
  | cons m ms ih => rw [depthOfMembers, max_le_iff, ih, List.forall_mem_cons]

lemma depth_array_le_iff : (array es).depth ≤ levels ↔
    ∃ below, levels = below + 1 ∧ ∀ v ∈ es, v.depth ≤ below := by
  rw [depth]
  cases levels with
  | zero => simp
  | succ below => simp [depthOfList_le_iff]

lemma depth_object_le_iff : (object ms).depth ≤ levels ↔
    ∃ below, levels = below + 1 ∧ ∀ m ∈ ms, m.2.depth ≤ below := by
  rw [depth]
  cases levels with
  | zero => simp
  | succ below => simp [depthOfMembers_le_iff]

lemma toValues?_toTrees (h : ∀ v ∈ es, v.toTree.toValue? levels = some v.normalize) :
    Tree.toValues? levels (toTrees es) = some (normalizeList es) := by
  induction es with
  | nil => simp [toTrees, Tree.toValues?, normalizeList]
  | cons v es ih =>
    obtain ⟨hv, hes⟩ := List.forall_mem_cons.1 h
    simp [toTrees, Tree.toValues?, normalizeList, hv, ih hes]

lemma toMembers?_toTreeMembers (h : ∀ m ∈ ms, m.2.toTree.toValue? levels = some m.2.normalize) :
    Tree.toMembers? levels (toTreeMembers ms) = some (normalizeMembers ms) := by
  induction ms with
  | nil => simp [toTreeMembers, Tree.toMembers?, normalizeMembers]
  | cons m ms ih =>
    obtain ⟨hm, hms⟩ := List.forall_mem_cons.1 h
    simp [toTreeMembers, Tree.toMembers?, normalizeMembers, hm, ih hms]

theorem toValue?_toTree (h : v.depth ≤ levels) : v.toTree.toValue? levels = some v.normalize := by
  induction v using Value.induction generalizing levels with
  | null | bool b | number n | string s => simp [toTree, Tree.toValue?, normalize]
  | array es ih =>
    obtain ⟨below, rfl, hes⟩ := depth_array_le_iff.1 h
    have hvalues := toValues?_toTrees fun v hv => ih v hv (hes v hv)
    rw [toTree, Tree.toValue?, hvalues, Option.map_some, normalize]
  | object ms ih =>
    obtain ⟨below, rfl, hms⟩ := depth_object_le_iff.1 h
    have hmembers := toMembers?_toTreeMembers fun m hm => ih m hm (hms m hm)
    rw [toTree, Tree.toValue?, hmembers, Option.map_some, normalize]

end CorridorTrust.Json.Value
