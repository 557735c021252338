import CorridorTrust.Proofs.Json.Printing

namespace CorridorTrust.Json

namespace Value

variable {f : Number → Option Number}

mutual

def treeWith (f : Number → Option Number) : Value → Tree
  | .null => .null
  | .bool b => .bool b
  | .number n => .number (f n)
  | .string s => .string (some s)
  | .array es => .array (treesWith f es)
  | .object ms => .object (treeMembersWith f ms)

def treesWith (f : Number → Option Number) : List Value → List Tree
  | [] => []
  | v :: vs => treeWith f v :: treesWith f vs

def treeMembersWith (f : Number → Option Number) : Members → List (Option String × Tree)
  | [] => []
  | (k, v) :: ms => (some k, treeWith f v) :: treeMembersWith f ms

end

lemma treesWith_eq_map (es : List Value) : treesWith f es = es.map (treeWith f) := by
  induction es with
  | nil => rfl
  | cons v vs ih => rw [treesWith, ih, List.map_cons]

lemma treeMembersWith_eq_map (ms : Members) :
    treeMembersWith f ms = ms.map fun m => (some m.1, m.2.treeWith f) := by
  induction ms with
  | nil => rfl
  | cons m ms ih => rw [treeMembersWith, ih, List.map_cons]

lemma treeWith_eq_toTree {v : Value} (h : v.AllNumbers fun n => f n = some n) :
    v.treeWith f = v.toTree := by
  induction h with
  | null | bool _ | string _ => rfl
  | number hn => rw [treeWith, hn, toTree]
  | @array es _ ih => rw [treeWith, toTree, treesWith_eq_map, toTrees_eq_map, List.map_congr_left ih]
  | @object ms _ ih =>
    rw [treeWith, toTree, treeMembersWith_eq_map, toTreeMembers_eq_map]
    exact congrArg Tree.object (List.map_congr_left fun m hm => by rw [ih m hm])

def printedTree (v : Value) : Tree := v.treeWith fun n => n.numeral.number?

lemma printedTree_string (s : String) : (string s).printedTree = .string (some s) := rfl

lemma printedTree_array (es : List Value) : (array es).printedTree = .array (es.map printedTree) := by
  rw [printedTree, treeWith, treesWith_eq_map]
  rfl

lemma printedTree_object (ms : Members) :
    (object ms).printedTree = .object (ms.map fun m => (some m.1, m.2.printedTree)) := by
  rw [printedTree, treeWith, treeMembersWith_eq_map]
  rfl

end Value

namespace Tree

variable {es : List Value} {ms : Members}

/-- The tokens of the value give the tree of its texts, whatever tokens follow. -/
def Reparses (v : Value) : Prop :=
  ∀ ts fs, start (v.tokens ++ ts) fs = resume ts v.printedTree fs

lemma start_leftBracket (v : Value) (ts : List Token) (fs : List Frame) :
    start (.leftBracket :: (v.tokens ++ ts)) fs = start (v.tokens ++ ts) (.array [] :: fs) := by
  obtain ⟨us, hus⟩ := v.exists_tokens_eq
  rw [hus, List.cons_append]
  cases v <;> rfl

lemma resume_elementTokens (h : ∀ v ∈ es, Reparses v) (t : Tree) (done : List Tree) (ts : List Token)
    (fs : List Frame) : resume (Value.elementTokens es ++ ts) t (.array done :: fs) =
      resume ts (.array (done.reverse ++ t :: es.map Value.printedTree)) fs := by
  induction es generalizing t done with
  | nil => simp [Value.elementTokens, resume]
  | cons v es ih =>
    have hv := h v List.mem_cons_self (Value.elementTokens es ++ ts) (.array (t :: done) :: fs)
    have hes := ih (fun w hw => h w (List.mem_cons_of_mem _ hw)) v.printedTree (t :: done)
    simp only [Value.elementTokens, List.cons_append, List.append_assoc, resume]
    rw [hv, hes]
    simp

lemma resume_memberTokens (h : ∀ m ∈ ms, Reparses m.2) (key : Option String) (t : Tree)
    (done : List (Option String × Tree)) (ts : List Token) (fs : List Frame) :
    resume (Value.memberTokens ms ++ ts) t (.object done key :: fs) =
      resume ts (.object (done.reverse ++ (key, t) :: ms.map fun m => (some m.1, m.2.printedTree))) fs := by
  induction ms generalizing key t done with
  | nil => simp [Value.memberTokens, resume]
  | cons m ms ih =>
    obtain ⟨k, v⟩ := m
    have hv := h _ List.mem_cons_self (Value.memberTokens ms ++ ts)
      (.object ((key, t) :: done) (some k) :: fs)
    have hms := ih (fun a ha => h a (List.mem_cons_of_mem _ ha)) (some k) v.printedTree ((key, t) :: done)
    simp only [Value.memberTokens, List.cons_append, List.append_assoc, resume]
    rw [hv, hms]
    simp

theorem reparses (v : Value) : Reparses v := by
  induction v using Value.induction with
  | null | bool _ | string _ | number _ => exact fun _ _ => rfl
  | array es ih =>
    intro ts fs
    cases es with
    | nil => rfl
    | cons v es =>
      have hes := resume_elementTokens (fun w hw => ih w (List.mem_cons_of_mem _ hw)) v.printedTree [] ts fs
      rw [Value.tokens, List.cons_append, List.cons_append, List.append_assoc, start_leftBracket,
        ih v List.mem_cons_self, hes, Value.printedTree_array]
      rfl
  | object ms ih =>
    intro ts fs
    cases ms with
    | nil => rfl
    | cons m ms =>
      obtain ⟨k, v⟩ := m
      have hms := resume_memberTokens (fun a ha => ih a (List.mem_cons_of_mem _ ha)) (some k)
        v.printedTree [] ts fs
      simp only [Value.tokens, List.cons_append, List.append_assoc, start]
      rw [ih _ List.mem_cons_self, hms, Value.printedTree_object]
      rfl

lemma read?_of_scan?_tokens {v : Value} {bs : Bytes} (hscan : Token.scan? bs = some v.tokens) :
    read? bs = some v.printedTree := by
  have hparses := reparses v [] []
  rw [List.append_nil] at hparses
  rw [read?, hscan, Option.bind_some, ofTokens?, hparses]
  rfl

end Tree

end CorridorTrust.Json
