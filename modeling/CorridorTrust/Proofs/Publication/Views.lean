import CorridorTrust.Proofs.Sequence
import CorridorTrust.Publication.Index

/-!
The views of an index: hash tables that hold the position of each entry under its identifier and under
its name, filled entry by entry in the order of the identifiers. They come to exist exactly where the
index does, stay in step with its entries and find what the index finds.
-/

namespace CorridorTrust

lemma Tag.key_injective : Function.Injective Tag.key := by
  intro a b h
  cases a <;> cases b <;> first | rfl | exact absurd h (by decide)

namespace Entry

variable {e : Entry} {key slug : String} {tag : Tag}

lemma slugKey_eq_some_iff :
    e.slugKey = some (tag, slug) ↔ slug ≠ "" ∧ e.slug = some slug ∧ e.tag = tag := by
  rw [slugKey]
  cases e.slug with
  | none => simp
  | some s =>
    by_cases hs : s = ""
    · simp +contextual [hs, eq_comm]
    · simp only [if_neg hs, Option.some.injEq, Prod.mk.injEq]
      constructor
      · rintro ⟨rfl, rfl⟩
        exact ⟨hs, rfl, rfl⟩
      · rintro ⟨-, rfl, rfl⟩
        exact ⟨rfl, rfl⟩

def name? (e : Entry) : Option (String × String) := e.slugKey.map fun k => (k.1.key, k.2)

lemma name?_eq_some_iff : e.name? = some (key, slug) ↔ slug ≠ "" ∧ e.slug = some slug ∧ e.tag.key = key := by
  rw [name?, Option.map_eq_some_iff]
  constructor
  · rintro ⟨⟨tag, s⟩, hkey, h⟩
    obtain ⟨hs, hslug, rfl⟩ := slugKey_eq_some_iff.1 hkey
    cases h
    exact ⟨hs, hslug, rfl⟩
  · rintro ⟨hs, hslug, rfl⟩
    exact ⟨(e.tag, slug), slugKey_eq_some_iff.2 ⟨hs, hslug, rfl⟩, rfl⟩

lemma name?_eq_iff_slugKey_eq : e.name? = some (tag.key, slug) ↔ e.slugKey = some (tag, slug) := by
  rw [name?_eq_some_iff, slugKey_eq_some_iff, Tag.key_injective.eq_iff]

end Entry

namespace Index

section View

variable {α : Type} [BEq α] [Hashable α] {view : Std.HashMap α ℕ} {key : Entry → Option α}
variable {es : List Entry} {e : Entry} {k : α}

def IsView (view : Std.HashMap α ℕ) (key : Entry → Option α) (es : List Entry) : Prop :=
  ∀ k, view[k]? = es.findIdx? (key · == some k)

lemma isView_nil (key : Entry → Option α) : IsView ∅ key [] := fun _ => Std.HashMap.getElem?_empty

lemma IsView.skip (h : IsView view key es) (hkey : key e = none) : IsView view key (es ++ [e]) := by
  intro a
  rw [h, List.findIdx?_append, List.findIdx?_singleton, hkey]
  simp

variable [LawfulBEq α] [LawfulHashable α]

lemma IsView.contains (h : IsView view key es) (k : α) : view.contains k = es.any (key · == some k) := by
  rw [Std.HashMap.contains_eq_isSome_getElem?, h, List.findIdx?_isSome]

lemma IsView.insert (h : IsView view key es) (hkey : key e = some k) (hnew : view.contains k = false) :
    IsView (view.insert k es.length) key (es ++ [e]) := by
  intro a
  rw [Std.HashMap.getElem?_insert, h, List.findIdx?_append, List.findIdx?_singleton, hkey]
  by_cases hka : k = a
  · subst hka
    have hnone : es.findIdx? (key · == some k) = none := by
      rw [← h, ← Option.not_isSome_iff_eq_none, ← Std.HashMap.contains_eq_isSome_getElem?, hnew]
      exact Bool.false_ne_true
    simp [hnone]
  · simp [hka]

end View

structure Positions where
  uris : Std.HashMap String ℕ
  names : Std.HashMap (String × String) ℕ

namespace Positions

def enter (p : Positions) (position : ℕ) (e : Entry) : Except Fault Positions :=
  if p.uris.contains e.uri then .error (.duplicateUri e.uri)
  else
    match e.slugKey with
    | none => .ok { p with uris := p.uris.insert e.uri position }
    | some (tag, slug) =>
      if p.names.contains (tag.key, slug) then .error (.duplicateSlug tag slug)
      else .ok ⟨p.uris.insert e.uri position, p.names.insert (tag.key, slug) position⟩

def enterAll (p : Positions) (position : ℕ) : List Entry → Except Fault Positions
  | [] => .ok p
  | e :: es => do (← p.enter position e).enterAll (position + 1) es

structure AreOf (p : Positions) (es : List Entry) : Prop where
  uris : IsView p.uris (fun e => some e.uri) es
  names : IsView p.names Entry.name? es

variable {p q : Positions} {done es : List Entry} {e : Entry}

lemma areOf_nil : AreOf ⟨∅, ∅⟩ [] := ⟨isView_nil _, isView_nil _⟩

lemma AreOf.contains_uri (h : p.AreOf done) (uri : String) :
    p.uris.contains uri = done.any (·.uri == uri) := by
  rw [h.uris.contains]
  rfl

lemma AreOf.contains_name (h : p.AreOf done) (tag : Tag) (slug : String) :
    p.names.contains (tag.key, slug) = done.any (·.slugKey == some (tag, slug)) := by
  rw [h.names.contains]
  congr 1
  funext e
  rw [Bool.eq_iff_iff, beq_iff_eq, beq_iff_eq, Entry.name?_eq_iff_slugKey_eq]

lemma AreOf.enter (h : p.AreOf done) (hq : p.enter done.length e = .ok q) : q.AreOf (done ++ [e]) := by
  rw [Positions.enter] at hq
  split at hq
  · cases hq
  case isFalse huri =>
    have huris := h.uris.insert (e := e) rfl (by simpa using huri)
    cases hkey : e.slugKey with
    | none =>
      simp only [hkey] at hq
      cases hq
      exact ⟨huris, h.names.skip (by rw [Entry.name?, hkey, Option.map_none])⟩
    | some k =>
      obtain ⟨tag, slug⟩ := k
      simp only [hkey] at hq
      split at hq
      · cases hq
      case isFalse hname =>
        cases hq
        exact ⟨huris, h.names.insert (Entry.name?_eq_iff_slugKey_eq.2 hkey) (by simpa using hname)⟩

lemma AreOf.enterAll (h : p.AreOf done) (hq : p.enterAll done.length es = .ok q) :
    q.AreOf (done ++ es) := by
  induction es generalizing p done with
  | nil =>
    cases hq
    rwa [List.append_nil]
  | cons e es ih =>
    rw [Positions.enterAll] at hq
    obtain ⟨next, hnext, hq⟩ := Sequence.bind_eq_ok_iff.1 hq
    have hlater := ih (h.enter hnext) (by rwa [List.length_append])
    rwa [List.append_assoc] at hlater

lemma AreOf.checkDistinct_cons (h : p.AreOf done) : checkDistinct done.reverse (e :: es) =
    p.enter done.length e >>= fun _ => checkDistinct (e :: done.reverse) es := by
  rw [checkDistinct, Positions.enter, h.contains_uri, List.any_reverse]
  split
  · rfl
  · cases hkey : e.slugKey with
    | none => rfl
    | some k =>
      obtain ⟨tag, slug⟩ := k
      simp only [h.contains_name, List.any_reverse]
      split <;> rfl

lemma AreOf.checkDistinct_eq (h : p.AreOf done) (es : List Entry) :
    checkDistinct done.reverse es = (p.enterAll done.length es).map fun _ => () := by
  induction es generalizing p done with
  | nil => rfl
  | cons e es ih =>
    rw [h.checkDistinct_cons, Positions.enterAll]
    cases hnext : p.enter done.length e with
    | error fault => rfl
    | ok next =>
      have hlater := ih (h.enter hnext)
      rwa [List.reverse_append, List.length_append] at hlater

end Positions

structure Views extends Index, Positions

namespace Views

def build (es : List Entry) : Except Fault Views :=
  if es.isEmpty then .error .emptyIndex
  else do
    let positions ← Positions.enterAll ⟨∅, ∅⟩ 0 (sort es)
    return ⟨⟨sort es⟩, positions⟩

def find (v : Views) (uri : String) : Except Fault Entry :=
  match v.uris[uri]?.bind (v.entries[·]?) with
  | some e => .ok e
  | none => .error (.notFound (.token uri))

def findNamed (v : Views) (raw slug : String) : Except Fault Entry := do
  checkSlug slug
  let key := Tag.keyOf raw
  match v.names[(key, slug)]?.bind (v.entries[·]?) with
  | some e => return e
  | none => throw (.notFound (.named key slug))

variable {v : Views} {es : List Entry}

lemma map_toIndex_build (es : List Entry) : (build es).map toIndex = Index.build es := by
  rw [build, Index.build]
  split
  · rfl
  · have hcheck := Positions.areOf_nil.checkDistinct_eq (sort es)
    rw [List.reverse_nil, List.length_nil] at hcheck
    rw [hcheck]
    cases Positions.enterAll ⟨∅, ∅⟩ 0 (sort es) <;> rfl

lemma areOf_of_build (h : build es = .ok v) : v.AreOf v.entries := by
  rw [build] at h
  split at h
  · cases h
  · obtain ⟨positions, hpositions, h⟩ := Sequence.bind_eq_ok_iff.1 h
    cases h
    exact Positions.areOf_nil.enterAll hpositions

lemma find_eq (h : v.AreOf v.entries) (uri : String) : v.find uri = v.toIndex.find uri := by
  have hview : v.uris[uri]?.bind (v.entries[·]?) = v.entries.find? (·.uri == uri) := by
    rw [h.uris, List.find?_eq_bind_findIdx?_getElem?]
    rfl
  cases hfind : v.entries.find? (·.uri == uri) <;> simp [find, Index.find, hview, hfind]

lemma findNamed_eq (h : v.AreOf v.entries) (raw slug : String) :
    v.findNamed raw slug = v.toIndex.findNamed raw slug := by
  by_cases hempty : slug = ""
  · rw [findNamed, Index.findNamed, checkSlug, if_pos (.inl hempty), Sequence.error_bind, Sequence.error_bind]
  -- the slug is not empty, so that an entry with the slug has a name
  have hname (e : Entry) : (e.name? == some (Tag.keyOf raw, slug)) =
      (e.tag.key == Tag.keyOf raw && e.slug == some slug) := by
    rw [Bool.eq_iff_iff, beq_iff_eq, Entry.name?_eq_some_iff, Bool.and_eq_true, beq_iff_eq, beq_iff_eq,
      and_iff_right hempty, and_comm]
  have hview : v.names[(Tag.keyOf raw, slug)]?.bind (v.entries[·]?) =
      v.entries.find? fun e => e.tag.key == Tag.keyOf raw && e.slug == some slug := by
    simp only [h.names _, ← List.find?_eq_bind_findIdx?_getElem?, hname]
  cases hfind : v.entries.find? fun e => e.tag.key == Tag.keyOf raw && e.slug == some slug <;>
    simp only [findNamed, Index.findNamed, hview, hfind]

/-- The views hold the positions of the entries, and what is found through them is what is found among
the entries. -/
structure IsInStep (v : Views) : Prop where
  positions : v.AreOf v.entries
  found : ∀ uri, v.find uri = v.toIndex.find uri
  foundNamed : ∀ raw slug, v.findNamed raw slug = v.toIndex.findNamed raw slug

lemma isInStep_of_build (h : build es = .ok v) : v.IsInStep :=
  ⟨areOf_of_build h, find_eq (areOf_of_build h), findNamed_eq (areOf_of_build h)⟩

end Views

end Index

end CorridorTrust
