import CorridorTrust.Proofs.Corridor.Naming
import CorridorTrust.Proofs.Publication.Identity
import CorridorTrust.Proofs.Publication.Views

/-!
Lookups in an index. An index is built exactly from entries that no identifier and no slug under one tag
has twice; it then holds each entry once and finds the one that is asked for, also by position through
its views. The order in which the entries are given plays no part.
-/

namespace CorridorTrust

namespace Entry

/-- The entries share neither the identifier nor, under one tag, a slug that is not empty. -/
def IsApart (a b : Entry) : Prop :=
  a.uri ≠ b.uri ∧ ∀ slug, slug ≠ "" → a.slug = some slug → b.slug = some slug → a.tag ≠ b.tag

lemma IsApart.symm {a b : Entry} (h : a.IsApart b) : b.IsApart a :=
  ⟨h.1.symm, fun slug hslug hb ha => (h.2 slug hslug ha hb).symm⟩

instance : Std.Symm IsApart := ⟨fun _ _ => IsApart.symm⟩

end Entry

namespace Index

variable {es es' entries : List Entry} {x : Index} {e : Entry} {fault : Fault} {raw slug : String}

lemma apart_iff {a b : Entry} : Apart a b ↔ a.IsApart b := by
  constructor
  · intro h
    exact ⟨h.1, fun slug hslug ha hb => slug_apart h hslug ha hb⟩
  · rintro ⟨huri, hslugs⟩
    refine ⟨huri, ?_⟩
    rintro ⟨tag, slug⟩ hb ha
    obtain ⟨hslug, hbslug, hbtag⟩ := Entry.slugKey_eq_some_iff.1 hb
    obtain ⟨-, haslug, hatag⟩ := Entry.slugKey_eq_some_iff.1 ha
    exact hslugs slug hslug haslug hbslug (hatag.trans hbtag.symm)

lemma pairwise_sort_iff (es : List Entry) :
    (sort es).Pairwise Apart ↔ es.Pairwise Entry.IsApart := by
  have happart : Apart = Entry.IsApart := by
    funext a b
    exact propext apart_iff
  rw [happart]
  exact (List.mergeSort_perm es _).pairwise_iff Entry.IsApart.symm

lemma exists_build_iff : (∃ x, build es = .ok x) ↔ es ≠ [] ∧ es.Pairwise Entry.IsApart := by
  simp only [build_eq_ok_iff, pairwise_sort_iff]
  exact ⟨fun ⟨_, hne, _, h⟩ => ⟨hne, h⟩, fun ⟨hne, h⟩ => ⟨⟨sort es⟩, hne, rfl, h⟩⟩

lemma build_of_perm (hperm : es.Perm es') (h : build es = .ok x) : build es' = .ok x := by
  obtain ⟨hne, hentries, hapart⟩ := build_eq_ok_iff.1 h
  have hapart' : (sort es').Pairwise Apart := by
    rw [pairwise_sort_iff] at hapart ⊢
    exact (hperm.pairwise_iff Entry.IsApart.symm).1 hapart
  refine build_eq_ok_iff.2 ⟨?_, ?_, hapart'⟩
  · rintro rfl
    exact hne hperm.eq_nil
  · rw [hentries, (sort_eq_sort_iff hapart hapart').2 hperm]

section Faults

inductive IsRepeated (es : List Entry) : Fault → Prop
  | uri {a b : Entry} {rest : List Entry} (h : es.Perm (a :: b :: rest)) (hsame : a.uri = b.uri) :
      IsRepeated es (.duplicateUri a.uri)
  | slug {a b : Entry} {rest : List Entry} {slug : String} (h : es.Perm (a :: b :: rest))
      (hne : slug ≠ "") (ha : a.slug = some slug) (hb : b.slug = some slug) (hsame : a.tag = b.tag) :
      IsRepeated es (.duplicateSlug a.tag slug)

lemma IsRepeated.of_perm (h : IsRepeated es fault) (hperm : es'.Perm es) : IsRepeated es' fault := by
  cases h with
  | uri h hsame => exact .uri (hperm.trans h) hsame
  | slug h hne ha hb hsame => exact .slug (hperm.trans h) hne ha hb hsame

lemma exists_perm_of_mem {seen : List Entry} {a : Entry} (ha : a ∈ seen) (e : Entry) (es : List Entry) :
    ∃ rest, (seen ++ e :: es).Perm (e :: a :: rest) := by
  obtain ⟨before, after, rfl⟩ := List.append_of_mem ha
  refine ⟨before ++ after ++ es, List.perm_middle.trans (.cons e ?_)⟩
  rw [List.append_assoc, List.append_assoc, List.cons_append]
  exact List.perm_middle

lemma isRepeated_of_checkDistinct {seen : List Entry} (h : checkDistinct seen es = .error fault) :
    IsRepeated (seen ++ es) fault := by
  induction es generalizing seen with
  | nil => cases h
  | cons e es ih =>
    -- the entry repeats one that has been seen, or is seen itself when the others are checked
    have hlater (h : checkDistinct (e :: seen) es = .error fault) : IsRepeated (seen ++ e :: es) fault :=
      (ih h).of_perm List.perm_middle
    rw [checkDistinct] at h
    by_cases huri : seen.any (·.uri == e.uri) = true
    · obtain ⟨a, ha, hsame⟩ := List.any_eq_true.1 huri
      obtain ⟨rest, hperm⟩ := exists_perm_of_mem ha e es
      rw [if_pos huri] at h
      cases h
      exact .uri hperm (beq_iff_eq.1 hsame).symm
    · rw [if_neg huri] at h
      cases hkey : e.slugKey with
      | none => exact hlater (by simpa [hkey] using h)
      | some k =>
        obtain ⟨tag, slug⟩ := k
        simp only [hkey] at h
        by_cases hslug : seen.any (·.slugKey == some (tag, slug)) = true
        · obtain ⟨a, ha, hsame⟩ := List.any_eq_true.1 hslug
          obtain ⟨rest, hperm⟩ := exists_perm_of_mem ha e es
          obtain ⟨hne, he, rfl⟩ := Entry.slugKey_eq_some_iff.1 hkey
          obtain ⟨-, ha, htag⟩ := Entry.slugKey_eq_some_iff.1 (by simpa using hsame)
          rw [if_pos hslug] at h
          cases h
          exact .slug hperm hne he ha htag.symm
        · rw [if_neg hslug] at h
          exact hlater h

lemma isRepeated_of_build (hne : es ≠ []) (h : build es = .error fault) : IsRepeated es fault := by
  have hsort : (sort es).Perm es := List.mergeSort_perm es _
  have hfault : checkDistinct [] (sort es) = .error fault := by
    rw [build, if_neg (by simpa using hne)] at h
    cases hcheck : checkDistinct [] (sort es) with
    | ok u =>
      rw [hcheck] at h
      cases h
    | error other =>
      rw [hcheck] at h
      cases h
      rfl
  exact (isRepeated_of_checkDistinct hfault).of_perm hsort.symm

end Faults

section Names

def IsUnsafe (slug : String) : Prop := slug = "" ∨ ['.', '.'] <:+: slug.toList

lemma unsafe_iff : (slug = "" ∨ Text.contains slug ".." = true) ↔ IsUnsafe slug := by
  rw [Text.contains_iff]
  rfl

lemma findNamed_of_isUnsafe (h : IsUnsafe slug) (x : Index) (raw : String) :
    x.findNamed raw slug = .error (.invalidIdentifier (.slug slug)) := by
  rw [findNamed, checkSlug, if_pos (unsafe_iff.2 h), Sequence.error_bind]

def isNamed (raw slug : String) (e : Entry) : Bool := e.tag.key == Tag.keyOf raw && e.slug == some slug

lemma isNamed_iff : isNamed raw slug e = true ↔ e.slug = some slug ∧ e.tag.IsWrittenAs raw := by
  rw [isNamed, Bool.and_eq_true, beq_iff_eq, beq_iff_eq, eq_comm, Tag.keyOf_eq_key_iff, and_comm]

lemma findNamed_of_safe (h : ¬IsUnsafe slug) (x : Index) (raw : String) : x.findNamed raw slug =
    match x.entries.find? (isNamed raw slug) with
    | some e => .ok e
    | none => .error (.notFound (.named (Tag.keyOf raw) slug)) := by
  rw [findNamed, checkSlug, if_neg (unsafe_iff.not.2 h)]
  rfl

lemma findNamed_eq_error_iff (h : ¬IsUnsafe slug) : x.findNamed raw slug = .error fault ↔
    (∀ e ∈ x.entries, e.slug = some slug → ¬e.tag.IsWrittenAs raw) ∧
      fault = .notFound (.named (Tag.keyOf raw) slug) := by
  have hnone : x.entries.find? (isNamed raw slug) = none ↔
      ∀ e ∈ x.entries, e.slug = some slug → ¬e.tag.IsWrittenAs raw := by
    simp only [List.find?_eq_none, isNamed_iff, not_and]
  rw [findNamed_of_safe h, ← hnone]
  cases x.entries.find? (isNamed raw slug) <;> simp [eq_comm]

lemma findNamed_eq_ok_iff (h : ¬IsUnsafe slug) (hx : x.entries.Pairwise Entry.IsApart) :
    x.findNamed raw slug = .ok e ↔ e ∈ x.entries ∧ e.slug = some slug ∧ e.tag.IsWrittenAs raw := by
  rw [findNamed_of_safe h]
  cases hfind : x.entries.find? (isNamed raw slug) with
  | none =>
    refine iff_of_false (by simp) ?_
    rintro ⟨he, hnamed⟩
    exact List.find?_eq_none.1 hfind e he (isNamed_iff.2 hnamed)
  | some found =>
    have hmem := List.mem_of_find?_eq_some hfind
    obtain ⟨hslug, htag⟩ := isNamed_iff.1 (List.find?_some hfind)
    constructor
    · intro he
      obtain rfl : found = e := by simpa using he
      exact ⟨hmem, hslug, htag⟩
    · rintro ⟨he, heslug, hetag⟩
      by_contra hne
      have happart : found.IsApart e := hx.forall hmem he fun heq => hne (by rw [heq])
      refine happart.2 slug (fun hempty => h (.inl hempty)) hslug heslug ?_
      rw [← Tag.keyOf_eq_key_iff] at htag hetag
      exact Tag.key_injective (htag.symm.trans hetag)

lemma find_eq_error_iff {uri : String} : x.find uri = .error fault ↔
    (∀ e ∈ x.entries, e.uri ≠ uri) ∧ fault = .notFound (.token uri) := by
  have hnone : x.entries.find? (·.uri == uri) = none ↔ ∀ e ∈ x.entries, e.uri ≠ uri := by
    simp [List.find?_eq_none]
  rw [find, ← hnone]
  cases x.entries.find? (·.uri == uri) <;> simp [eq_comm]

end Names

section Answers

structure Answers (es : List Entry) (x : Index) : Prop where
  each : x.entries.Perm es
  ordered : x.entries.Pairwise fun a b => Utf8.ofString a.uri < Utf8.ofString b.uri
  found : ∀ uri e, x.find uri = .ok e ↔ e ∈ es ∧ e.uri = uri
  notFound : ∀ uri fault, x.find uri = .error fault ↔
    (∀ e ∈ es, e.uri ≠ uri) ∧ fault = .notFound (.token uri)
  invalid : ∀ raw slug, (∃ cause, x.findNamed raw slug = .error (.invalidIdentifier cause)) ↔ IsUnsafe slug
  foundNamed : ∀ raw slug, ¬IsUnsafe slug → ∀ e, x.findNamed raw slug = .ok e ↔
    e ∈ es ∧ e.slug = some slug ∧ e.tag.IsWrittenAs raw
  notFoundNamed : ∀ raw slug, ¬IsUnsafe slug → ∀ fault, x.findNamed raw slug = .error fault ↔
    (∀ e ∈ es, e.slug = some slug → ¬e.tag.IsWrittenAs raw) ∧
      fault = .notFound (.named (Tag.keyOf raw) slug)

lemma answers_of_build (h : build es = .ok x) : Answers es x := by
  obtain ⟨-, hentries, hapart⟩ := build_eq_ok_iff.1 h
  have hperm : x.entries.Perm es := by
    rw [hentries]
    exact List.mergeSort_perm es _
  have hordered : x.entries.Pairwise fun a b => Utf8.ofString a.uri < Utf8.ofString b.uri := by
    rw [hentries]
    exact increasing_of_apart hapart
  have hpairwise : x.entries.Pairwise Entry.IsApart :=
    (hperm.pairwise_iff Entry.IsApart.symm).2 ((pairwise_sort_iff es).1 hapart)
  constructor
  case each => exact hperm
  case ordered => exact hordered
  case found =>
    intro uri e
    rw [find_eq_ok_iff hordered, hperm.mem_iff]
  case notFound =>
    intro uri fault
    simp only [find_eq_error_iff, hperm.mem_iff]
  case invalid =>
    intro raw slug
    constructor
    · rintro ⟨cause, hcause⟩
      by_contra hsafe
      cases ((findNamed_eq_error_iff hsafe).1 hcause).2
    · intro hslug
      exact ⟨_, findNamed_of_isUnsafe hslug x raw⟩
  case foundNamed =>
    intro raw slug hslug e
    rw [findNamed_eq_ok_iff hslug hpairwise, hperm.mem_iff]
  case notFoundNamed =>
    intro raw slug hslug fault
    simp only [findNamed_eq_error_iff hslug, hperm.mem_iff]

/-- An index is built exactly from entries that are apart, it answers from them and nothing else, and
neither depends on their order. Otherwise the fault names what two of them share; which of several faults
that is may depend on the order. Its views fail with the same fault, and stay in step if there is none. -/
theorem build_exact (es : List Entry) :
    ((∃ x, build es = .ok x) ↔ es ≠ [] ∧ es.Pairwise Entry.IsApart) ∧
      (∀ fault, build es = .error fault → (es = [] ∧ fault = .emptyIndex) ∨ IsRepeated es fault) ∧
      (∀ x, build es = .ok x → Answers es x) ∧
      (∀ es', es.Perm es' → ∀ x, build es = .ok x ↔ build es' = .ok x) ∧
      (Views.build es).map Views.toIndex = build es ∧ ∀ v, Views.build es = .ok v → v.IsInStep := by
  refine ⟨exists_build_iff, fun fault h => ?_, fun x => answers_of_build,
    fun es' hperm x => ⟨build_of_perm hperm, build_of_perm hperm.symm⟩,
    Views.map_toIndex_build es, fun v => Views.isInStep_of_build⟩
  by_cases hne : es = []
  · subst hne
    cases h
    exact .inl ⟨rfl, rfl⟩
  · exact .inr (isRepeated_of_build hne h)

def corridor : Entry := { Entry.new "u" .cort "c" with slug := some "s" }

def instrument : Entry := Entry.new "t" .imt "i"

theorem corridor_found : ∃ x, build [corridor, instrument] = .ok x ∧
    x.find "t" = .ok instrument ∧ x.findNamed " CoRt\n" "s" = .ok corridor ∧
    (∃ cause, x.findNamed "cort" "s..s" = .error (.invalidIdentifier cause)) ∧
    ∃ fault, build [corridor, corridor] = .error fault ∧ IsRepeated [corridor, corridor] fault := by
  obtain ⟨hbuilt, -, hanswers, -⟩ := build_exact [corridor, instrument]
  obtain ⟨htwice, hrepeated, -, -⟩ := build_exact [corridor, corridor]
  have hapart : corridor.IsApart instrument :=
    ⟨by decide, fun slug _ _ hslug => by simp [instrument, Entry.new] at hslug⟩
  obtain ⟨x, hx⟩ := hbuilt.2 ⟨by simp, List.pairwise_pair.2 hapart⟩
  have hsafe : ¬IsUnsafe "s" := by
    rw [← unsafe_iff]
    decide
  have hunsafe : IsUnsafe "s..s" := by
    rw [← unsafe_iff]
    decide
  have hwritten : Tag.cort.IsWrittenAs " CoRt\n" := by
    rw [← Tag.keyOf_eq_key_iff]
    decide
  refine ⟨x, hx, ((hanswers x hx).found _ _).2 ⟨by simp, rfl⟩,
    ((hanswers x hx).foundNamed _ _ hsafe _).2 ⟨by simp, rfl, hwritten⟩,
    ((hanswers x hx).invalid _ _).2 hunsafe, ?_⟩
  cases hbuild : build [corridor, corridor] with
  | ok y =>
    obtain ⟨-, hpair⟩ := htwice.1 ⟨y, hbuild⟩
    exact absurd rfl (List.pairwise_pair.1 hpair).1
  | error fault => exact ⟨fault, rfl, (hrepeated fault hbuild).resolve_left (by simp)⟩

end Answers

end Index

end CorridorTrust
