import Mathlib
import CorridorTrust.Publication.Sandbox
import CorridorTrust.Publication.Snapshot
import CorridorTrust.Proofs.Json.Reading
import CorridorTrust.Proofs.Sequence
import CorridorTrust.Proofs.Text.Utf8

namespace CorridorTrust

open Json (Value)

namespace Text

variable {ss : List String}

lemma mem_insertSorted {s t : String} :
    s ∈ insertSorted t ss ↔ s = t ∨ s ∈ ss := by
  induction ss with
  | nil => simp [insertSorted]
  | cons u us ih =>
    rw [insertSorted]
    split_ifs with hlt heq
    · simp
    · simp [heq]
    · simp only [List.mem_cons, ih]
      tauto

lemma mem_sortedSet {s : String} : s ∈ sortedSet ss ↔ s ∈ ss := by
  induction ss with
  | nil => simp [sortedSet]
  | cons t ts ih =>
    have hcons : sortedSet (t :: ts) = insertSorted t (sortedSet ts) := rfl
    rw [hcons, mem_insertSorted, ih, List.mem_cons]

lemma insertSorted_increasing {s : String} (h : ss.Pairwise (· < ·)) :
    (insertSorted s ss).Pairwise (· < ·) := by
  induction ss with
  | nil => simp [insertSorted]
  | cons t ts ih =>
    obtain ⟨ht, hts⟩ := List.pairwise_cons.1 h
    rw [insertSorted]
    split_ifs with hlt heq
    · exact List.pairwise_cons.2
        ⟨fun u hu => (List.mem_cons.1 hu).elim (fun hu => hu ▸ hlt) fun hu => hlt.trans (ht u hu), h⟩
    · exact h
    · refine List.pairwise_cons.2 ⟨fun u hu => ?_, ih hts⟩
      rcases mem_insertSorted.1 hu with rfl | hu
      · exact lt_of_le_of_ne (not_lt.1 hlt) (Ne.symm heq)
      · exact ht u hu

lemma sortedSet_increasing (ss : List String) : (sortedSet ss).Pairwise (· < ·) := by
  induction ss with
  | nil => exact .nil
  | cons s ss ih => exact insertSorted_increasing ih

lemma nodup_sortedSet (ss : List String) : (sortedSet ss).Nodup := (sortedSet_increasing ss).imp ne_of_lt

lemma sortedSet_eq {ss' : List String} (h : ∀ s, s ∈ ss ↔ s ∈ ss') : sortedSet ss = sortedSet ss' := by
  have hperm : (sortedSet ss).Perm (sortedSet ss') := by
    refine (List.perm_ext_iff_of_nodup (nodup_sortedSet ss) (nodup_sortedSet ss')).2 fun s => ?_
    rw [mem_sortedSet, mem_sortedSet, h]
  exact hperm.eq_of_pairwise (fun a b _ _ hab hba => absurd hba hab.asymm)
    (sortedSet_increasing ss) (sortedSet_increasing ss')

end Text

namespace Store

variable {source : ContentSource} {s : Store} {r : String} {rs : List String} {bs : Bytes}

def fetch (source : ContentSource) (reference : String) : Except Fault Bytes := do
  let bs ← source reference
  if (Value.read? bs).isSome then return bs else throw (.invalidFormat (.fixture reference))

lemma fetch_eq_ok_iff : fetch source r = .ok bs ↔ source r = .ok bs ∧ ∃ v, Value.read? bs = some v := by
  rw [fetch, ← Option.isSome_iff_exists]
  cases source r with
  | error fault => simp
  | ok found =>
    rw [Sequence.ok_bind]
    split_ifs with hjson
    · constructor
      · rintro ⟨⟩
        exact ⟨rfl, hjson⟩
      · rintro ⟨hfound, -⟩
        exact hfound
    · refine iff_of_false (by rintro ⟨⟩) ?_
      rintro ⟨⟨⟩, hread⟩
      exact hjson hread

def names (s : Store) : List String := s.items.map Prod.fst

lemma has_iff : s.has r = true ↔ r ∈ s.names := by
  simp [has, names, List.lookup_isSome_iff]

lemma insert_eq (h : r ∉ s.names) : s.insert r bs = ⟨(r, bs) :: s.items⟩ := by
  rw [insert, List.filter_eq_self.2]
  rintro ⟨k, a⟩ hitem
  have hne : k ≠ r := by
    rintro rfl
    exact h (List.mem_map_of_mem hitem)
  simpa using hne

lemma preloadOne_eq (h : r ∉ s.names) :
    preloadOne source s r = (fetch source r).map fun bs => ⟨(r, bs) :: s.items⟩ := by
  rw [preloadOne, if_neg (mt has_iff.1 h), fetch]
  cases source r with
  | error fault => rfl
  | ok bs =>
    simp only [Sequence.ok_bind]
    split
    · rw [insert_eq h]
      rfl
    · rfl

lemma foldlM_preloadOne_eq (hnodup : rs.Nodup) (hnew : ∀ r ∈ rs, r ∉ s.names) :
    rs.foldlM (preloadOne source) s = (rs.mapM fun r => (fetch source r).map (r, ·)).map fun items =>
      ⟨items.reverse ++ s.items⟩ := by
  induction rs generalizing s with
  | nil => rfl
  | cons r rs ih =>
    obtain ⟨hr, hrs⟩ := List.nodup_cons.1 hnodup
    rw [List.foldlM_cons, preloadOne_eq (hnew r List.mem_cons_self), Sequence.mapM_cons_eq]
    cases fetch source r with
    | error fault => rfl
    | ok bs =>
      have hlater : ∀ r' ∈ rs, r' ∉ names ⟨(r, bs) :: s.items⟩ := by
        intro r' hr' hmem
        rcases List.mem_cons.1 hmem with rfl | hmem
        · exact hr hr'
        · exact hnew r' (List.mem_cons_of_mem _ hr') hmem
      change rs.foldlM (preloadOne source) ⟨(r, bs) :: s.items⟩ = _
      rw [ih hrs hlater]
      cases hrest : rs.mapM fun r => (fetch source r).map (r, ·) <;>
        simp [Except.bind, Except.map]

lemma forall₂_fetch {items : List (String × Bytes)}
    (h : List.Forall₂ (fun r item => (fetch source r).map (r, ·) = .ok item) rs items) :
    items.map Prod.fst = rs ∧ ∀ r bs, (r, bs) ∈ items ↔ r ∈ rs ∧ fetch source r = .ok bs := by
  induction h with
  | nil => simp
  | @cons r item rs items hr _ ih =>
    obtain ⟨hnames, hitems⟩ := ih
    obtain ⟨bs, hbs, rfl⟩ := Sequence.map_eq_ok_iff.1 hr
    refine ⟨by rw [List.map_cons, hnames], fun r' bs' => ?_⟩
    rw [List.mem_cons, hitems, List.mem_cons]
    constructor
    · rintro (heq | ⟨hr', hbs'⟩)
      · obtain ⟨rfl, rfl⟩ := Prod.mk.inj heq
        exact ⟨.inl rfl, hbs⟩
      · exact ⟨.inr hr', hbs'⟩
    · rintro ⟨rfl | hr', hbs'⟩
      · exact .inl (by rw [Except.ok.inj (hbs.symm.trans hbs')])
      · exact .inr ⟨hr', hbs'⟩

structure Holds (source : ContentSource) (rs : List String) (s : Store) : Prop where
  nodup : s.names.Nodup
  each : ∀ r ∈ rs, ∃ bs, fetch source r = .ok bs
  items : ∀ r bs, (r, bs) ∈ s.items ↔ r ∈ rs ∧ fetch source r = .ok bs

lemma preload_eq (h : rs.Nodup) : preload source rs =
    (rs.mapM fun r => (fetch source r).map (r, ·)).map fun items => ⟨items.reverse⟩ := by
  rw [preload, foldlM_preloadOne_eq h (by simp [names, empty])]
  simp [empty]

lemma holds_of_preload (hnodup : rs.Nodup) (h : preload source rs = .ok s) : s.Holds source rs := by
  rw [preload_eq hnodup, Sequence.map_eq_ok_iff] at h
  obtain ⟨items, hitems, rfl⟩ := h
  obtain ⟨hnames, hmem⟩ := forall₂_fetch (Sequence.mapM_eq_ok_iff.1 hitems)
  constructor
  case nodup => rwa [names, List.map_reverse, List.nodup_reverse, hnames]
  case each =>
    intro r hr
    rw [← hnames] at hr
    obtain ⟨⟨r, bs⟩, hitem, rfl⟩ := List.mem_map.1 hr
    exact ⟨bs, ((hmem r bs).1 hitem).2⟩
  case items => simpa using hmem

lemma preload_eq_error_iff {fault : Fault} (h : rs.Nodup) : preload source rs = .error fault ↔
    ∃ before r after, rs = before ++ r :: after ∧ (∀ r' ∈ before, ∃ bs, fetch source r' = .ok bs) ∧
      fetch source r = .error fault := by
  have hok (r : String) : (∃ item, (fetch source r).map (r, ·) = .ok item) ↔
      ∃ bs, fetch source r = .ok bs := by
    simp only [Sequence.map_eq_ok_iff]
    exact ⟨fun ⟨_, bs, hbs, _⟩ => ⟨bs, hbs⟩, fun ⟨bs, hbs⟩ => ⟨_, bs, hbs, rfl⟩⟩
  simp only [preload_eq h, Sequence.map_eq_error_iff, Sequence.mapM_eq_error_iff, hok]

lemma Holds.read_eq_ok_iff (h : s.Holds source rs) :
    s.read r = .ok bs ↔ r ∈ rs ∧ fetch source r = .ok bs := by
  rw [← h.items, ← Json.lookup_eq_some_iff h.nodup, read]
  cases s.items.lookup r <;> simp

theorem read_of_preload (hnodup : rs.Nodup) (h : preload source rs = .ok s) (hr : r ∈ rs) :
    ∃ bs v, s.read r = .ok bs ∧ source r = .ok bs ∧ Value.read? bs = some v := by
  have hholds := holds_of_preload hnodup h
  obtain ⟨bs, hbs⟩ := hholds.each r hr
  obtain ⟨hsource, v, hv⟩ := fetch_eq_ok_iff.1 hbs
  exact ⟨bs, v, hholds.read_eq_ok_iff.2 ⟨hr, hbs⟩, hsource, hv⟩

end Store

lemma Folder.isReference_of_read {f : Folder} {t : FileTree} {reference : String} {bs : Bytes}
    (h : f.read t reference = .ok bs) : Path.isReference reference = true := by
  obtain ⟨path, hpath, -⟩ := Sequence.bind_eq_ok_iff.1 h
  by_contra hr
  rw [Folder.resolve, if_neg hr] at hpath
  cases hpath

lemma Entry.checkWindow_eq_ok_iff_hasWindow {e : Entry} :
    e.checkWindow = .ok () ↔ e.hasWindow = true := by
  rw [checkWindow]
  cases e.hasWindow <;> simp

lemma Entry.hasWindow_iff (e : Entry) : e.hasWindow = true ↔
    ∀ nbf exp, e.notBefore = some nbf → e.expires = some exp → exp.before nbf = false := by
  rw [Entry.hasWindow]
  cases e.notBefore <;> cases e.expires <;> simp

namespace Manifest

lemma mem_references {m : Manifest} {e : Entry} (h : e ∈ m.tokens) : e.content ∈ m.references :=
  Text.mem_sortedSet.2 (List.mem_map_of_mem h)

lemma exists_mem_references {m : Manifest} {r : String} :
    r ∈ m.references ↔ ∃ e ∈ m.tokens, e.content = r := by
  rw [references, Text.mem_sortedSet, List.mem_map]

lemma references_increasing (m : Manifest) : m.references.Pairwise (· < ·) := Text.sortedSet_increasing _

lemma nodup_references (m : Manifest) : m.references.Nodup := m.references_increasing.imp ne_of_lt

lemma validate_eq_ok_iff {m : Manifest} :
    m.validate = .ok () ↔ ∀ e ∈ m.tokens, e.hasWindow = true := by
  simp only [validate, Sequence.forM_eq_ok_iff, Entry.checkWindow_eq_ok_iff_hasWindow]

lemma hasWindow_of_read {bs : Bytes} {m : Manifest} (h : read bs = .ok m) :
    ∀ e ∈ m.tokens, e.hasWindow = true := by
  rw [read] at h
  split at h
  · cases h
  · obtain ⟨⟨⟩, hvalid, h⟩ := Sequence.bind_eq_ok_iff.1 h
    obtain rfl : _ = m := by simpa [pure, Except.pure] using h
    exact validate_eq_ok_iff.1 hvalid

lemma hasWindow_sandbox : ∀ e ∈ sandbox.tokens, e.hasWindow = true := by decide

end Manifest

namespace Index

def Apart (a b : Entry) : Prop := a.uri ≠ b.uri ∧ ∀ k, b.slugKey = some k → a.slugKey ≠ some k

section Distinct

variable {seen es : List Entry} {a e : Entry}

lemma checkDistinct_of_uri (ha : a ∈ seen) (hsame : a.uri = e.uri) :
    checkDistinct seen (e :: es) = .error (.duplicateUri e.uri) := by
  have hany : seen.any (·.uri == e.uri) = true := List.any_eq_true.2 ⟨a, ha, beq_iff_eq.2 hsame⟩
  rw [checkDistinct, if_pos hany]

lemma checkDistinct_of_slugKey {tag : Tag} {slug : String} (huri : ∀ b ∈ seen, b.uri ≠ e.uri)
    (ha : a ∈ seen) (hakey : a.slugKey = some (tag, slug)) (hkey : e.slugKey = some (tag, slug)) :
    checkDistinct seen (e :: es) = .error (.duplicateSlug tag slug) := by
  have hnone : ¬seen.any (·.uri == e.uri) = true := by simpa using huri
  have hany : seen.any (·.slugKey == some (tag, slug)) = true :=
    List.any_eq_true.2 ⟨a, ha, beq_iff_eq.2 hakey⟩
  simp only [checkDistinct, if_neg hnone, hkey, if_pos hany]

lemma checkDistinct_of_apart (h : ∀ a ∈ seen, Apart a e) :
    checkDistinct seen (e :: es) = checkDistinct (e :: seen) es := by
  have huri : ¬seen.any (·.uri == e.uri) = true := by simpa using fun a ha => (h a ha).1
  rw [checkDistinct, if_neg huri]
  cases hkey : e.slugKey with
  | none => rfl
  | some k =>
    have hslug : ¬seen.any (·.slugKey == some k) = true := by
      simpa using fun a ha => (h a ha).2 k hkey
    dsimp only
    rw [if_neg hslug]

lemma exists_fault_of_not_apart (ha : a ∈ seen) (h : ¬Apart a e) :
    ∃ fault, checkDistinct seen (e :: es) = .error fault := by
  by_cases huri : ∀ b ∈ seen, b.uri ≠ e.uri
  · obtain ⟨k, hkey, hakey⟩ : ∃ k, e.slugKey = some k ∧ a.slugKey = some k := by
      by_contra hnone
      push Not at hnone
      exact h ⟨huri a ha, hnone⟩
    exact ⟨_, checkDistinct_of_slugKey huri ha hakey hkey⟩
  · push Not at huri
    obtain ⟨b, hb, hsame⟩ := huri
    exact ⟨_, checkDistinct_of_uri hb hsame⟩

lemma checkDistinct_cons_eq_ok_iff : checkDistinct seen (e :: es) = .ok () ↔
    (∀ a ∈ seen, Apart a e) ∧ checkDistinct (e :: seen) es = .ok () := by
  by_cases h : ∀ a ∈ seen, Apart a e
  · rw [checkDistinct_of_apart h]
    exact (and_iff_right h).symm
  · refine iff_of_false (fun hok => ?_) fun hboth => h hboth.1
    push Not at h
    obtain ⟨a, ha, hclash⟩ := h
    obtain ⟨fault, hfault⟩ := exists_fault_of_not_apart ha hclash
    cases hfault.symm.trans hok

lemma checkDistinct_eq_ok_iff : checkDistinct seen es = .ok () ↔
    (∀ a ∈ seen, ∀ b ∈ es, Apart a b) ∧ es.Pairwise Apart := by
  induction es generalizing seen with
  | nil => simp [checkDistinct]
  | cons e es ih =>
    rw [checkDistinct_cons_eq_ok_iff, ih, List.pairwise_cons]
    simp only [List.mem_cons, forall_eq_or_imp]
    grind

end Distinct

lemma sort_sorted (es : List Entry) : (sort es).Pairwise fun a b => a.uri ≤ b.uri := by
  have h : (sort es).Pairwise fun a b => decide (a.uri ≤ b.uri) = true :=
    List.pairwise_mergeSort (fun a b c => by simpa using le_trans)
      (fun a b => by simpa using le_total a.uri b.uri) es
  simpa using h

lemma mem_sort {e : Entry} {es : List Entry} : e ∈ sort es ↔ e ∈ es :=
  (List.mergeSort_perm es _).mem_iff

theorem build_eq_ok_iff {es : List Entry} {x : Index} : build es = .ok x ↔
    es ≠ [] ∧ x.entries = sort es ∧ (sort es).Pairwise Apart := by
  obtain ⟨entries⟩ := x
  rw [build]
  cases es with
  | nil => simp
  | cons e es =>
    have hdistinct := @checkDistinct_eq_ok_iff [] (sort (e :: es))
    rw [List.isEmpty_cons, if_neg Bool.false_ne_true, Sequence.bind_eq_ok_iff]
    constructor
    · rintro ⟨⟨⟩, hok, h⟩
      exact ⟨by simp, by simpa [pure, Except.pure, eq_comm] using h, (hdistinct.1 hok).2⟩
    · rintro ⟨-, rfl, hapart⟩
      exact ⟨(), hdistinct.2 ⟨by simp, hapart⟩, rfl⟩

lemma build_pair {a b : Entry} (h : a.uri < b.uri) (hapart : Apart a b) :
    build [a, b] = .ok ⟨[a, b]⟩ ∧ build [b, a] = .ok ⟨[a, b]⟩ := by
  have hsort : sort [a, b] = [a, b] := by simp [sort, List.mergeSort, h.le]
  have hsort' : sort [b, a] = [a, b] := by simp [sort, List.mergeSort, not_le.2 h]
  rw [build_eq_ok_iff, build_eq_ok_iff, hsort, hsort']
  exact ⟨⟨by simp, rfl, List.pairwise_pair.2 hapart⟩, by simp, rfl, List.pairwise_pair.2 hapart⟩

end Index

end CorridorTrust
