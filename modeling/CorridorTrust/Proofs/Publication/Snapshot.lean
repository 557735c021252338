import CorridorTrust.Proofs.Publication.Loading

namespace CorridorTrust

open Json (Value)

namespace Snapshot

structure IsSound (s : Snapshot) : Prop where
  inhabited : s.index.entries ≠ []
  increasing : s.index.entries.Pairwise fun a b => Utf8.ofString a.uri < Utf8.ofString b.uri
  slugs : s.index.entries.Pairwise fun a b =>
    ∀ slug, slug ≠ "" → a.slug = some slug → b.slug = some slug → a.tag ≠ b.tag
  windows : ∀ e ∈ s.index.entries, ∀ nbf exp,
    e.notBefore = some nbf → e.expires = some exp → exp.before nbf = false
  stored : ∀ e ∈ s.index.entries, Path.isReference e.content = true ∧
    ∃ bs v, s.content e.content = .ok bs ∧ bs ≠ [] ∧ Value.read? bs = some v

end Snapshot

namespace Index

lemma slug_apart {a b : Entry} (h : Apart a b) {slug : String} (hslug : slug ≠ "")
    (ha : a.slug = some slug) (hb : b.slug = some slug) : a.tag ≠ b.tag := by
  intro htag
  have hkey (e : Entry) (he : e.slug = some slug) : e.slugKey = some (e.tag, slug) := by
    simp [Entry.slugKey, he, hslug]
  exact h.2 _ (hkey b hb) (by rw [hkey a ha, htag])

lemma increasing_of_apart {es : List Entry} (h : (sort es).Pairwise Apart) :
    (sort es).Pairwise fun a b => Utf8.ofString a.uri < Utf8.ofString b.uri :=
  ((sort_sorted es).and h).imp fun hab =>
    Utf8.ofString_lt_ofString_iff.2 (lt_of_le_of_ne hab.1 hab.2.1)

variable {x : Index} {e : Entry} {uri : String}

lemma find_eq_ok_iff
    (h : x.entries.Pairwise fun a b => Utf8.ofString a.uri < Utf8.ofString b.uri) :
    x.find uri = .ok e ↔ e ∈ x.entries ∧ e.uri = uri := by
  have hfind : x.find uri = .ok e ↔ x.entries.find? (·.uri == uri) = some e := by
    rw [find]
    cases x.entries.find? (·.uri == uri) <;> simp
  rw [hfind]
  constructor
  · intro hs
    exact ⟨List.mem_of_find?_eq_some hs, by simpa using List.find?_some hs⟩
  · rintro ⟨he, rfl⟩
    obtain ⟨before, after, hx⟩ := List.append_of_mem he
    rw [hx] at h ⊢
    have hbefore : before.find? (·.uri == e.uri) = none := by
      refine List.find?_eq_none.2 fun a ha hsame => ?_
      have hlt := (List.pairwise_append.1 h).2.2 a ha e List.mem_cons_self
      rw [show a.uri = e.uri by simpa using hsame] at hlt
      exact List.lt_irrefl _ hlt
    simp [List.find?_append, hbefore]

lemma find_error {fault : Fault} (h : x.find uri = .error fault) : fault = .notFound (.token uri) := by
  rw [find] at h
  split at h
  · cases h
  · simpa using h.symm

lemma mem_of_findNamed {raw slug : String} (h : x.findNamed raw slug = .ok e) : e ∈ x.entries := by
  obtain ⟨-, -, h⟩ := Sequence.bind_eq_ok_iff.1 h
  dsimp only at h
  split at h
  next hs =>
    obtain rfl : _ = e := by simpa [pure, Except.pure] using h
    exact List.mem_of_find?_eq_some hs
  next => cases h

end Index

namespace Snapshot

variable {s : Snapshot} {uri : String} {bs : Bytes}

theorem isSound_of_load {t : FileTree} {folder : String} {m : Manifest}
    (hm : ∀ e ∈ m.tokens, e.hasWindow = true) (h : load t folder m = .ok s) : s.IsSound := by
  obtain ⟨f, -, h⟩ := Sequence.bind_eq_ok_iff.1 h
  obtain ⟨store, hstore, h⟩ := Sequence.bind_eq_ok_iff.1 h
  obtain ⟨index, hindex, h⟩ := Sequence.bind_eq_ok_iff.1 h
  obtain rfl : _ = s := by simpa [pure, Except.pure] using h
  obtain ⟨hne, hentries, hapart⟩ := Index.build_eq_ok_iff.1 hindex
  have htokens : ∀ e ∈ index.entries, e ∈ m.tokens := by
    intro e he
    rwa [hentries, Index.mem_sort] at he
  constructor
  · obtain ⟨e, he⟩ := List.exists_mem_of_ne_nil _ hne
    rw [hentries]
    exact List.ne_nil_of_mem (Index.mem_sort.2 he)
  · rw [hentries]
    exact Index.increasing_of_apart hapart
  · rw [hentries]
    exact hapart.imp fun hab slug hslug ha hb => Index.slug_apart hab hslug ha hb
  · intro e he
    exact (e.hasWindow_iff).1 (hm e (htokens e he))
  · intro e he
    obtain ⟨bs, v, hread, hsource, hv⟩ :=
      Store.read_of_preload m.nodup_references hstore (Manifest.mem_references (htokens e he))
    exact ⟨Folder.isReference_of_read hsource, bs, v, hread, Value.ne_nil_of_read? hv, hv⟩

lemma IsSound.get_eq (h : s.IsSound) {e : Entry} (he : e ∈ s.index.entries) :
    s.get e.uri = s.content e.content := by
  rw [get, (Index.find_eq_ok_iff h.increasing).2 ⟨he, rfl⟩, Sequence.ok_bind]

theorem IsSound.payload_published (h : s.IsSound) {e : Entry} (he : e ∈ s.index.entries) :
    ∃ bs v, s.payload e.uri = .ok bs ∧ s.content e.content = .ok bs ∧ bs ≠ [] ∧
      Value.read? bs = some v := by
  obtain ⟨-, bs, v, hbs, hne, hv⟩ := h.stored e he
  refine ⟨bs, v, ?_, hbs, hne, hv⟩
  rw [payload, h.get_eq he, hbs, Sequence.ok_bind, if_neg hne]
  rfl

lemma get_unpublished (h : ∀ e ∈ s.index.entries, e.uri ≠ uri) :
    s.get uri = .error (.notFound (.token uri)) := by
  cases hfind : s.index.find uri with
  | error fault => rw [get, hfind, Sequence.error_bind, Index.find_error hfind]
  | ok e =>
    rw [Index.find] at hfind
    split at hfind
    next e' hs => exact absurd (by simpa using List.find?_some hs) (h e' (List.mem_of_find?_eq_some hs))
    next => cases hfind

lemma payload_unpublished (h : ∀ e ∈ s.index.entries, e.uri ≠ uri) :
    s.payload uri = .error (.notFound (.token uri)) := by
  rw [payload, get_unpublished h, Sequence.error_bind]

lemma IsSound.read?_of_get (h : s.IsSound) (hget : s.get uri = .ok bs) :
    ∃ v, Value.read? bs = some v := by
  obtain ⟨e, hfind, hbs⟩ := Sequence.bind_eq_ok_iff.1 hget
  obtain ⟨he, -⟩ := (Index.find_eq_ok_iff h.increasing).1 hfind
  obtain ⟨-, bs', v, hbs', -, hv⟩ := h.stored e he
  obtain rfl : bs' = bs := by simpa [hbs'] using hbs
  exact ⟨v, hv⟩

lemma IsSound.read?_of_getNamed (h : s.IsSound) {raw slug : String}
    (hget : s.getNamed raw slug = .ok bs) : ∃ v, Value.read? bs = some v := by
  obtain ⟨e, hfind, hbs⟩ := Sequence.bind_eq_ok_iff.1 hget
  obtain ⟨-, bs', v, hbs', -, hv⟩ := h.stored e (Index.mem_of_findNamed hfind)
  obtain rfl : bs' = bs := by simpa [hbs'] using hbs
  exact ⟨v, hv⟩

end Snapshot

end CorridorTrust
