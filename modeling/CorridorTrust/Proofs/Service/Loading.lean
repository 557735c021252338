import CorridorTrust.Proofs.Publication.Payloads
import CorridorTrust.Proofs.Service.Reloading

/-!
Loading a snapshot. It succeeds exactly when the folder is there, every reference offers a payload and the
entries make an index; otherwise the fault is that of the first of these that fails. The order of the
entries plays no part before the index.
-/

namespace CorridorTrust

open Json (Value)

namespace Index

variable {es seen before after : List Entry} {e : Entry} {fault : Fault}

inductive Clash (seen : List Entry) (e : Entry) : Fault → Prop
  | uri {a : Entry} (ha : a ∈ seen) (hsame : a.uri = e.uri) : Clash seen e (.duplicateUri e.uri)
  | slug {a : Entry} {slug : String} (huri : ∀ b ∈ seen, b.uri ≠ e.uri) (ha : a ∈ seen) (hne : slug ≠ "")
      (haslug : a.slug = some slug) (heslug : e.slug = some slug) (hsame : a.tag = e.tag) :
      Clash seen e (.duplicateSlug e.tag slug)

lemma checkDistinct_of_clash (h : Clash seen e fault) :
    checkDistinct seen (e :: es) = .error fault := by
  cases h with
  | uri ha hsame => exact checkDistinct_of_uri ha hsame
  | slug huri ha hne haslug heslug hsame =>
    have hakey := Entry.slugKey_eq_some_iff.2 ⟨hne, haslug, hsame⟩
    exact checkDistinct_of_slugKey huri ha hakey (Entry.slugKey_eq_some_iff.2 ⟨hne, heslug, rfl⟩)

lemma apart_or_clash (seen : List Entry) (e : Entry) :
    (∀ a ∈ seen, a.IsApart e) ∨ ∃ fault, Clash seen e fault := by
  by_contra h
  push Not at h
  obtain ⟨⟨a, ha, hclash⟩, hnone⟩ := h
  have huri : ∀ b ∈ seen, b.uri ≠ e.uri := fun b hb hsame => hnone _ (.uri hb hsame)
  apply hclash
  constructor
  · exact huri a ha
  · intro slug hne haslug heslug hsame
    exact hnone _ (.slug huri ha hne haslug heslug hsame)

def FirstClash (es : List Entry) (fault : Fault) : Prop :=
  ∃ before e after, es = before ++ e :: after ∧ before.Pairwise Entry.IsApart ∧ Clash before e fault

lemma checkDistinct_append (h : (seen.reverse ++ before).Pairwise Entry.IsApart) :
    checkDistinct seen (before ++ after) = checkDistinct (before.reverse ++ seen) after := by
  induction before generalizing seen with
  | nil => rfl
  | cons e before ih =>
    have hapart : ∀ b ∈ seen, b.IsApart e := by
      intro b hb
      exact (List.pairwise_append.1 h).2.2 b (List.mem_reverse.2 hb) e List.mem_cons_self
    rw [List.cons_append, checkDistinct_of_apart fun b hb => apart_iff.2 (hapart b hb),
      ih (by simpa using h)]
    simp

lemma Clash.congr {seen' : List Entry} (hmem : ∀ a, a ∈ seen ↔ a ∈ seen') (h : Clash seen e fault) :
    Clash seen' e fault := by
  cases h with
  | uri ha hsame => exact .uri ((hmem _).1 ha) hsame
  | slug huri ha hne haslug heslug hsame =>
    exact .slug (fun b hb => huri b ((hmem b).2 hb)) ((hmem _).1 ha) hne haslug heslug hsame

lemma firstClash_of_checkDistinct (hseen : seen.reverse.Pairwise Entry.IsApart)
    (h : checkDistinct seen es = .error fault) : FirstClash (seen.reverse ++ es) fault := by
  induction es generalizing seen with
  | nil => cases h
  | cons e es ih =>
    rcases apart_or_clash seen e with hapart | ⟨fault', hclash⟩
    · rw [checkDistinct_of_apart fun b hb => apart_iff.2 (hapart b hb)] at h
      have hnext : (e :: seen).reverse.Pairwise Entry.IsApart := by
        simpa [List.pairwise_append] using ⟨hseen, hapart⟩
      simpa using ih hnext h
    · obtain rfl := Except.error.inj ((checkDistinct_of_clash hclash).symm.trans h)
      exact ⟨seen.reverse, e, es, rfl, hseen, hclash.congr (by simp)⟩

lemma checkDistinct_eq_error_iff : checkDistinct [] es = .error fault ↔ FirstClash es fault := by
  constructor
  · intro h
    exact firstClash_of_checkDistinct .nil h
  · rintro ⟨before, e, after, rfl, hbefore, hclash⟩
    rw [checkDistinct_append (by simpa using hbefore), List.append_nil]
    apply checkDistinct_of_clash
    exact hclash.congr (by simp)

lemma ne_nil_of_firstClash (h : FirstClash (sort es) fault) : es ≠ [] := by
  rintro rfl
  obtain ⟨before, e, after, hsort, -⟩ := h
  simp [sort] at hsort

lemma build_eq_error_iff : build es = .error fault ↔
    (es = [] ∧ fault = .emptyIndex) ∨ FirstClash (sort es) fault := by
  by_cases hne : es = []
  · subst hne
    have hnone : ¬FirstClash (sort []) fault := fun h => ne_nil_of_firstClash h rfl
    simp [build, hnone, eq_comm]
  · have hbuild : build es = .error fault ↔ checkDistinct [] (sort es) = .error fault := by
      rw [build, if_neg (by simpa using hne)]
      cases checkDistinct [] (sort es) <;> simp [pure, Except.pure]
    rw [hbuild, checkDistinct_eq_error_iff]
    simp [hne]

lemma exists_firstClash_of_perm {es' : List Entry} (hperm : es.Perm es') (h : FirstClash (sort es) fault) :
    ∃ fault', FirstClash (sort es') fault' := by
  have hfails : build es = .error fault := build_eq_error_iff.2 (.inr h)
  cases hbuild : build es' with
  | ok x => cases hfails.symm.trans (build_of_perm hperm.symm hbuild)
  | error fault' =>
    rcases build_eq_error_iff.1 hbuild with ⟨rfl, -⟩ | hclash
    · exact absurd hperm.eq_nil (ne_nil_of_firstClash h)
    · exact ⟨fault', hclash⟩

end Index

namespace Snapshot

variable {t : FileTree} {folder : String} {m m' : Manifest} {s : Snapshot} {fault : Fault}

lemma load_eq (t : FileTree) (folder : String) (m : Manifest) : load t folder m =
    if t.isDirectory folder then
      (Store.preload (Folder.read ⟨folder⟩ t) m.references).bind fun store =>
        (Index.build m.tokens).map fun index => ⟨index, store.read⟩
    else .error (.notFound (.directory folder)) := by
  rw [load, Folder.openAt]
  split_ifs
  · rw [Sequence.ok_bind]
    cases Store.preload (Folder.read ⟨folder⟩ t) m.references with
    | error fault => rfl
    | ok store => cases Index.build m.tokens <;> rfl
  · rfl

lemma load_eq_ok_iff : load t folder m = .ok s ↔ t.isDirectory folder = true ∧
    ∃ store, Store.preload (Folder.read ⟨folder⟩ t) m.references = .ok store ∧
      s.content = store.read ∧ Index.build m.tokens = .ok s.index := by
  obtain ⟨index, content⟩ := s
  rw [load_eq]
  split_ifs with hfolder
  · cases Store.preload (Folder.read ⟨folder⟩ t) m.references <;> cases Index.build m.tokens <;>
      simp [Except.bind, Except.map, hfolder, eq_comm, and_comm]
  · simp [hfolder]

/-- What makes a loading fail: the folder, then the least reference that is refused, then the entries. -/
inductive LoadFault (t : FileTree) (folder : String) (m : Manifest) : Fault → Prop
  | folder (h : t.isDirectory folder = false) : LoadFault t folder m (.notFound (.directory folder))
  | payload {fault : Fault} (hfolder : t.isDirectory folder = true) (h : m.Lacks t folder fault) :
      LoadFault t folder m fault
  | empty (hfolder : t.isDirectory folder = true) (h : m.tokens = []) : LoadFault t folder m .emptyIndex
  | clash {fault : Fault} (hfolder : t.isDirectory folder = true)
      (hpayloads : ∀ e ∈ m.tokens, ∃ bs, Folder.Offers t folder e.content bs)
      (h : Index.FirstClash (Index.sort m.tokens) fault) : LoadFault t folder m fault

lemma load_eq_error_iff : load t folder m = .error fault ↔ LoadFault t folder m fault := by
  rw [load_eq]
  constructor
  · intro h
    split_ifs at h with hfolder
    · cases hstore : Store.preload (Folder.read ⟨folder⟩ t) m.references with
      | error fault' =>
        obtain rfl : fault' = fault := by simpa [hstore, Except.bind] using h
        exact .payload hfolder (Manifest.preload_eq_error_iff.1 hstore)
      | ok store =>
        rw [hstore] at h
        rcases Index.build_eq_error_iff.1 (Sequence.map_eq_error_iff.1 h) with ⟨hnil, rfl⟩ | hclash
        · exact .empty hfolder hnil
        · exact .clash hfolder (Manifest.exists_preload_iff.1 ⟨store, hstore⟩) hclash
    · obtain rfl := Except.error.inj h
      exact .folder (by simpa using hfolder)
  · intro h
    cases h with
    | folder h => rw [if_neg (by simp [h])]
    | payload hfolder h =>
      rw [if_pos hfolder, Manifest.preload_eq_error_iff.2 h]
      rfl
    | empty hfolder h =>
      obtain ⟨store, hstore⟩ := Manifest.exists_preload_iff.2 fun e (he : e ∈ m.tokens) => by simp [h] at he
      rw [if_pos hfolder, hstore, Index.build_eq_error_iff.2 (.inl ⟨h, rfl⟩)]
      rfl
    | clash hfolder hpayloads h =>
      obtain ⟨store, hstore⟩ := Manifest.exists_preload_iff.2 hpayloads
      rw [if_pos hfolder, hstore, Index.build_eq_error_iff.2 (.inr h)]
      rfl

lemma exists_load_iff : (∃ s, load t folder m = .ok s) ↔ t.isDirectory folder = true ∧ m.tokens ≠ [] ∧
    (∀ e ∈ m.tokens, ∃ bs, Folder.Offers t folder e.content bs) ∧ m.tokens.Pairwise Entry.IsApart := by
  simp only [load_eq_ok_iff]
  constructor
  · rintro ⟨s, hfolder, store, hstore, -, hindex⟩
    obtain ⟨hne, hapart⟩ := Index.exists_build_iff.1 ⟨_, hindex⟩
    exact ⟨hfolder, hne, Manifest.exists_preload_iff.1 ⟨store, hstore⟩, hapart⟩
  · rintro ⟨hfolder, hne, hpayloads, hapart⟩
    obtain ⟨store, hstore⟩ := Manifest.exists_preload_iff.2 hpayloads
    obtain ⟨index, hindex⟩ := Index.exists_build_iff.2 ⟨hne, hapart⟩
    exact ⟨⟨index, store.read⟩, hfolder, store, hstore, rfl, hindex⟩

structure Keeps (t : FileTree) (folder : String) (m : Manifest) (s : Snapshot) : Prop where
  store : ∃ store : Store, s.content = store.read ∧ store.names.Nodup ∧ ∀ reference bs,
    (reference, bs) ∈ store.items ↔
      (∃ e ∈ m.tokens, e.content = reference) ∧ Folder.Offers t folder reference bs
  index : Index.Answers m.tokens s.index
  served : ∀ e ∈ m.tokens, ∀ bs, Folder.Offers t folder e.content bs → s.get e.uri = .ok bs

lemma keeps_of_load (h : load t folder m = .ok s) : s.Keeps t folder m := by
  obtain ⟨-, store, hstore, hcontent, hindex⟩ := load_eq_ok_iff.1 h
  have hholds := Store.holds_of_preload m.nodup_references hstore
  have hanswers := Index.answers_of_build hindex
  constructor
  case store =>
    refine ⟨store, hcontent, hholds.nodup, fun reference bs => ?_⟩
    rw [hholds.items, Manifest.exists_mem_references, Folder.fetch_eq_ok_iff]
  case index => exact hanswers
  case served =>
    intro e he bs hbs
    rw [get, (hanswers.found e.uri e).2 ⟨he, rfl⟩, Sequence.ok_bind, hcontent]
    exact hholds.read_eq_ok_iff.2 ⟨Manifest.mem_references he, hbs.fetch_eq⟩

lemma references_of_perm (h : m.tokens.Perm m'.tokens) : m.references = m'.references :=
  Text.sortedSet_eq fun _ => (h.map _).mem_iff

lemma load_of_perm (hperm : m.tokens.Perm m'.tokens) (h : load t folder m = .ok s) :
    load t folder m' = .ok s := by
  obtain ⟨hfolder, store, hstore, hcontent, hindex⟩ := load_eq_ok_iff.1 h
  rw [references_of_perm hperm] at hstore
  exact load_eq_ok_iff.2 ⟨hfolder, store, hstore, hcontent, Index.build_of_perm hperm hindex⟩

lemma lacks_of_perm (hperm : m.tokens.Perm m'.tokens) (h : m.Lacks t folder fault) :
    m'.Lacks t folder fault := by
  rw [← Manifest.preload_eq_error_iff] at h ⊢
  rwa [← references_of_perm hperm]

lemma load_error_of_perm (hperm : m.tokens.Perm m'.tokens) (h : load t folder m = .error fault) :
    load t folder m' = .error fault ∨ Index.FirstClash (Index.sort m.tokens) fault ∧
      ∃ fault', Index.FirstClash (Index.sort m'.tokens) fault' ∧ load t folder m' = .error fault' := by
  simp only [load_eq_error_iff] at h ⊢
  cases h with
  | folder h => exact .inl (.folder h)
  | payload hfolder h => exact .inl (.payload hfolder (lacks_of_perm hperm h))
  | empty hfolder h =>
    rw [h] at hperm
    exact .inl (.empty hfolder hperm.symm.eq_nil)
  | clash hfolder hpayloads h =>
    obtain ⟨fault', h'⟩ := Index.exists_firstClash_of_perm hperm h
    exact .inr ⟨h, fault', h', .clash hfolder (fun e he => hpayloads e (hperm.mem_iff.2 he)) h'⟩

/-- A loading succeeds exactly when the folder is there, every reference offers a payload and the entries
are there and apart; the snapshot then keeps these payloads and entries and nothing else, whatever their
order. Otherwise the fault is that of the first stage that fails, and a service that tried to reload goes
on as before. -/
theorem load_exact (t : FileTree) (folder : String) (m : Manifest) :
    ((∃ s, load t folder m = .ok s) ↔ t.isDirectory folder = true ∧ m.tokens ≠ [] ∧
      (∀ e ∈ m.tokens, ∃ bs, Folder.Offers t folder e.content bs) ∧
        m.tokens.Pairwise Entry.IsApart) ∧
      (∀ s, load t folder m = .ok s → s.Keeps t folder m) ∧
      (∀ fault, load t folder m = .error fault ↔ LoadFault t folder m fault) ∧
      (∀ m' : Manifest, m.tokens.Perm m'.tokens →
        (∀ s, load t folder m = .ok s ↔ load t folder m' = .ok s) ∧
        ∀ fault, load t folder m = .error fault → load t folder m' = .error fault ∨
          Index.FirstClash (Index.sort m.tokens) fault ∧
            ∃ fault', Index.FirstClash (Index.sort m'.tokens) fault' ∧
              load t folder m' = .error fault') ∧
      ∀ service : Service, service.settings.folder = folder →
        service.settings.loadManifest t = .ok m → (¬∃ s, load t folder m = .ok s) →
        Service.after (t, service) .reload = (t, service) := by
  refine ⟨exists_load_iff, fun s => keeps_of_load, fun fault => load_eq_error_iff, fun m' hperm => ?_,
    fun service hfolder hmanifest hfails => ?_⟩
  · exact ⟨fun s => ⟨load_of_perm hperm, load_of_perm hperm.symm⟩,
      fun fault => load_error_of_perm hperm⟩
  · cases hload : load t folder m with
    | ok s => exact absurd ⟨s, hload⟩ hfails
    | error fault =>
      have hreload : service.settings.loadSnapshot t = .error fault := by
        rw [Settings.loadSnapshot, hmanifest, Sequence.ok_bind, hfolder, hload]
      exact Service.after_reload_of_error hreload

def sharedFiles : FileTree := FileTree.empty.write "f/a" (Utf8.ofString "\x7b\x7d")

def aliased : Manifest := ⟨"", [Entry.new "v" .imt "./a", Entry.new "u" .rmt "a"]⟩

def lacking : Manifest := ⟨"", [Entry.new "v" .imt "c", Entry.new "u" .rmt "b"]⟩

theorem aliased_loaded : (∃ s, load sharedFiles "f" aliased = .ok s ∧ s.Keeps sharedFiles "f" aliased) ∧
    load sharedFiles "f" lacking = .error (.notFound (.content "f/b")) := by
  obtain ⟨hexists, hkeeps, -⟩ := load_exact sharedFiles "f" aliased
  obtain ⟨-, -, hfault, -⟩ := load_exact sharedFiles "f" lacking
  have hfolder : sharedFiles.isDirectory "f" = true := by decide +kernel
  have hoffers : ∀ reference ∈ ["./a", "a"],
      Folder.Offers sharedFiles "f" reference (Utf8.ofString "\x7b\x7d") := by
    intro reference hreference
    have hread : (Value.read? (Utf8.ofString "\x7b\x7d")).isSome = true := by decide +kernel
    refine ⟨?_, ?_, Option.isSome_iff_exists.1 hread⟩
    · revert reference
      decide +kernel
    · revert reference
      decide +kernel
  constructor
  · have hapart : aliased.tokens.Pairwise Entry.IsApart := by
      refine List.pairwise_pair.2 ⟨by decide, fun slug _ hslug => ?_⟩
      simp [Entry.new] at hslug
    have hreferences : ∀ e ∈ aliased.tokens, e.content ∈ ["./a", "a"] := by decide
    have hpayloads : ∀ e ∈ aliased.tokens, ∃ bs, Folder.Offers sharedFiles "f" e.content bs :=
      fun e he => ⟨_, hoffers e.content (hreferences e he)⟩
    obtain ⟨s, hs⟩ := hexists.2 ⟨hfolder, by simp [aliased], hpayloads, hapart⟩
    exact ⟨s, hs, hkeeps s hs⟩
  · apply (hfault _).2
    refine .payload hfolder ⟨Entry.new "u" .rmt "b", by simp [lacking], ?_, ?_⟩
    · exact .missing (by decide +kernel) (by decide +kernel)
    · intro e he hless
      obtain rfl | rfl : e = Entry.new "v" .imt "c" ∨ e = Entry.new "u" .rmt "b" := by
        simpa [lacking] using he
      · exact absurd hless (by decide +kernel)
      · exact absurd hless (by decide +kernel)

end Snapshot

end CorridorTrust
