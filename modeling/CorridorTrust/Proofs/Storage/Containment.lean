import CorridorTrust.Proofs.Sequence
import CorridorTrust.Proofs.Text.Lines
import CorridorTrust.Storage.Folder

/-!
References to content stay inside their folder. The path of an accepted reference leads to a place at the
folder's own or below it, so a read gives the bytes of a file below the folder and depends on nothing else.
-/

namespace CorridorTrust

namespace Path

variable {base path reference name : String} {top names : List String}

lemma segments_append (before after : String) :
    segments (before ++ "/" ++ after) = segments before ++ segments after := by
  have hlist : (before ++ "/" ++ after).toList = before.toList ++ '/' :: after.toList := by simp
  rw [segments, hlist, Text.split_append, List.map_append, segments, segments]

lemma segments_ne_nil (path : String) : segments path ≠ [] := by
  obtain ⟨ended, rest, hsplit, -⟩ := Text.exists_split_eq '/' path.toList
  simp [segments, hsplit]

lemma isAbsolute_eq_false_iff : isAbsolute path = false ↔ path.toList.head? ≠ some '/' :=
  beq_eq_false_iff_ne

lemma component?_eq_parent_iff : component? name = some .parent ↔ name = ".." := by
  unfold component?
  split_ifs with hskipped hparent
  · rcases hskipped with rfl | rfl <;> simp
  · simp [hparent]
  · simp [hparent]

lemma component?_ne_root : component? name ≠ some .root := by
  unfold component?
  split_ifs <;> simp

lemma isReference_iff : isReference reference = true ↔
    reference ≠ "" ∧ isAbsolute reference = false ∧ ".." ∉ segments reference := by
  have hnames : ((segments reference).filterMap component?).all Component.isBelow = true ↔
      ".." ∉ segments reference := by
    rw [List.all_eq_true]
    constructor
    · intro h hmem
      exact absurd (h .parent (List.mem_filterMap.2 ⟨"..", hmem, rfl⟩)) (by simp [Component.isBelow])
    · intro h c hc
      obtain ⟨name, hmem, hname⟩ := List.mem_filterMap.1 hc
      cases c with
      | root => exact absurd hname component?_ne_root
      | parent => exact absurd (component?_eq_parent_iff.1 hname ▸ hmem) h
      | current => rfl
      | normal name => rfl
  rw [isReference, Bool.and_eq_true, bne_iff_ne, and_congr_right_iff, components]
  intro _
  split_ifs with habsolute hcurrent
  · simp [Component.isBelow, habsolute]
  · rw [List.all_cons, Component.isBelow, Bool.true_and, hnames]
    simp [habsolute]
  · rw [hnames]
    simp [habsolute]

def entered (names : List String) : List String :=
  names.filter fun name => name ≠ "" ∧ name ≠ "."

lemma foldl_enter (h : ".." ∉ names) : names.foldl enter top = top ++ entered names := by
  induction names generalizing top with
  | nil => simp [entered]
  | cons name names ih =>
    obtain ⟨hname, hnames⟩ : ".." ≠ name ∧ ".." ∉ names := by simpa using h
    rw [List.foldl_cons, ih hnames, enter]
    by_cases hskipped : name = "" ∨ name = "."
    · have hnot : ¬(name ≠ "" ∧ name ≠ ".") := fun ⟨hempty, hdot⟩ => hskipped.elim hempty hdot
      rw [if_pos hskipped, entered, entered, List.filter_cons_of_neg (by simpa using hnot)]
    · have hentered : name ≠ "" ∧ name ≠ "." := not_or.1 hskipped
      rw [if_neg hskipped, if_neg (Ne.symm hname), entered, entered,
        List.filter_cons_of_pos (by simpa using hentered), List.append_assoc, List.singleton_append]

/-- The names of a folder's path, as they stand before the names of a path below it. -/
def lead (base : String) : List String :=
  if base = "" then []
  else if base.toList.getLast? = some '/' then (segments base).dropLast
  else segments base

lemma exists_eq_append_slash (h : base.toList.getLast? = some '/') : ∃ stem, base = stem ++ "/" := by
  obtain ⟨stem, hstem⟩ := List.getLast?_eq_some_iff.1 h
  exact ⟨String.ofList stem, String.toList_injective (by simp [hstem])⟩

lemma segments_slash (stem : String) : segments (stem ++ "/") = segments stem ++ [""] := by
  have h := segments_append stem ""
  rwa [String.append_empty] at h

lemma segments_join (h : isAbsolute path = false) :
    segments (join base path) = lead base ++ segments path := by
  rw [join, lead, if_neg (by simp [h])]
  by_cases hempty : base = ""
  · simp [hempty]
  by_cases hslash : base.toList.getLast? = some '/'
  · obtain ⟨stem, rfl⟩ := exists_eq_append_slash hslash
    rw [if_pos (.inr hslash), if_neg hempty, if_pos hslash, segments_append, segments_slash,
      List.dropLast_concat]
  · rw [if_neg (not_or.2 ⟨hempty, hslash⟩), if_neg hempty, if_neg hslash, segments_append]

lemma start_join (h : isAbsolute path = false) : start (join base path) = start base := by
  have habsolute : isAbsolute (join base path) = isAbsolute base := by
    rw [join, if_neg (by simp [h])]
    by_cases hempty : base = ""
    · rw [if_pos (.inl hempty), hempty, String.empty_append, h]
      rfl
    · have hlist : base.toList ≠ [] := by simpa using hempty
      split_ifs <;> simp [isAbsolute, List.head?_append_of_ne_nil _ hlist]
  rw [start, start, habsolute]

lemma join_ne_empty (h : path ≠ "") : join base path ≠ "" := by
  rw [join]
  split_ifs <;> simp [h]

lemma exists_segments_eq (h : base ≠ "") :
    segments base = lead base ∨ segments base = lead base ++ [""] := by
  rw [lead, if_neg h]
  by_cases hslash : base.toList.getLast? = some '/'
  · obtain ⟨stem, rfl⟩ := exists_eq_append_slash hslash
    rw [if_pos hslash, segments_slash, List.dropLast_concat]
    exact .inr rfl
  · exact .inl (if_neg hslash).symm

lemma foldl_lead (base : String) : (lead base).foldl enter (start base) = place base := by
  by_cases hempty : base = ""
  · subst hempty
    rfl
  rcases exists_segments_eq hempty with h | h
  · rw [place, h]
  · rw [place, h, List.foldl_append]
    simp [enter]

lemma place_join (h : isReference reference = true) :
    place (join base reference) = place base ++ entered (segments reference) := by
  obtain ⟨-, hrelative, hnames⟩ := isReference_iff.1 h
  rw [place, start_join hrelative, segments_join hrelative, List.foldl_append, foldl_lead,
    foldl_enter hnames]

end Path

namespace FileTree

open CorridorTrust.Path (enter entered place segments)

variable {t t' : FileTree} {path : String} {top p names more : List String} {bs : Bytes}

lemma follow_append (t : FileTree) (top names more : List String) :
    t.follow top (names ++ more) = t.follow top names >>= fun p => t.follow p more := by
  induction names generalizing top with
  | nil => rfl
  | cons name names ih =>
    rw [List.cons_append, follow, follow, ih]
    split_ifs <;> rfl

lemma eq_foldl_of_follow (h : t.follow top names = .ok p) : p = names.foldl enter top := by
  induction names generalizing top with
  | nil => exact (Except.ok.inj h).symm
  | cons name names ih =>
    rw [follow] at h
    split_ifs at h
    exact ih h

lemma isDirectory_of_follow (hne : names ≠ []) (h : t.follow top names = .ok p) :
    t.node? top = some .directory := by
  obtain ⟨name, names, rfl⟩ := List.exists_cons_of_ne_nil hne
  rw [follow] at h
  by_contra hnot
  rw [if_pos hnot] at h
  cases h

lemma follow_of_file (hne : names ≠ []) (h : t.node? top = some (.file bs)) :
    t.follow top names = .error .notDirectory := by
  obtain ⟨name, names, rfl⟩ := List.exists_cons_of_ne_nil hne
  rw [follow, if_pos (by simp [h])]

lemma resolve_eq_ok_iff : t.resolve path = .ok p ↔
    pathFault? path = none ∧ t.follow (Path.start path) (segments path) = .ok p := by
  rw [resolve]
  cases pathFault? path <;> simp

lemma eq_place_of_resolve (h : t.resolve path = .ok p) : p = place path :=
  eq_foldl_of_follow (resolve_eq_ok_iff.1 h).2

lemma read_eq_ok_iff : t.read path = .ok bs ↔
    t.resolve path = .ok (place path) ∧ t.node? (place path) = some (.file bs) := by
  rw [read, Sequence.bind_eq_ok_iff]
  constructor
  · rintro ⟨p, hp, h⟩
    obtain rfl := eq_place_of_resolve hp
    refine ⟨hp, ?_⟩
    cases hnode : t.node? (place path) with
    | none => simp [hnode, throw, throwThe, MonadExceptOf.throw] at h
    | some n =>
      cases n with
      | directory => simp [hnode, throw, throwThe, MonadExceptOf.throw] at h
      | file bs' =>
        rw [hnode] at h
        rw [Except.ok.inj h]
  · rintro ⟨hp, hnode⟩
    exact ⟨place path, hp, by rw [hnode]; rfl⟩

lemma read_of_isDirectory (h : t.isDirectory path = true) : t.read path = .error .isDirectory := by
  rw [isDirectory] at h
  cases hp : t.resolve path with
  | error fault => simp [hp] at h
  | ok p =>
    rw [hp] at h
    rw [read, hp, Sequence.ok_bind, beq_iff_eq.1 h]
    rfl

def IsThroughFile (t : FileTree) (path : String) : Prop :=
  ∃ before after p bs, segments path = before ++ after ∧ after ≠ [] ∧
    t.follow (Path.start path) before = .ok p ∧ t.node? p = some (.file bs)

lemma exists_error_of_isThroughFile (hne : path ≠ "") (h : t.IsThroughFile path) :
    ∃ cause, cause ≠ .missing ∧ t.read path = .error cause := by
  obtain ⟨before, after, p, bs, hsegments, hafter, hbefore, hfile⟩ := h
  have hfollow : t.follow (Path.start path) (segments path) = .error .notDirectory := by
    rw [hsegments, follow_append, hbefore, Sequence.ok_bind, follow_of_file hafter hfile]
  cases hfault : pathFault? path with
  | none => exact ⟨.notDirectory, by simp, by rw [read, resolve, hfault]; simp [hfollow]⟩
  | some fault =>
    refine ⟨fault, ?_, by rw [read, resolve, hfault]; rfl⟩
    rintro rfl
    unfold pathFault? at hfault
    split_ifs at hfault <;> cases hfault

lemma follow_congr (h : ∀ names, t.node? (top ++ names) = t'.node? (top ++ names))
    (hnames : ".." ∉ names) : t.follow top names = t'.follow top names := by
  induction names generalizing top with
  | nil => rfl
  | cons name names ih =>
    obtain ⟨hname, hnames⟩ : ".." ≠ name ∧ ".." ∉ names := by simpa using hnames
    have hentered : enter top name = top ++ entered [name] := by
      rw [← Path.foldl_enter (by simpa using hname)]
      rfl
    have htop : t.node? top = t'.node? top := by simpa using h []
    have hrest : t.follow (top ++ entered [name]) names = t'.follow (top ++ entered [name]) names :=
      ih (fun more => by rw [List.append_assoc, h]) hnames
    rw [follow, follow, htop, hentered, h, hrest]

lemma follow_lead (h : t.isDirectory path = true) :
    t.follow (Path.start path) (Path.lead path) = .ok (place path) := by
  rw [isDirectory] at h
  cases hresolve : t.resolve path with
  | error fault => simp [hresolve] at h
  | ok p =>
    obtain ⟨hfault, hfollow⟩ := resolve_eq_ok_iff.1 hresolve
    have hne : path ≠ "" := by
      rintro rfl
      cases hfault
    obtain rfl := eq_place_of_resolve hresolve
    rcases Path.exists_segments_eq hne with hsegments | hsegments
    · rwa [hsegments] at hfollow
    · rw [hsegments, follow_append, Sequence.bind_eq_ok_iff] at hfollow
      obtain ⟨p, hp, -⟩ := hfollow
      rw [hp, eq_foldl_of_follow hp, Path.foldl_lead]

end FileTree

namespace Folder

open CorridorTrust.Path (entered join place segments)

variable {f : Folder} {t : FileTree} {reference path : String}

lemma resolve_eq_ok_iff : f.resolve reference = .ok path ↔
    Path.isReference reference = true ∧ path = join f.base reference := by
  rw [resolve]
  split_ifs with h <;> simp [h, eq_comm]

structure Serves (f : Folder) (t : FileTree) (reference path : String) : Prop where
  ok_iff : ∀ bs, f.read t reference = .ok bs ↔ t.read path = .ok bs
  below : ∀ bs, f.read t reference = .ok bs → ∃ names, names ≠ [] ∧
    place path = place f.base ++ names ∧ t.node? (place path) = some (.file bs)
  missing_iff : f.read t reference = .error (.notFound (.content path)) ↔
    t.read path = .error .missing
  unreadable_iff : ∀ cause, cause ≠ .missing →
    (f.read t reference = .error (.unreadable reference cause) ↔ t.read path = .error cause)
  directory : t.isDirectory path = true →
    f.read t reference = .error (.unreadable reference .isDirectory)
  throughFile : t.IsThroughFile path →
    ∃ cause, f.read t reference = .error (.unreadable reference cause)

lemma exists_below (h : Path.isReference reference = true) {bs : Bytes}
    (hread : t.read (join f.base reference) = .ok bs) : ∃ names, names ≠ [] ∧
      place (join f.base reference) = place f.base ++ names ∧
      t.node? (place (join f.base reference)) = some (.file bs) := by
  obtain ⟨hresolve, hfile⟩ := FileTree.read_eq_ok_iff.1 hread
  refine ⟨entered (segments reference), ?_, Path.place_join h, hfile⟩
  -- a reference without names would end at the folder, which is entered as a directory
  intro hempty
  obtain ⟨-, hrelative, -⟩ := Path.isReference_iff.1 h
  have hfollow := (FileTree.resolve_eq_ok_iff.1 hresolve).2
  rw [Path.start_join hrelative, Path.segments_join hrelative, FileTree.follow_append,
    Sequence.bind_eq_ok_iff] at hfollow
  obtain ⟨p, hp, hrest⟩ := hfollow
  have hdirectory := FileTree.isDirectory_of_follow (Path.segments_ne_nil reference) hrest
  rw [FileTree.eq_foldl_of_follow hp, Path.foldl_lead] at hdirectory
  rw [Path.place_join h, hempty, List.append_nil, hdirectory] at hfile
  cases hfile

lemma read_eq (h : Path.isReference reference = true) : f.read t reference =
    match t.read (join f.base reference) with
    | .ok bs => .ok bs
    | .error .missing => .error (.notFound (.content (join f.base reference)))
    | .error cause => .error (.unreadable reference cause) := by
  rw [read, resolve, if_pos h, Sequence.ok_bind]
  rfl

lemma serves (h : Path.isReference reference = true) :
    f.Serves t reference (join f.base reference) := by
  have hok (bs : Bytes) : f.read t reference = .ok bs ↔ t.read (join f.base reference) = .ok bs := by
    rw [read_eq h]
    rcases t.read (join f.base reference) with (_ | _) | _ <;> simp
  have hunreadable (cause : FileFault) (hcause : cause ≠ .missing) :
      f.read t reference = .error (.unreadable reference cause) ↔
        t.read (join f.base reference) = .error cause := by
    rw [read_eq h]
    rcases t.read (join f.base reference) with (_ | _) | _ <;> simp [hcause.symm]
  refine ⟨hok, fun bs hbs => exists_below h ((hok bs).1 hbs), ?_, hunreadable, fun hdirectory => ?_,
    fun hthrough => ?_⟩
  · rw [read_eq h]
    rcases t.read (join f.base reference) with (_ | _) | _ <;> simp
  · exact (hunreadable _ (by simp)).2 (FileTree.read_of_isDirectory hdirectory)
  · obtain ⟨hne, -⟩ := Path.isReference_iff.1 h
    obtain ⟨cause, hcause, hread⟩ :=
      FileTree.exists_error_of_isThroughFile (Path.join_ne_empty hne) hthrough
    exact ⟨cause, (hunreadable cause hcause).2 hread⟩

/-- A reference is taken exactly when it is not empty, does not begin with a slash and has no segment of
two dots. Its path then leads to the folder's place or below it. -/
theorem contained (f : Folder) (reference : String) :
    ((∃ path, f.resolve reference = .ok path) ↔
      reference ≠ "" ∧ reference.toList.head? ≠ some '/' ∧ ".." ∉ segments reference) ∧
    (∀ path, f.resolve reference = .ok path →
      path = join f.base reference ∧ place f.base <+: place path ∧
        ∀ t, f.Serves t reference path) ∧
    ((¬∃ path, f.resolve reference = .ok path) →
      ∀ t, f.read t reference = .error (.invalidIdentifier (.reference reference))) := by
  have htaken : (∃ path, f.resolve reference = .ok path) ↔ Path.isReference reference = true := by
    simp [resolve_eq_ok_iff]
  refine ⟨by rw [htaken, Path.isReference_iff, Path.isAbsolute_eq_false_iff], fun path hpath => ?_, fun hrefused t => ?_⟩
  · obtain ⟨h, rfl⟩ := resolve_eq_ok_iff.1 hpath
    exact ⟨rfl, ⟨_, (Path.place_join h).symm⟩, fun t => serves h⟩
  · rw [htaken] at hrefused
    rw [read, resolve, if_neg hrefused, Sequence.error_bind]

def dotted : FileTree where
  nodes := [(["..", "data"], .directory), (["..", "data", "a..b"], .directory),
    (["..", "data", "a..b", "..."], .file [123, 125])]

theorem dotted_contained : ∃ names, names ≠ [] ∧
    place "../data/./a..b//..." = place "../data/" ++ names ∧
    dotted.node? (place "../data/./a..b//...") = some (.file [123, 125]) := by
  obtain ⟨-, -, hserves⟩ := (contained ⟨"../data/"⟩ "./a..b//...").2.1 "../data/./a..b//..."
    (by decide +kernel)
  exact (hserves dotted).below [123, 125] (by decide +kernel)

theorem read_congr {t' : FileTree} (h : t.isDirectory f.base = true)
    (h' : t'.isDirectory f.base = true)
    (hbelow : ∀ names, t.node? (place f.base ++ names) = t'.node? (place f.base ++ names)) :
    f.read t = f.read t' := by
  funext reference
  by_cases hr : Path.isReference reference = true
  · obtain ⟨-, hrelative, hnames⟩ := Path.isReference_iff.1 hr
    have hfollow : t.follow (Path.start (join f.base reference)) (segments (join f.base reference)) =
        t'.follow (Path.start (join f.base reference)) (segments (join f.base reference)) := by
      rw [Path.start_join hrelative, Path.segments_join hrelative, FileTree.follow_append,
        FileTree.follow_append, FileTree.follow_lead h, FileTree.follow_lead h', Sequence.ok_bind,
        Sequence.ok_bind, FileTree.follow_congr hbelow hnames]
    have hresolve : t.resolve (join f.base reference) = t'.resolve (join f.base reference) := by
      rw [FileTree.resolve, FileTree.resolve, hfollow]
    have hnode : t.node? (place (join f.base reference)) = t'.node? (place (join f.base reference)) := by
      rw [Path.place_join hr, hbelow]
    have hread : t.read (join f.base reference) = t'.read (join f.base reference) := by
      rw [FileTree.read, FileTree.read, ← hresolve]
      cases hp : t.resolve (join f.base reference) with
      | error fault => rfl
      | ok p =>
        obtain rfl := FileTree.eq_place_of_resolve hp
        rw [Sequence.ok_bind, Sequence.ok_bind, hnode]
    rw [read_eq hr, read_eq hr, hread]
  · rw [read, read, resolve, if_neg hr, Sequence.error_bind, Sequence.error_bind]

end Folder

end CorridorTrust
