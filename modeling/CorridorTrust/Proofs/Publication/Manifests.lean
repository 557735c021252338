import CorridorTrust.Proofs.Json.Parsing
import CorridorTrust.Proofs.Publication.Identity
import CorridorTrust.Proofs.Time.RoundTrip

/-!
Manifests that are written and read again. Every field of every entry is read back from the text, an empty
slug apart from an absent one, as long as the years have four digits. A manifest is refused for a window
exactly where one is inverted, and the first such entry is named.
-/

namespace CorridorTrust

open Json (Value Members Tree)
open Time (Instant)

lemma Tag.ofTree?_text (tag : Tag) : Tag.ofTree? (.string (some tag.text)) = some tag := by
  cases tag <;> decide

namespace Time.Instant

lemma ofTree?_string (s : String) : ofTree? (.string (some s)) = ofText? s := rfl

lemma printedTree_toJson (i : Option Instant) :
    (toJson i).printedTree = .string (some ((i.map toText).getD "")) := by
  cases i <;> rfl

lemma ofTree?_toJson {i : Option Instant} (hproper : ∀ t, i = some t → t.IsProper)
    (hyears : ∀ t, i = some t → t.InYears) :
    ofTree? (toJson i).printedTree = some i := by
  rw [printedTree_toJson, ofTree?_string]
  cases i with
  | none => rfl
  | some t =>
    rw [Option.map_some, Option.getD_some, ofText?, t.isBare_toText.isBlankText_eq,
      read_toText (hproper t rfl) (hyears t rfl)]
    rfl

lemma parse_of_ofTree? {tree : Tree} {t : Instant} (h : ofTree? tree = some (some t)) :
    ∃ s, parse s = .ok t := by
  obtain ⟨text, -, htext⟩ := Option.bind_eq_some_iff.1 h
  cases text with
  | none => cases htext
  | some s =>
    dsimp only at htext
    rw [ofText?] at htext
    split_ifs at htext
    · cases htext
    · cases hread : Timestamp.read s with
      | error defect =>
        rw [hread] at htext
        cases htext
      | ok u =>
        obtain rfl : u = t := by simpa [hread, Except.toOption] using htext
        exact ⟨s, by rw [parse, hread]⟩

end Time.Instant

namespace Entry

variable {e : Entry}

def InYears (e : Entry) : Prop := ∀ t, some t ∈ [e.issued, e.notBefore, e.expires] → t.InYears

def IsInverted (e : Entry) : Prop :=
  ∃ nbf exp, e.notBefore = some nbf ∧ e.expires = some exp ∧ exp.before nbf = true

lemma hasWindow_eq_false_iff : e.hasWindow = false ↔ e.IsInverted := by
  rw [hasWindow, IsInverted]
  cases e.notBefore <;> cases e.expires <;> simp

lemma checkWindow_eq_ok_iff : e.checkWindow = .ok () ↔ ¬e.IsInverted := by
  rw [checkWindow_eq_ok_iff_hasWindow, ← hasWindow_eq_false_iff, Bool.not_eq_false]

lemma checkWindow_eq_error_iff {fault : Fault} :
    e.checkWindow = .error fault ↔ e.IsInverted ∧ .invalidWindow e.uri = fault := by
  rw [← hasWindow_eq_false_iff, checkWindow]
  cases e.hasWindow <;> simp

def members (e : Entry) : Members :=
  [("uri", .string e.uri), ("type", .string e.tag.text)] ++
    (e.slug.toList.map fun s => ("slug", .string s)) ++
    [("content_ref", .string e.content), ("hash", .string e.hash), ("version", .string e.version),
      ("issued_at", Instant.toJson e.issued), ("nbf", Instant.toJson e.notBefore),
      ("exp", Instant.toJson e.expires), ("revoked", .bool e.revoked)]

lemma nodup_members (e : Entry) : (e.members.map Prod.fst).Nodup := by
  rw [members]
  cases e.slug <;> simp

lemma get?_of_mem {name : String} {v : Value} (h : (name, v) ∈ e.members) :
    e.members.get? name = some v := (Json.lookup_eq_some_iff e.nodup_members).2 h

lemma get?_slug (e : Entry) : e.members.get? "slug" = e.slug.map .string := by
  cases hslug : e.slug with
  | none => simp [members, hslug, Members.get?, List.lookup]
  | some s => exact get?_of_mem (by simp [members, hslug])

lemma printedTree_toJson (e : Entry) :
    e.toJson.printedTree = .object (e.members.map fun m => (some m.1, m.2.printedTree)) :=
  Value.printedTree_object e.members

section Fields

variable {name text : String} {i : Option Instant}

lemma required_text (h : (name, .string text) ∈ e.members) :
    Tree.required Tree.string? ((e.members.get? name).map Value.printedTree) = some text := by
  rw [get?_of_mem h]
  rfl

lemma orElse_text (h : (name, .string text) ∈ e.members) (absent : String) :
    Tree.orElse absent Tree.string? ((e.members.get? name).map Value.printedTree) = some text := by
  rw [get?_of_mem h]
  rfl

lemma orElse_instant (hdated : e.IsDated) (hyears : e.InYears)
    (hi : i ∈ [e.issued, e.notBefore, e.expires]) (h : (name, Instant.toJson i) ∈ e.members) :
    Tree.orElse none Instant.ofTree? ((e.members.get? name).map Value.printedTree) = some i := by
  have hback := Instant.ofTree?_toJson (hdated.isProper hi) fun t ht => hyears t (ht ▸ hi)
  rw [get?_of_mem h, Option.map_some, Tree.orElse, hback]

lemma required_tag (e : Entry) :
    Tree.required Tag.ofTree? ((e.members.get? "type").map Value.printedTree) = some e.tag := by
  rw [get?_of_mem (v := .string e.tag.text) (by simp [members]), Option.map_some, Tree.required,
    Value.printedTree_string, Tag.ofTree?_text]

lemma orElse_slug (e : Entry) :
    Tree.orElse none (Tree.nullable Tree.string?) ((e.members.get? "slug").map Value.printedTree) =
      some e.slug := by
  rw [get?_slug]
  cases e.slug <;> rfl

lemma orElse_revoked (e : Entry) :
    Tree.orElse false Tree.bool? ((e.members.get? "revoked").map Value.printedTree) = some e.revoked := by
  rw [get?_of_mem (v := .bool e.revoked) (by simp [members])]
  rfl

end Fields

lemma ofTree?_toJson (hdated : e.IsDated) (hyears : e.InYears) : ofTree? e.toJson.printedTree = some e := by
  have huri := required_text (by simp [members] : ("uri", .string e.uri) ∈ e.members)
  have hcontent := required_text (by simp [members] : ("content_ref", .string e.content) ∈ e.members)
  have hhash := orElse_text (by simp [members] : ("hash", .string e.hash) ∈ e.members) ""
  have hversion := orElse_text (by simp [members] : ("version", .string e.version) ∈ e.members) ""
  have hissued := orElse_instant hdated hyears (by simp)
    (by simp [members] : ("issued_at", Instant.toJson e.issued) ∈ e.members)
  have hstart := orElse_instant hdated hyears (by simp)
    (by simp [members] : ("nbf", Instant.toJson e.notBefore) ∈ e.members)
  have hend := orElse_instant hdated hyears (by simp)
    (by simp [members] : ("exp", Instant.toJson e.expires) ∈ e.members)
  rw [printedTree_toJson, ofTree?, Members.fields?_map e.nodup_members]
  simp only [huri, e.required_tag, e.orElse_slug, hcontent, hhash, hversion, hissued, hstart, hend,
    e.orElse_revoked, Option.bind_eq_bind, Option.bind_some]

lemma isDated_of_ofTree? {tree : Tree} (h : ofTree? tree = some e) : e.IsDated := by
  simp only [ofTree?, Option.bind_eq_bind, Option.bind_eq_some_iff] at h
  obtain ⟨f, -, uri, -, tag, -, slug, -, content, -, hash, -, version, -, issued, hissued, start, hstart,
    finish, hfinish, revoked, -, h⟩ := h
  obtain rfl := Option.some.inj h
  have hread {o : Option Tree} {t : Instant}
      (ho : Tree.orElse none Instant.ofTree? o = some (some t)) : ∃ s, Instant.parse s = .ok t := by
    cases o with
    | none => cases ho
    | some tree => exact Instant.parse_of_ofTree? ho
  intro t ht
  simp only [List.mem_cons, List.not_mem_nil, or_false] at ht
  rcases ht with rfl | rfl | rfl
  · exact hread hissued
  · exact hread hstart
  · exact hread hfinish

end Entry

namespace Manifest

variable {m : Manifest} {bs : Bytes} {uri : String}

lemma isRegular_toJson (m : Manifest) : m.toJson.IsRegular := by
  simp [toJson, Value.isRegular_object, Entry.isRegular_toJson]

def members (m : Manifest) : Members :=
  [("version", .string m.version), ("tokens", .array (m.tokens.map Entry.toJson))]

lemma ofTree?_toJson (hdated : ∀ e ∈ m.tokens, e.IsDated) (hyears : ∀ e ∈ m.tokens, e.InYears) :
    ofTree? m.toJson.printedTree = some m := by
  have hnodup : (m.members.map Prod.fst).Nodup := by simp [members]
  have hversion : Tree.orElse "" Tree.string? ((m.members.get? "version").map Value.printedTree) =
      some m.version := rfl
  have htokens : Tree.required (Tree.list? Entry.ofTree?)
      ((m.members.get? "tokens").map Value.printedTree) = some m.tokens := by
    have hget : m.members.get? "tokens" = some (.array (m.tokens.map Entry.toJson)) := rfl
    rw [hget, Option.map_some, Tree.required, Value.printedTree_array, List.map_map]
    exact Tree.list?_map fun e he => Entry.ofTree?_toJson (hdated e he) (hyears e he)
  change ofTree? (Value.object m.members).printedTree = some m
  rw [Value.printedTree_object, ofTree?, Members.fields?_map hnodup]
  simp only [hversion, htokens, Option.bind_eq_bind, Option.bind_some]

def decode? (bs : Bytes) : Option Manifest := (Tree.read? bs).bind ofTree?

lemma decode?_compact (hdated : ∀ e ∈ m.tokens, e.IsDated) (hyears : ∀ e ∈ m.tokens, e.InYears) :
    decode? (Utf8.ofString m.toJson.compact) = some m := by
  rw [decode?, Tree.read?_of_scan?_tokens (Value.scan?_compact m.isRegular_toJson), Option.bind_some,
    ofTree?_toJson hdated hyears]

lemma isDated_of_decode? (h : decode? bs = some m) : ∀ e ∈ m.tokens, e.IsDated := by
  obtain ⟨tree, -, h⟩ := Option.bind_eq_some_iff.1 h
  simp only [ofTree?, Option.bind_eq_bind, Option.bind_eq_some_iff] at h
  obtain ⟨f, -, version, -, tokens, htokens, h⟩ := h
  obtain rfl := Option.some.inj h
  intro e he
  cases hf : f "tokens" with
  | none =>
    rw [hf] at htokens
    cases htokens
  | some list =>
    rw [hf, Tree.required] at htokens
    obtain ⟨tree, htree⟩ := Tree.exists_of_mem_list? htokens he
    exact Entry.isDated_of_ofTree? htree

lemma read_eq (bs : Bytes) : read bs =
    match decode? bs with
    | none => .error (.invalidFormat (.json "manifest"))
    | some m => m.validate.map fun _ => m := by
  rw [read, decode?]
  cases (Tree.read? bs).bind ofTree? with
  | none => rfl
  | some m =>
    dsimp only
    cases m.validate <;> rfl

lemma read_eq_ok_iff :
    read bs = .ok m ↔ decode? bs = some m ∧ ∀ e ∈ m.tokens, e.checkWindow = .ok () := by
  rw [read_eq, ← Sequence.forM_eq_ok_iff, ← validate]
  cases hdecode : decode? bs with
  | none => simp
  | some m' =>
    simp only [Sequence.map_eq_ok_iff, Option.some.injEq]
    constructor
    · rintro ⟨⟨⟩, hvalid, rfl⟩
      exact ⟨rfl, hvalid⟩
    · rintro ⟨rfl, hvalid⟩
      exact ⟨(), hvalid, rfl⟩

lemma read_eq_invalidWindow_iff : read bs = .error (.invalidWindow uri) ↔
    ∃ m before e after, decode? bs = some m ∧ m.tokens = before ++ e :: after ∧
      (∀ b ∈ before, ¬b.IsInverted) ∧ e.IsInverted ∧ e.uri = uri := by
  rw [read_eq]
  cases hdecode : decode? bs with
  | none => simp
  | some m =>
    simp only [Sequence.map_eq_error_iff, validate, Sequence.forM_eq_error_iff, Entry.checkWindow_eq_ok_iff,
      Entry.checkWindow_eq_error_iff]
    constructor
    · rintro ⟨before, e, after, htokens, hbefore, he, huri⟩
      exact ⟨m, before, e, after, rfl, htokens, hbefore, he, by simpa using huri⟩
    · rintro ⟨m', before, e, after, hm, htokens, hbefore, he, rfl⟩
      obtain rfl := Option.some.inj hm
      exact ⟨before, e, after, htokens, hbefore, he, rfl⟩

lemma exists_invalidWindow (hdecode : decode? bs = some m) {e : Entry} (he : e ∈ m.tokens)
    (hinverted : e.IsInverted) : ∃ uri, read bs = .error (.invalidWindow uri) := by
  rw [read_eq, hdecode]
  cases hvalid : m.validate with
  | ok u =>
    have hall := Sequence.forM_eq_ok_iff.1 hvalid
    exact absurd hinverted (Entry.checkWindow_eq_ok_iff.1 (hall e he))
  | error fault =>
    obtain ⟨-, first, -, -, -, hfirst⟩ := Sequence.forM_eq_error_iff.1 hvalid
    obtain ⟨-, rfl⟩ := Entry.checkWindow_eq_error_iff.1 hfirst
    exact ⟨first.uri, by simp [hvalid, Except.map]⟩

/-- A manifest that is written is read back the same when its windows hold and its instants are such as
are read, in years of four digits; and so is one that was read. What is refused for a window is exactly a
manifest with an inverted one, by the name of the first. -/
theorem read_compact :
    (∀ m : Manifest, (∀ e ∈ m.tokens, e.checkWindow = .ok ()) → (∀ e ∈ m.tokens, e.IsDated) →
        (∀ e ∈ m.tokens, e.InYears) → read (Utf8.ofString m.toJson.compact) = .ok m) ∧
      (∀ bs m, read bs = .ok m → (∀ e ∈ m.tokens, e.InYears) →
        read (Utf8.ofString m.toJson.compact) = .ok m) ∧
      (∀ bs, (∃ uri, read bs = .error (.invalidWindow uri)) ↔
        ∃ m, decode? bs = some m ∧ ∃ e ∈ m.tokens, e.IsInverted) ∧
      ∀ bs uri, read bs = .error (.invalidWindow uri) ↔
        ∃ m before e after, decode? bs = some m ∧ m.tokens = before ++ e :: after ∧
          (∀ b ∈ before, ¬b.IsInverted) ∧ e.IsInverted ∧ e.uri = uri := by
  refine ⟨fun m hwindows hdated hyears => ?_, fun bs m hread hyears => ?_, fun bs => ?_,
    fun bs uri => read_eq_invalidWindow_iff⟩
  · exact read_eq_ok_iff.2 ⟨decode?_compact hdated hyears, hwindows⟩
  · obtain ⟨hdecode, hwindows⟩ := read_eq_ok_iff.1 hread
    exact read_eq_ok_iff.2 ⟨decode?_compact (isDated_of_decode? hdecode) hyears, hwindows⟩
  · constructor
    · rintro ⟨uri, huri⟩
      obtain ⟨m, before, e, after, hdecode, htokens, -, he, -⟩ := read_eq_invalidWindow_iff.1 huri
      exact ⟨m, hdecode, e, by simp [htokens], he⟩
    · rintro ⟨m, hdecode, e, he, hinverted⟩
      exact exists_invalidWindow hdecode he hinverted

section Slugs

def leapEntry (uri : String) (slug : Option String) (expires : Instant) : Entry :=
  { Entry.new uri .psrt "p" with slug := slug, notBefore := some ⟨0, 0⟩, expires := some expires }

def slugged : List Entry :=
  [leapEntry "u" none ⟨1483228799, 1500000000⟩, leapEntry "v" (some "") ⟨1483228799, 1500000000⟩]

def inverted : Entry := leapEntry "w" none ⟨-1, 0⟩

lemma readable_instants : ∀ e ∈ slugged ++ [inverted], e.IsDated ∧ e.InYears := by
  have hgood : ∀ t ∈ [(⟨0, 0⟩ : Instant), ⟨1483228799, 1500000000⟩, ⟨-1, 0⟩],
      (∃ s, Instant.parse s = .ok t) ∧ t.InYears := by
    simp only [List.forall_mem_cons, List.not_mem_nil, false_imp_iff, implies_true, and_true]
    exact ⟨⟨⟨"1970-01-01T00:00:00Z", by decide⟩, by decide, by decide⟩,
      ⟨⟨"2017-01-01T00:59:60.5+01:00", by decide⟩, by decide, by decide⟩,
      ⟨⟨"1969-12-31T23:59:59Z", by decide⟩, by decide, by decide⟩⟩
  have hinstants : ∀ e ∈ slugged ++ [inverted], ∀ t, some t ∈ [e.issued, e.notBefore, e.expires] →
      t ∈ [(⟨0, 0⟩ : Instant), ⟨1483228799, 1500000000⟩, ⟨-1, 0⟩] := by
    simp +contextual [slugged, inverted, leapEntry, Entry.new]
  intro e he
  constructor
  · intro t ht
    exact (hgood t (hinstants e he t ht)).1
  · intro t ht
    exact (hgood t (hinstants e he t ht)).2

theorem slugged_read_back :
    read (Utf8.ofString (Manifest.mk "1" slugged).toJson.compact) = .ok ⟨"1", slugged⟩ ∧
    read (Utf8.ofString (Manifest.mk "1" (slugged ++ [inverted])).toJson.compact) =
      .error (.invalidWindow "w") := by
  obtain ⟨hread, -, -, hrefused⟩ := read_compact
  have hwindows : ∀ e ∈ slugged, e.checkWindow = .ok () := by decide
  constructor
  · apply hread ⟨"1", slugged⟩ hwindows
    · intro e he
      exact (readable_instants e (List.mem_append_left _ he)).1
    · intro e he
      exact (readable_instants e (List.mem_append_left _ he)).2
  · apply (hrefused _ "w").2
    refine ⟨⟨"1", slugged ++ [inverted]⟩, slugged, inverted, [], ?_, rfl, ?_, ?_, rfl⟩
    · exact decode?_compact (fun e he => (readable_instants e he).1)
        fun e he => (readable_instants e he).2
    · exact fun e he => Entry.checkWindow_eq_ok_iff.1 (hwindows e he)
    · exact ⟨⟨0, 0⟩, ⟨-1, 0⟩, rfl, rfl, by decide⟩

end Slugs

end Manifest

end CorridorTrust
