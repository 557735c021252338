import CorridorTrust.Proofs.Codec.Base64
import CorridorTrust.Proofs.Evidence.KeyListing
import CorridorTrust.Proofs.Text.Parts

/-!
Key sets and the documents that are written for them. A set is what its names stand for and nothing more,
so that the order in which keys were added or are gone through leaves no trace in its document; the
document is read as the same set. A listing is read exactly when each of its Ed25519 keys has a name and
spells a point.
-/

namespace CorridorTrust

open Json (Value Members Tree)
open Ed25519 (PublicKey)

namespace Ed25519.PublicKey

lemma ofBytes?_eq_some_iff {bs : Bytes} {key : PublicKey} : ofBytes? bs = some key ↔ key.bytes = bs := by
  constructor
  · intro h
    rw [ofBytes?] at h
    split_ifs at h with size
    obtain ⟨point, decodes, -, rfl⟩ := Option.pmap_eq_some_iff.1 h
    rfl
  · rintro rfl
    rw [ofBytes?, dif_pos key.size, Option.pmap_eq_some_iff]
    exact ⟨key.point, key.decodes, key.decodes, rfl⟩

lemma exists_bytes_iff {bs : Bytes} : (∃ key : PublicKey, key.bytes = bs) ↔
    bs.length = 32 ∧ ∃ point, Curve.Point.decode? bs = some point := by
  constructor
  · rintro ⟨key, rfl⟩
    exact ⟨key.size, key.point, key.decodes⟩
  · rintro ⟨size, point, decodes⟩
    exact ⟨⟨bs, point, size, decodes⟩, rfl⟩

end Ed25519.PublicKey

namespace Jwk

variable {k : Jwk} {key : PublicKey} {bs : Bytes}

def Spells (k : Jwk) (bs : Bytes) : Prop :=
  ∃ padding, k.x.toList = Base64.encode Base64.address bs ++ List.replicate padding '='

lemma decode?_stripEnd_eq_some_iff :
    Base64.decode? Base64.address (Text.stripEnd '=' k.x).toList = some bs ↔ k.Spells bs := by
  constructor
  · intro h
    obtain ⟨padding, hpadding⟩ := Text.exists_eq_stripEnd_append '=' k.x
    rw [Base64.eq_encode_of_decode? rfl h] at hpadding
    exact ⟨padding, hpadding⟩
  · rintro ⟨padding, hpadding⟩
    have hpad : (Base64.encode Base64.address bs).getLast? ≠ some '=' := fun hlast =>
      Base64.ne_pad_of_mem_encode Base64.isReadable_address rfl (List.mem_of_getLast? hlast) rfl
    rw [Text.stripEnd_append hpad padding hpadding, Base64.decode?_encode Base64.isReadable_address]

lemma readKey_eq_ok_iff : readKey bs = .ok key ↔ key.bytes = bs := by
  rw [← PublicKey.ofBytes?_eq_some_iff, readKey]
  cases PublicKey.ofBytes? bs <;> simp

lemma publicKey_eq_ok_iff : k.publicKey = .ok key ↔ k.Spells key.bytes := by
  rw [← decode?_stripEnd_eq_some_iff, publicKey]
  cases hdecode : Base64.decode? Base64.address (Text.stripEnd '=' k.x).toList with
  | none => simp
  | some bs =>
    by_cases hlength : bs.length = 32
    · simp only [hlength, ne_eq, not_true_eq_false, if_false, readKey_eq_ok_iff, Option.some.injEq]
      exact eq_comm
    · simp only [hlength, ne_eq, not_false_eq_true, if_true, Option.some.injEq]
      exact iff_of_false (by simp) fun h => hlength (h ▸ key.size)

lemma spells_ofBytes (kid : String) (bs : Bytes) : (ofBytes kid bs).Spells bs := by
  refine ⟨0, ?_⟩
  rw [ofBytes, String.toList_ofList, List.replicate_zero, List.append_nil]

def members (k : Jwk) : Members :=
  [("kty", .string k.kty), ("crv", .string k.crv), ("kid", .string k.kid), ("x", .string k.x)]

lemma normalize_toJson (k : Jwk) : k.toJson.normalize = .object (Members.ofList k.members) := rfl

lemma nodup_members (k : Jwk) : (k.members.map Prod.fst).Nodup := by simp [members]

lemma ofTree?_printedTree (k : Jwk) : ofTree? k.toJson.normalize.printedTree = some k := by
  have hget (name : String) : (Members.ofList k.members).get? name = k.members.get? name :=
    Members.get?_ofList_of_nodup k.nodup_members name
  rw [normalize_toJson, Value.printedTree_object, ofTree?,
    Members.fields?_map (Members.isMap_ofList _).nodup]
  simp only [hget, Option.bind_eq_bind, Option.bind_some]
  rfl

end Jwk

namespace KeySet

variable {s s' keys : KeySet} {kid : String} {key : PublicKey} {ks : List Jwk}
  {l : List (String × PublicKey)}

section Entries

def IsListedBy (s : KeySet) (l : List (String × PublicKey)) : Prop :=
  (l.map Prod.fst).Nodup ∧ ∀ kid key, s.get kid = .ok key ↔ (kid, key) ∈ l

lemma isListedBy_keys (s : KeySet) : s.IsListedBy s.keys := ⟨s.nodup_keys, fun _ _ => get_eq_ok_iff⟩

def sortByName (l : List (String × PublicKey)) : List (String × PublicKey) :=
  l.mergeSort fun a b => decide (a.1 ≤ b.1)

lemma IsListedBy.sortByName_eq (h : s.IsListedBy l) : sortByName l = s.keys := by
  have hdecided : (sortByName l).Pairwise fun a b => decide (a.1 ≤ b.1) = true := by
    apply List.pairwise_mergeSort
    · intro a b c hab hbc
      exact decide_eq_true ((of_decide_eq_true hab).trans (of_decide_eq_true hbc))
    · intro a b
      simpa using le_total a.1 b.1
  have hsorted : (sortByName l).Pairwise fun a b => a.1 ≤ b.1 := hdecided.imp of_decide_eq_true
  have hperm : (sortByName l).Perm s.keys := by
    apply (List.mergeSort_perm l _).trans
    apply (List.perm_ext_iff_of_nodup h.1.of_map s.nodup_keys.of_map).2
    intro a
    rw [← h.2, get_eq_ok_iff]
  apply hperm.eq_of_pairwise _ hsorted (s.sorted.imp le_of_lt)
  -- two entries of one name are the same, for the names of a set are distinct
  intro a b ha hb hab hba
  have ha' : (a.1, a.2) ∈ s.keys := hperm.mem_iff.1 ha
  have hname : a.1 = b.1 := le_antisymm hab hba
  rw [hname, ← get_eq_ok_iff] at ha'
  have hb' : s.get b.1 = .ok b.2 := get_eq_ok_iff.2 hb
  exact Prod.ext hname (Except.ok.inj (ha'.symm.trans hb'))

lemma ext_of_get (h : ∀ kid key, s.get kid = .ok key ↔ s'.get kid = .ok key) : s = s' := by
  have hlisted : s.IsListedBy s'.keys := ⟨s'.nodup_keys, fun kid key => (h kid key).trans get_eq_ok_iff⟩
  have hkeys : s.keys = s'.keys := hlisted.sortByName_eq.symm.trans s'.isListedBy_keys.sortByName_eq
  cases s
  cases s'
  congr

def insertAll (s : KeySet) (l : List (String × PublicKey)) : KeySet :=
  l.foldl (fun s a => s.insert a.1 a.2) s

lemma get_insertAll (s : KeySet) (l : List (String × PublicKey)) (kid : String) :
    (s.insertAll l).get kid =
      match l.reverse.lookup kid with
      | some key => .ok key
      | none => s.get kid := by
  induction l generalizing s with
  | nil => rfl
  | cons a l ih =>
    obtain ⟨name, key⟩ := a
    have hstep : s.insertAll ((name, key) :: l) = (s.insert name key).insertAll l := rfl
    rw [hstep, ih, List.reverse_cons, List.lookup_append]
    cases hlast : l.reverse.lookup kid with
    | some last => rfl
    | none =>
      by_cases hname : kid = name
      · subst hname
        simp [get_insert_self]
      · have hne : (kid == name) = false := by simpa using hname
        simp [get_insert_of_ne hname, List.lookup_cons, hne]

lemma IsListedBy.insertAll_eq (h : s.IsListedBy l) : empty.insertAll l = s := by
  have hreverse : (l.reverse.map Prod.fst).Nodup := by
    rw [List.map_reverse]
    exact List.nodup_reverse.2 h.1
  apply ext_of_get
  intro kid key
  rw [h.2, ← List.mem_reverse, ← Json.lookup_eq_some_iff hreverse, get_insertAll]
  cases l.reverse.lookup kid <;> simp [get, empty]

end Entries

section Listed

lemma exists_foldlM_addJwk_iff : (∃ keys, ks.foldlM addJwk s = .ok keys) ↔
    ∀ k ∈ ks, k.isEd25519 = true → k.kid ≠ "" ∧ ∃ key, k.publicKey = .ok key := by
  constructor
  · rintro ⟨keys, h⟩
    exact publicKey_of_foldlM_addJwk h
  · intro h
    induction ks generalizing s with
    | nil => exact ⟨s, rfl⟩
    | cons k ks ih =>
      obtain ⟨hk, hks⟩ := List.forall_mem_cons.1 h
      obtain ⟨s', hs'⟩ : ∃ s', s.addJwk k = .ok s' := by
        cases hkind : k.isEd25519 with
        | false => exact ⟨s, addJwk_eq_ok_iff.2 (.inl ⟨hkind, rfl⟩)⟩
        | true =>
          obtain ⟨hname, key, hkey⟩ := hk hkind
          exact ⟨_, addJwk_eq_ok_iff.2 (.inr ⟨hkind, hname, key, hkey, rfl⟩)⟩
      rw [List.foldlM_cons, hs']
      exact ih hks

lemma foldlM_addJwk_filter (s : KeySet) (ks : List Jwk) :
    (ks.filter Jwk.isEd25519).foldlM addJwk s = ks.foldlM addJwk s := by
  induction ks generalizing s with
  | nil => rfl
  | cons k ks ih =>
    cases hkind : k.isEd25519 with
    | false =>
      have hskip : s.addJwk k = .ok s := addJwk_eq_ok_iff.2 (.inl ⟨hkind, rfl⟩)
      rw [List.filter_cons_of_neg (by simp [hkind]), ih, List.foldlM_cons, hskip]
      rfl
    | true =>
      rw [List.filter_cons_of_pos hkind, List.foldlM_cons, List.foldlM_cons]
      congr 1
      funext s'
      exact ih s'

lemma foldlM_addJwk_map (s : KeySet) (h : ∀ a ∈ l, a.1 ≠ "") :
    (l.map fun a => Jwk.ofBytes a.1 a.2.bytes).foldlM addJwk s = .ok (s.insertAll l) := by
  induction l generalizing s with
  | nil => rfl
  | cons a l ih =>
    obtain ⟨ha, hl⟩ := List.forall_mem_cons.1 h
    have hkey : (Jwk.ofBytes a.1 a.2.bytes).publicKey = .ok a.2 :=
      Jwk.publicKey_eq_ok_iff.2 (Jwk.spells_ofBytes a.1 a.2.bytes)
    have hadd : s.addJwk (Jwk.ofBytes a.1 a.2.bytes) = .ok (s.insert a.1 a.2) :=
      addJwk_eq_ok_iff.2 (.inr ⟨rfl, ha, a.2, hkey, rfl⟩)
    rw [List.map_cons, List.foldlM_cons, hadd]
    exact ih _ hl

end Listed

section Documents

def document (l : List (String × PublicKey)) : Value :=
  .object [("keys", .array (l.map fun a => (Jwk.ofBytes a.1 a.2.bytes).toJson.normalize))]

lemma isRegular_document (l : List (String × PublicKey)) : (document l).IsRegular := by
  rw [document, Value.isRegular_object]
  simp only [List.mem_singleton, forall_eq, Value.isRegular_array, List.forall_mem_map]
  intro a _
  apply Value.IsRegular.normalize
  simp [Jwk.toJson, Value.isRegular_object, Value.isRegular_string]

def listed (l : List (String × PublicKey)) : List Jwk := l.map fun a => Jwk.ofBytes a.1 a.2.bytes

lemma documentOfTree?_document (l : List (String × PublicKey)) :
    documentOfTree? (document l).printedTree = some (listed l) := by
  have helements : (l.map fun a => (Jwk.ofBytes a.1 a.2.bytes).toJson.normalize).map Value.printedTree =
      (listed l).map fun k => k.toJson.normalize.printedTree := by
    rw [listed, List.map_map, List.map_map]
    rfl
  rw [document, Value.printedTree_object, documentOfTree?, Members.fields?_map (by simp)]
  simp only [Members.get?, List.lookup_cons_self, Option.map_some, Option.bind_eq_bind, Option.bind_some]
  rw [Value.printedTree_array, helements, Tree.required]
  exact Tree.list?_map fun k _ => k.ofTree?_printedTree

lemma listing?_document {text : String} (h : text ∈ Seal.texts (document l)) :
    listing? (Utf8.ofString text) = some (listed l) := by
  have hread := Tree.read?_of_scan?_tokens (Seal.scan?_of_mem_texts (isRegular_document l) h)
  rw [listing?, hread, Option.bind_some, documentOfTree?_document]

lemma read_document (h : ∀ a ∈ l, a.1 ≠ "") {text : String} (ht : text ∈ Seal.texts (document l)) :
    read (Utf8.ofString text) = .ok (empty.insertAll l) :=
  read_eq_ok_iff.2 ⟨listed l, listing?_document ht, foldlM_addJwk_map empty h⟩

end Documents

lemma exists_read_iff {bs : Bytes} (h : listing? bs = some ks) : (∃ keys, read bs = .ok keys) ↔
    ∀ k ∈ ks, k.isEd25519 = true →
      k.kid ≠ "" ∧ ∃ b, k.Spells b ∧ b.length = 32 ∧ ∃ point, Curve.Point.decode? b = some point := by
  have hread : (∃ keys, read bs = .ok keys) ↔ ∃ keys, ks.foldlM addJwk empty = .ok keys := by
    simp [read_eq_ok_iff, h]
  have hkey (k : Jwk) : (∃ key, k.publicKey = .ok key) ↔
      ∃ b, k.Spells b ∧ b.length = 32 ∧ ∃ point, Curve.Point.decode? b = some point := by
    simp only [Jwk.publicKey_eq_ok_iff, ← PublicKey.exists_bytes_iff]
    constructor
    · rintro ⟨key, hkey⟩
      exact ⟨key.bytes, hkey, key, rfl⟩
    · rintro ⟨b, hkey, key, rfl⟩
      exact ⟨key, hkey⟩
  rw [hread, exists_foldlM_addJwk_iff]
  simp only [hkey]

lemma get_read_iff {bs : Bytes} (h : listing? bs = some ks) (hread : read bs = .ok keys) :
    keys.get kid = .ok key ↔ ∃ k, lastListed? kid ks = some k ∧ k.Spells key.bytes := by
  obtain ⟨ks', hks, hfold⟩ := read_eq_ok_iff.1 hread
  obtain rfl := Option.some.inj (h.symm.trans hks)
  rw [get_of_foldlM_addJwk hfold]
  simp only [← Jwk.publicKey_eq_ok_iff]
  cases lastListed? kid ks <;> simp [get, empty]

/-- A set is what its names stand for: it is written from that alone, in the order of the bytes of the
names, and read from what was written. A listing is read when each of its Ed25519 keys has a name and
spells a point; then the last key of a name holds, and the keys of other kinds count for nothing. -/
theorem document_stands_for :
    (∀ s : KeySet, (∀ kid key, s.get kid = .ok key → kid ≠ "") →
      ∀ text ∈ Seal.texts s.toJson, read (Utf8.ofString text) = .ok s) ∧
    (∀ bs s, read bs = .ok s → ∀ kid key, s.get kid = .ok key → kid ≠ "") ∧
    (∀ s s' : KeySet, (∀ kid key, s.get kid = .ok key ↔ s'.get kid = .ok key) →
      s = s' ∧ s.toJson = s'.toJson) ∧
    (∀ (s : KeySet) (l : List (String × PublicKey)), s.IsListedBy l →
      s.toJson = document (sortByName l) ∧
        (sortByName l).Pairwise fun a b => Utf8.ofString a.1 < Utf8.ofString b.1) ∧
    (∀ (l : List (String × PublicKey)) kid key,
      (empty.insertAll l).get kid = .ok key ↔ l.reverse.lookup kid = some key) ∧
    ∀ bs ks, listing? bs = some ks →
      ((∃ keys, read bs = .ok keys) ↔ ∀ k ∈ ks, k.isEd25519 = true →
        k.kid ≠ "" ∧ ∃ b, k.Spells b ∧ b.length = 32 ∧ ∃ point, Curve.Point.decode? b = some point) ∧
      (∀ keys, read bs = .ok keys → ∀ kid key, keys.get kid = .ok key ↔
        ∃ k, lastListed? kid ks = some k ∧ k.Spells key.bytes) ∧
      ∀ bs' ks', listing? bs' = some ks' → ks.filter Jwk.isEd25519 = ks'.filter Jwk.isEd25519 →
        read bs = read bs' := by
  refine ⟨?_, ?_, ?_, ?_, ?_, fun bs ks hks => ⟨exists_read_iff hks, ?_, ?_⟩⟩
  · intro s hnamed text ht
    have hnames : ∀ a ∈ s.keys, a.1 ≠ "" := fun a ha => hnamed a.1 a.2 (get_eq_ok_iff.2 ha)
    rw [read_document hnames ht, s.isListedBy_keys.insertAll_eq]
  · intro bs s hread kid key hkey
    obtain ⟨ks, -, hfold⟩ := read_eq_ok_iff.1 hread
    exact (collects_of_foldlM_addJwk hfold).ne_empty hkey
  · intro s s' h
    obtain rfl := ext_of_get h
    exact ⟨rfl, rfl⟩
  · intro s l hl
    rw [hl.sortByName_eq]
    exact ⟨rfl, s.sorted.imp Utf8.ofString_lt_ofString_iff.2⟩
  · intro l kid key
    rw [get_insertAll]
    cases l.reverse.lookup kid <;> simp [get, empty]
  · intro keys hread kid key
    exact get_read_iff hks hread
  · intro bs' ks' hks' hsame
    rw [read, ← listing?, hks, read, ← listing?, hks']
    dsimp only
    rw [← foldlM_addJwk_filter, hsame, foldlM_addJwk_filter]

section Padded

def paddedKey : Jwk := ⟨"OKP", "Ed25519", "k", "AQAAAAAAAAAAAAAAAAAAAAAAAAAAAAAAAAAAAAAAAAA=="⟩

def paddedText : String :=
  "\x7b\"keys\":[\x7b\"kty\":\"RSA\",\"x\":\"?\"\x7d,\x7b\"kid\":\"k\",\"kty\":\"OKP\"," ++
    "\"crv\":\"Ed25519\",\"x\":\"AQAAAAAAAAAAAAAAAAAAAAAAAAAAAAAAAAAAAAAAAAA==\"\x7d]\x7d"

theorem padded_key_read : ∃ keys key, read (Utf8.ofString paddedText) = .ok keys ∧
    keys.get "k" = .ok key ∧ key.bytes = 1 :: List.replicate 31 0 ∧
    ∀ text ∈ Seal.texts keys.toJson, read (Utf8.ofString text) = .ok keys := by
  obtain ⟨hagain, hnamed, -, -, -, hlisting⟩ := document_stands_for
  have hks : listing? (Utf8.ofString paddedText) = some [⟨"RSA", "", "", "?"⟩, paddedKey] := by
    decide +kernel
  have hspells : paddedKey.Spells (1 :: List.replicate 31 0) := ⟨2, by decide +kernel⟩
  have hpoint : ∃ point, Curve.Point.decode? (1 :: List.replicate 31 0) = some point :=
    Option.isSome_iff_exists.1 (by decide +kernel)
  obtain ⟨hexists, hget, -⟩ := hlisting _ _ hks
  have hkeys : ∀ k ∈ [⟨"RSA", "", "", "?"⟩, paddedKey], k.isEd25519 = true →
      k.kid ≠ "" ∧ ∃ b, k.Spells b ∧ b.length = 32 ∧ ∃ point, Curve.Point.decode? b = some point := by
    rw [List.forall_mem_cons, List.forall_mem_singleton]
    exact ⟨fun hkind => absurd hkind (by decide), fun _ => ⟨by decide, _, hspells, rfl, hpoint⟩⟩
  obtain ⟨keys, hread⟩ := hexists.2 hkeys
  obtain ⟨key, hbytes⟩ := PublicKey.exists_bytes_iff.2 ⟨rfl, hpoint⟩
  have hkey : keys.get "k" = .ok key :=
    (hget keys hread "k" key).2 ⟨paddedKey, by decide, hbytes.symm ▸ hspells⟩
  exact ⟨keys, key, hread, hkey, hbytes, hagain keys (hnamed _ _ hread)⟩

end Padded

end KeySet

end CorridorTrust
