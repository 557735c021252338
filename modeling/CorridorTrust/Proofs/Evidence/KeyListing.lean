import CorridorTrust.Proofs.Evidence.Attachment
import CorridorTrust.Proofs.Json.Restating

namespace CorridorTrust

open Json (Value Tree)
open Ed25519 (PublicKey)

namespace Jwk

def isListedAs (kid : String) (k : Jwk) : Bool := k.isEd25519 && k.kid == kid

lemma survives_ofTree? : Tree.Survives ofTree? := by
  intro t u k htu h
  simp only [ofTree?, Option.bind_eq_bind, Option.bind_eq_some_iff] at h
  obtain ⟨fields, hfields, kty, hkty, crv, hcrv, kid, hkid, x, hx, hk⟩ := h
  obtain ⟨again, hagain, hrel⟩ := htu.fields? hfields
  have hkty' := Tree.survives_string?.required (hrel "kty" (by simp)) hkty
  have hcrv' := Tree.survives_string?.orElse (hrel "crv" (by simp)) hcrv
  have hkid' := Tree.survives_string?.orElse (hrel "kid" (by simp)) hkid
  have hx' := Tree.survives_string?.orElse (hrel "x" (by simp)) hx
  simp only [ofTree?, hagain, hkty', hcrv', hkid', hx', Option.bind_eq_bind, Option.bind_some]
  exact hk

end Jwk

namespace KeySet

variable {s s' keys : KeySet} {kid : String} {key : PublicKey} {k : Jwk} {ks : List Jwk}

lemma survives_documentOfTree? : Tree.Survives documentOfTree? := by
  intro t u ks htu h
  obtain ⟨fields, hfields, hks⟩ := Option.bind_eq_some_iff.1 h
  obtain ⟨again, hagain, hrel⟩ := htu.fields? hfields
  have hks' := (Jwk.survives_ofTree?.list?).required (hrel "keys" (by simp)) hks
  exact Option.bind_eq_some_iff.2 ⟨again, hagain, hks'⟩

lemma lookup_put_self (kid : String) (key : PublicKey) (l : List (String × PublicKey)) :
    (put kid key l).lookup kid = some key := by
  induction l with
  | nil => simp [put]
  | cons a l ih =>
    obtain ⟨k, v⟩ := a
    rw [put]
    split_ifs with hlt heq
    · simp
    · simp
    · have hne : (kid == k) = false := by simpa using heq
      rw [List.lookup_cons, hne]
      exact ih

lemma lookup_put_of_ne {name : String} (h : name ≠ kid) (key : PublicKey)
    (l : List (String × PublicKey)) : (put kid key l).lookup name = l.lookup name := by
  have hne : (name == kid) = false := by simpa using h
  induction l with
  | nil => simp [put, List.lookup_cons, hne]
  | cons a l ih =>
    obtain ⟨k, v⟩ := a
    rw [put]
    split_ifs with hlt heq
    · rw [List.lookup_cons, hne]
    · subst heq
      simp [List.lookup_cons, hne]
    · rw [List.lookup_cons, List.lookup_cons, ih]

lemma get_insert_self (s : KeySet) (kid : String) (key : PublicKey) :
    (s.insert kid key).get kid = .ok key := by
  rw [get, insert, lookup_put_self]

lemma get_insert_of_ne {name : String} (h : name ≠ kid) (s : KeySet) (key : PublicKey) :
    (s.insert kid key).get name = s.get name := by
  rw [get, insert, lookup_put_of_ne h, get]

lemma addJwk_eq_ok_iff : s.addJwk k = .ok s' ↔
    (k.isEd25519 = false ∧ s' = s) ∨
      (k.isEd25519 = true ∧ k.kid ≠ "" ∧ ∃ key, k.publicKey = .ok key ∧ s' = s.insert k.kid key) := by
  rw [addJwk]
  cases k.isEd25519 with
  | false => simpa using eq_comm
  | true =>
    by_cases hname : k.kid = ""
    · simp [hname]
    · cases k.publicKey <;> simp [hname, pure, Except.pure, eq_comm]

def lastListed? (kid : String) (ks : List Jwk) : Option Jwk :=
  (ks.filter (Jwk.isListedAs kid)).getLast?

lemma lastListed?_cons_of_pos (h : k.isListedAs kid = true) (ks : List Jwk) :
    lastListed? kid (k :: ks) = some ((lastListed? kid ks).getD k) := by
  rw [lastListed?, List.filter_cons_of_pos h, List.getLast?_cons, lastListed?]

lemma lastListed?_cons_of_neg (h : ¬k.isListedAs kid = true) (ks : List Jwk) :
    lastListed? kid (k :: ks) = lastListed? kid ks := by
  rw [lastListed?, List.filter_cons_of_neg h, lastListed?]

lemma get_of_addJwk (h : s.addJwk k = .ok s') (kid : String) :
    s'.get kid = if k.isListedAs kid then k.publicKey else s.get kid := by
  rw [Jwk.isListedAs]
  rcases addJwk_eq_ok_iff.1 h with ⟨hkind, rfl⟩ | ⟨hkind, -, key, hkey, rfl⟩
  · simp [hkind]
  · by_cases hname : k.kid = kid
    · rw [← hname, get_insert_self, hkey]
      simp [hkind]
    · rw [get_insert_of_ne (Ne.symm hname)]
      simp [hkind, hname]

lemma get_of_foldlM_addJwk (h : ks.foldlM addJwk s = .ok keys) (kid : String) :
    keys.get kid =
      match lastListed? kid ks with
      | none => s.get kid
      | some k => k.publicKey := by
  induction ks generalizing s with
  | nil =>
    obtain rfl := Except.ok.inj h
    rfl
  | cons k ks ih =>
    rw [List.foldlM_cons, Sequence.bind_eq_ok_iff] at h
    obtain ⟨s', hk, hks⟩ := h
    rw [ih hks, get_of_addJwk hk]
    -- a key under this name counts only when none of the later ones has it
    by_cases hlisted : k.isListedAs kid = true
    · rw [if_pos hlisted, lastListed?_cons_of_pos hlisted]
      cases lastListed? kid ks <;> rfl
    · rw [if_neg hlisted, lastListed?_cons_of_neg hlisted]

lemma publicKey_of_foldlM_addJwk (h : ks.foldlM addJwk s = .ok keys) :
    ∀ k ∈ ks, k.isEd25519 = true → k.kid ≠ "" ∧ ∃ key, k.publicKey = .ok key := by
  induction ks generalizing s with
  | nil => simp
  | cons k ks ih =>
    rw [List.foldlM_cons, Sequence.bind_eq_ok_iff] at h
    obtain ⟨s', hk, hks⟩ := h
    refine List.forall_mem_cons.2 ⟨fun hkind => ?_, ih hks⟩
    rcases addJwk_eq_ok_iff.1 hk with ⟨hother, -⟩ | ⟨-, hname, key, hkey, -⟩
    · rw [hkind] at hother
      cases hother
    · exact ⟨hname, key, hkey⟩

def Collects (keys : KeySet) (ks : List Jwk) : Prop :=
  ∀ kid, match lastListed? kid ks with
    | none => keys.get kid = .error (.unknownKey kid)
    | some k => kid ≠ "" ∧ ∃ key, k.publicKey = .ok key ∧ keys.get kid = .ok key

lemma collects_of_foldlM_addJwk (h : ks.foldlM addJwk empty = .ok keys) : keys.Collects ks := by
  intro kid
  have hget := get_of_foldlM_addJwk h kid
  cases hlast : lastListed? kid ks with
  | none => rwa [hlast] at hget
  | some k =>
    obtain ⟨hk, hlisted⟩ := List.mem_filter.1 (List.mem_of_getLast? hlast)
    obtain ⟨hkind, rfl⟩ : k.isEd25519 = true ∧ k.kid = kid := by simpa [Jwk.isListedAs] using hlisted
    obtain ⟨hname, key, hkey⟩ := publicKey_of_foldlM_addJwk h k hk hkind
    rw [hlast] at hget
    exact ⟨hname, key, hkey, hget.trans hkey⟩

lemma Collects.ne_empty (h : keys.Collects ks) (hkey : keys.get kid = .ok key) : kid ≠ "" := by
  have hkid := h kid
  cases hlast : lastListed? kid ks with
  | none =>
    rw [hlast, hkey] at hkid
    cases hkid
  | some k =>
    rw [hlast] at hkid
    exact hkid.1

def listing? (bs : Bytes) : Option (List Jwk) := (Tree.read? bs).bind documentOfTree?

lemma read_eq_ok_iff {bs : Bytes} :
    read bs = .ok keys ↔ ∃ ks, listing? bs = some ks ∧ ks.foldlM addJwk empty = .ok keys := by
  rw [read, ← listing?]
  cases listing? bs <;> simp

lemma listing?_of_mem_texts {bs : Bytes} {document : Value} (hdocument : Value.read? bs = some document)
    (hks : listing? bs = some ks) {text : String} (htext : text ∈ Seal.texts document) :
    listing? (Utf8.ofString text) = some ks := by
  obtain ⟨t, ht, hvalue⟩ := Option.bind_eq_some_iff.1 hdocument
  have hlisted : documentOfTree? t = some ks := by rwa [listing?, ht] at hks
  have hagain : Tree.read? (Utf8.ofString text) = some document.printedTree :=
    Tree.read?_of_scan?_tokens (Seal.scan?_of_mem_texts (Value.isRegular_of_read? hdocument) htext)
  rw [listing?, hagain]
  exact survives_documentOfTree? ⟨_, document, _, hvalue, rfl⟩ hlisted

end KeySet

end CorridorTrust
