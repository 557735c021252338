import CorridorTrust.Proofs.Evidence.KeyListing
import CorridorTrust.Proofs.Service.Reloading

namespace CorridorTrust

open Json (Value)
open Time (Instant)

namespace Settings

variable {t : FileTree} {settings : Settings}

lemma readKeys_eq_ok_iff {path : String} {bs : Bytes} {keys : KeySet} :
    readKeys path bs = .ok keys ↔ KeySet.read bs = .ok keys ∧ 0 < keys.size := by
  rw [readKeys, Sequence.bind_eq_ok_iff]
  constructor
  · rintro ⟨read, hread, hsize⟩
    split_ifs at hsize with hzero
    obtain rfl := Except.ok.inj hsize
    exact ⟨hread, Nat.pos_of_ne_zero hzero⟩
  · rintro ⟨hread, hsize⟩
    exact ⟨keys, hread, if_neg hsize.ne'⟩

lemma exists_of_loadKeys {k : Value × Verifier} (hkind : settings.verifier = .ed25519)
    (h : settings.loadKeys t = .ok k) :
    ∃ bs keys, t.read settings.keysPath = .ok bs ∧ Value.read? bs = some k.1 ∧
      KeySet.read bs = .ok keys ∧ 0 < keys.size ∧ k.2 = .ed25519 keys := by
  rw [loadKeys, hkind] at h
  cases hfile : t.read settings.keysPath with
  | error fault => cases fault <;> rw [hfile] at h <;> cases h
  | ok bs =>
    rw [hfile] at h
    dsimp only at h
    cases hdocument : Value.read? bs with
    | none =>
      rw [hdocument] at h
      cases h
    | some document =>
      rw [hdocument] at h
      obtain ⟨keys, hkeys, hk⟩ := Sequence.bind_eq_ok_iff.1 h
      obtain rfl := Except.ok.inj hk
      obtain ⟨hread, hsize⟩ := readKeys_eq_ok_iff.1 hkeys
      exact ⟨bs, keys, rfl, hdocument, hread, hsize, rfl⟩

end Settings

namespace Service

/-- Of the published document every text is read as the set that verifies, for ever; the set has the keys
that the file listed last under their names, and at least one. -/
theorem keys_published {t : FileTree} {settings : Settings} {s₀ : Service}
    (hopen : openWith t settings = .ok s₀) (hkind : settings.verifier = .ed25519)
    (events : List Event) :
    let s := (run (t, s₀) events).2
    ∃ bs keys listed, t.read settings.keysPath = .ok bs ∧ Value.read? bs = some s₀.keys ∧
      KeySet.listing? bs = some listed ∧
      (s₀.verifier = .ed25519 keys ∧ s.verifier = .ed25519 keys ∧ s.keys = s₀.keys) ∧
      (∀ text ∈ Seal.texts s.keys, KeySet.listing? (Utf8.ofString text) = some listed ∧
        KeySet.read (Utf8.ofString text) = .ok keys) ∧
      keys.Collects listed ∧ 0 < keys.size ∧
      ∀ kid key, keys.get kid = .ok key → kid ≠ "" ∧ key.bytes.length = 32 := by
  intro s
  obtain ⟨snapshot, k, -, hkeys, rfl⟩ := openWith_eq_ok_iff.1 hopen
  obtain ⟨-, hverifier, hdocument⟩ :
      s.settings = settings ∧ s.verifier = k.2 ∧ s.keys = k.1 := fixed_run _ events
  obtain ⟨bs, keys, hfile, hvalue, hread, hsize, hk⟩ := Settings.exists_of_loadKeys hkind hkeys
  obtain ⟨listed, hlisted, hfold⟩ := KeySet.read_eq_ok_iff.1 hread
  have hcollects := KeySet.collects_of_foldlM_addJwk hfold
  refine ⟨bs, keys, listed, hfile, hvalue, hlisted, ⟨hk, hverifier.trans hk, hdocument⟩, ?_,
    hcollects, hsize, fun kid key hkey => ⟨hcollects.ne_empty hkey, key.size⟩⟩
  rw [hdocument]
  intro text htext
  have hagain := KeySet.listing?_of_mem_texts hvalue hlisted htext
  exact ⟨hagain, KeySet.read_eq_ok_iff.2 ⟨listed, hagain, hfold⟩⟩

section Listed

def keysText : String :=
  "\x7b\"note\":1,\"keys\":[\x7b\"kty\":\"RSA\",\"n\":[]\x7d,\x7b\"kid\":\"k\",\"kty\":\"OKP\"," ++
    "\"crv\":\"Ed25519\",\"x\":\"AQAAAAAAAAAAAAAAAAAAAAAAAAAAAAAAAAAAAAAAAAA\"\x7d," ++
    "[\"OKP\",\"Ed25519\",\"k\",\"O2onvM62pC1io6jQKm8Nc2UyFXcd4kOmOsBIoYtZ2ik\"]],\"note\":1e-7\x7d"

def keyedFiles : FileTree := singleFiles.write "static/tokens/jwks.json" (Utf8.ofString keysText)

def keyedSettings : Settings := { singleSettings with verifier := .ed25519 }

theorem last_key_published : ∃ s₀ keys, openWith keyedFiles keyedSettings = .ok s₀ ∧
    (run (keyedFiles, s₀) [.files FileTree.empty, .reload, .bump]).2.verifier = .ed25519 keys ∧
    keys.get "k" = .ok Snapshot.issuer ∧
    ∀ text ∈ Seal.texts s₀.keys, KeySet.read (Utf8.ofString text) = .ok keys := by
  have hopen : (openWith keyedFiles keyedSettings).toBool = true := by decide +kernel
  have hfile : keyedFiles.read keyedSettings.keysPath = .ok (Utf8.ofString keysText) := by
    decide +kernel
  obtain ⟨s₀, h⟩ := Sequence.exists_of_toBool hopen
  obtain ⟨bs, keys, listed, hbs, -, hlisted, ⟨-, hverifier, hdocument⟩, htexts, hcollects, -⟩ :=
    keys_published h rfl [.files FileTree.empty, .reload, .bump]
  obtain rfl := Except.ok.inj (hfile.symm.trans hbs)
  have hlast : (KeySet.listing? (Utf8.ofString keysText)).bind (KeySet.lastListed? "k") =
      some (Jwk.ofBytes "k" Snapshot.issuer.bytes) := by decide +kernel
  have hkey : (Jwk.ofBytes "k" Snapshot.issuer.bytes).publicKey = .ok Snapshot.issuer := by
    decide +kernel
  rw [hlisted, Option.bind_some] at hlast
  have hkid := hcollects "k"
  rw [hlast] at hkid
  obtain ⟨-, key, hkey', hget⟩ := hkid
  rw [hkey] at hkey'
  obtain rfl := Except.ok.inj hkey'
  rw [hdocument] at htexts
  exact ⟨s₀, keys, h, hverifier, hget, fun text ht => (htexts text ht).2⟩

end Listed

end Service

end CorridorTrust
