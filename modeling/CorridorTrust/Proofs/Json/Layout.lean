import CorridorTrust.Proofs.Json.Indentation

namespace CorridorTrust.Json

open Utf8 (Symbol)

namespace Token

inductive Spells (c : Char) : List Char → Prop
  | plain (hcontrol : ¬c.toNat < 0x20) (hquote : c ≠ '"') (hbackslash : c ≠ '\\') : Spells c [c]
  | escape {e : Char} (h : escape? e = some c) : Spells c ['\\', e]
  | unit {p q r s : Char} {n : ℕ} (h : unit? p q r s = some n) (hhigh : Piece.isHigh n = false)
      (hlow : Piece.isLow n = false) (hc : Char.ofNat n = c) : Spells c ['\\', 'u', p, q, r, s]
  | pair {p q r s p' q' r' s' : Char} {m n : ℕ} (h : unit? p q r s = some m)
      (h' : unit? p' q' r' s' = some n) (hhigh : Piece.isHigh m = true) (hlow : Piece.isLow n = true)
      (hc : Char.ofNat (0x10000 + (m - 0xD800) * 0x400 + (n - 0xDC00)) = c) :
      Spells c ['\\', 'u', p, q, r, s, '\\', 'u', p', q', r', s']

variable {c : Char} {cs text : List Char} {t : Token} {ts : List Token} {spellings : List (List Char)}

lemma exists_pieces_of_spells (h : Spells c cs) : ∃ pieces,
    (∀ s ps, scanString (cs.map some ++ s) ps = scanString s (pieces.reverse ++ ps)) ∧
      ∀ ps, Piece.text? (pieces ++ ps) = (Piece.text? ps).map (c :: ·) := by
  cases h with
  | plain hcontrol hquote hbackslash =>
    refine ⟨[.char c], fun s ps => ?_, fun ps => rfl⟩
    simp [scanString, hcontrol, hquote, hbackslash]
  | @escape e h =>
    have hu : e ≠ 'u' := by
      rintro rfl
      cases h
    refine ⟨[.char c], fun s ps => ?_, fun ps => rfl⟩
    simp [scanString, h, hu]
  | @unit p q r s n h hhigh hlow hc =>
    subst hc
    refine ⟨[.unit n], fun s ps => ?_, text?_unit hhigh hlow⟩
    simp [scanString, h]
  | @pair p q r s p' q' r' s' m n h h' hhigh hlow hc =>
    subst hc
    refine ⟨[.unit m, .unit n], fun s ps => ?_, fun ps => ?_⟩
    · simp [scanString, h, h']
    · simp [Piece.text?, hhigh, hlow]

lemma exists_pieces (h : List.Forall₂ Spells text spellings) : ∃ pieces,
    (∀ s ps, scanString (spellings.flatten.map some ++ s) ps = scanString s (pieces.reverse ++ ps)) ∧
      Piece.text? pieces = some text := by
  induction h with
  | nil => exact ⟨[], fun _ _ => rfl, rfl⟩
  | @cons c cs text spellings hc _ ih =>
    obtain ⟨first, hscan, htext⟩ := exists_pieces_of_spells hc
    obtain ⟨rest, hscan', htext'⟩ := ih
    refine ⟨first ++ rest, fun s ps => ?_, by rw [htext, htext', Option.map_some]⟩
    rw [List.flatten_cons, List.map_append, List.append_assoc, hscan, hscan', List.reverse_append,
      List.append_assoc]

inductive IsSpelled : Token → List Char → Prop
  | string {s : String} {spellings : List (List Char)} (h : List.Forall₂ Spells s.toList spellings) :
      IsSpelled (.string (some s)) ('"' :: spellings.flatten ++ ['"'])
  | other {t : Token} (ht : t.IsProper) : IsSpelled t t.write

/-- The tokens are written one after the other, blanks before each and at the end; nothing goes on
with a numeral. -/
inductive IsLaidOut : List Token → List Char → Prop
  | nil {blanks : List Char} (hblanks : ∀ c ∈ blanks, isSpace c = true) : IsLaidOut [] blanks
  | cons {t : Token} {ts : List Token} {blanks cs rest : List Char}
      (hblanks : ∀ c ∈ blanks, isSpace c = true) (ht : IsSpelled t cs)
      (hend : t.isNumber = true → ∀ c, rest.head? = some c → isNumeralChar c = false)
      (h : IsLaidOut ts rest) : IsLaidOut (t :: ts) (blanks ++ cs ++ rest)

lemma scanFrom_of_isSpelled (h : IsSpelled t cs) (s : List Symbol)
    (hend : t.isNumber = true → Ends s) :
    scanFrom (cs.map some ++ s) [] = (scanFrom s []).map (t :: ·) := by
  cases h with
  | @string text spellings h =>
    obtain ⟨pieces, hscan, htext⟩ := exists_pieces h
    have hopen : scanFrom (('"' :: spellings.flatten ++ ['"']).map some ++ s) [] =
        scanString (spellings.flatten.map some ++ some '"' :: s) [] := by
      simp [scanFrom, isNumeralChar, isSpace, flush]
    rw [hopen, hscan]
    simp [scanString, htext]
  | other ht =>
    cases hnumber : t.isNumber with
    | false => exact scanFrom_token ht hnumber s
    | true =>
      cases t with
      | number n => exact scanFrom_number ht (hend hnumber)
      | _ => cases hnumber

lemma IsLaidOut.scanFrom_eq (h : IsLaidOut ts cs) : scanFrom (cs.map some) [] = some ts := by
  induction h with
  | nil hblanks => rw [← List.append_nil (List.map some _), scanFrom_spaces hblanks]; rfl
  | @cons t ts blanks cs rest hblanks ht hend _ ih =>
    have hends : t.isNumber = true → Ends (rest.map some) := by
      intro hnumber c hc
      rw [List.head?_map, Option.map_eq_some_iff] at hc
      obtain ⟨c, hc, ⟨⟩⟩ := hc
      exact hend hnumber c hc
    rw [List.map_append, List.map_append, List.append_assoc, scanFrom_spaces hblanks,
      scanFrom_of_isSpelled ht _ hends, ih, Option.map_some]

theorem IsLaidOut.scan? {text : String} (h : IsLaidOut ts text.toList) :
    scan? (Utf8.ofString text) = some ts := by
  rw [Token.scan?, Utf8.ofString, Utf8.scan_encode, h.scanFrom_eq]

end Token

end CorridorTrust.Json
