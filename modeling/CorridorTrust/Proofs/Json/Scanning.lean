import CorridorTrust.Json.Printer
import CorridorTrust.Proofs.Json.Numeral
import CorridorTrust.Proofs.Text.Utf8

namespace CorridorTrust.Json

open Utf8 (Symbol)

section Strings

def pieceOf (c : Char) : Piece :=
  if c.toNat < 0x20 ∧ c ≠ '\x08' ∧ c ≠ '\x0c' ∧ c ≠ '\n' ∧ c ≠ '\r' ∧ c ≠ '\t' then .unit c.toNat
  else .char c

lemma text?_unit {n : ℕ} (hhigh : Piece.isHigh n = false) (hlow : Piece.isLow n = false)
    (ps : List Piece) : Piece.text? (.unit n :: ps) = (Piece.text? ps).map (Char.ofNat n :: ·) := by
  cases ps with
  | nil => simp [Piece.text?, hhigh, hlow]
  | cons q ps => cases q <;> simp [Piece.text?, hhigh, hlow]

lemma text?_pieces (cs : List Char) : Piece.text? (cs.map pieceOf) = some cs := by
  induction cs with
  | nil => rfl
  | cons c cs ih =>
    rw [List.map_cons]
    by_cases hc : c.toNat < 0x20 ∧ c ≠ '\x08' ∧ c ≠ '\x0c' ∧ c ≠ '\n' ∧ c ≠ '\r' ∧ c ≠ '\t'
    · have hpiece : pieceOf c = .unit c.toNat := if_pos hc
      have hhigh : Piece.isHigh c.toNat = false := by simp [Piece.isHigh]; omega
      have hlow : Piece.isLow c.toNat = false := by simp [Piece.isLow]; omega
      rw [hpiece, text?_unit hhigh hlow, ih, Option.map_some, Char.ofNat_toNat]
    · have hpiece : pieceOf c = .char c := if_neg hc
      rw [hpiece, Piece.text?, ih, Option.map_some]

lemma unit?_digits {n : ℕ} (h : n < 0x20) :
    Token.unit? (some '0') (some '0') (some (Nat.digitChar (n / 16)))
      (some (Nat.digitChar (n % 16))) = some n := by
  interval_cases n <;> decide

lemma scanString_escapeChar (c : Char) (s : List Symbol) (ps : List Piece) :
    Token.scanString ((escapeChar c).map some ++ s) ps = Token.scanString s (pieceOf c :: ps) := by
  rw [escapeChar]
  split_ifs with h₁ h₂ h₃ h₄ h₅ h₆ h₇ h₈
  · subst h₁; simp [Token.scanString, Token.escape?, pieceOf]
  · subst h₂; simp [Token.scanString, Token.escape?, pieceOf]
  · subst h₃; simp [Token.scanString, Token.escape?, pieceOf]
  · subst h₄; simp [Token.scanString, Token.escape?, pieceOf]
  · subst h₅; simp [Token.scanString, Token.escape?, pieceOf]
  · subst h₆; simp [Token.scanString, Token.escape?, pieceOf]
  · subst h₇; simp [Token.scanString, Token.escape?, pieceOf]
  · have hpiece : pieceOf c = .unit c.toNat := if_pos ⟨h₈, h₃, h₄, h₅, h₆, h₇⟩
    simp [Token.scanString, unit?_digits h₈, hpiece]
  · have hpiece : pieceOf c = .char c := if_neg fun h => h₈ h.1
    simp [Token.scanString, h₁, h₂, h₈, hpiece]

lemma scanString_flatMap_escapeChar (cs : List Char) (s : List Symbol) (ps : List Piece) :
    Token.scanString ((cs.flatMap escapeChar).map some ++ s) ps =
      Token.scanString s ((cs.map pieceOf).reverse ++ ps) := by
  induction cs generalizing ps with
  | nil => rfl
  | cons c cs ih =>
    rw [List.flatMap_cons, List.map_append, List.append_assoc, scanString_escapeChar, ih]
    simp

end Strings

namespace Token

def IsProper : Token → Prop
  | .number n => n.IsProper
  | .string s => s.isSome
  | _ => True

def isNumber : Token → Bool
  | .number _ => true
  | _ => false

variable {t : Token} {s : List Symbol} {held : List Char}

lemma scanFrom_write (ht : t.IsProper) (hn : t.isNumber = false) (s : List Symbol)
    (held : List Char) : scanFrom (t.write.map some ++ s) held =
      (flush held).bind fun before => (scanFrom s []).map (before ++ t :: ·) := by
  cases t with
  | number n => cases hn
  | string text =>
    obtain ⟨text, rfl⟩ := Option.isSome_iff_exists.1 ht
    have hpieces := text?_pieces text.toList
    have hwrite : (write (.string (some text))).map some ++ s =
        some '"' :: ((text.toList.flatMap escapeChar).map some ++ some '"' :: s) := by
      simp [write, writeString]
    have hclose : scanString (some '"' :: s) (text.toList.map pieceOf).reverse =
        (scanFrom s []).map (.string (some text) :: ·) := by
      simp [scanString, text?_pieces]
    rw [hwrite]
    simp [scanFrom, isNumeralChar, isSpace, scanString_flatMap_escapeChar, hclose]
    cases flush held <;> cases scanFrom s [] <;> rfl
  | bool b =>
    cases b <;> simp only [write, List.map_cons, List.map_nil, List.cons_append, List.nil_append,
      scanFrom] <;> cases flush held <;> cases scanFrom s [] <;> rfl
  | null =>
    simp only [write, List.map_cons, List.map_nil, List.cons_append, List.nil_append, scanFrom]
    cases flush held <;> cases scanFrom s [] <;> rfl
  | _ =>
    simp [write, scanFrom, isNumeralChar, isSpace, punctuation?]
    cases flush held <;> cases scanFrom s [] <;> rfl

lemma scanFrom_numeral {cs : List Char} (h : ∀ c ∈ cs, isNumeralChar c = true) (s : List Symbol)
    (held : List Char) : scanFrom (cs.map some ++ s) held = scanFrom s (cs.reverse ++ held) := by
  induction cs generalizing held with
  | nil => rfl
  | cons c cs ih =>
    have hc : isNumeralChar c = true := h c List.mem_cons_self
    have hstep : scanFrom (some c :: (cs.map some ++ s)) held =
        scanFrom (cs.map some ++ s) (c :: held) := by
      rw [scanFrom, if_pos hc]
      · rintro _ - rfl
        exact absurd hc (by decide)
      · rintro _ - rfl
        exact absurd hc (by decide)
      · rintro _ - rfl
        exact absurd hc (by decide)
    rw [List.map_cons, List.cons_append, hstep, ih fun d hd => h d (List.mem_cons_of_mem _ hd)]
    simp

lemma flush_write {n : Numeral} (h : n.IsProper) :
    flush n.write.reverse = some [.number n] := by
  rw [flush, if_neg (by simpa using Numeral.write_ne_nil h), List.reverse_reverse,
    Numeral.read?_write h]
  rfl

lemma newline_not_mem_escapeChar (c : Char) : '\n' ∉ escapeChar c := by
  rw [escapeChar]
  split_ifs with _ _ _ _ hnewline
  case neg => simpa [eq_comm] using hnewline
  all_goals simp

lemma newline_not_mem_write {t : Token} (ht : t.IsProper) : '\n' ∉ t.write := by
  cases t with
  | number n => exact fun h => absurd (Numeral.isNumeralChar_of_mem_write ht h) (by decide)
  | string s => simp [write, writeString, newline_not_mem_escapeChar]
  | bool b => cases b <;> simp [write]
  | _ => simp [write]

def IsSeparated (ts : List Token) : Prop :=
  ts.IsChain fun a b => a.isNumber = true → b.isNumber = false

lemma scanFrom_flatMap_write {ts before : List Token} (hproper : ∀ t ∈ ts, t.IsProper)
    (hts : IsSeparated ts) (hheld : flush held = some before)
    (hhead : held ≠ [] → ∀ t, ts.head? = some t → t.isNumber = false) :
    scanFrom ((ts.flatMap write).map some) held = some (before ++ ts) := by
  induction ts generalizing held before with
  | nil =>
    rw [List.append_nil, ← hheld]
    rfl
  | cons t ts ih =>
    have hproper' : ∀ u ∈ ts, u.IsProper := fun u hu => hproper u (List.mem_cons_of_mem _ hu)
    have ht : t.IsProper := hproper t List.mem_cons_self
    have hts' : IsSeparated ts := hts.tail
    rw [List.flatMap_cons, List.map_append]
    cases hnumber : t.isNumber with
    | false =>
      rw [scanFrom_write ht hnumber, hheld, ih hproper' hts' rfl (by simp)]
      rfl
    | true =>
      have hnil : held = [] := by
        by_contra hne
        rw [hhead hne t rfl] at hnumber
        cases hnumber
      subst hnil
      obtain rfl : [] = before := by simpa [flush] using hheld
      cases t with
      | number n =>
        rw [write, scanFrom_numeral fun c hc => Numeral.isNumeralChar_of_mem_write ht hc,
          List.append_nil, ih hproper' hts' (flush_write ht)]
        · rfl
        · intro _ u hu
          exact (List.isChain_cons.1 hts).1 u hu rfl
      | _ => cases hnumber

theorem scan?_write {ts : List Token} (hproper : ∀ t ∈ ts, t.IsProper) (hts : IsSeparated ts) :
    scan? (Utf8.ofString (String.ofList (ts.flatMap write))) = some ts := by
  rw [scan?, Utf8.ofString, String.toList_ofList, Utf8.scan_encode,
    scanFrom_flatMap_write hproper hts rfl (by simp), List.nil_append]

end Token

end CorridorTrust.Json
