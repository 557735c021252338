import CorridorTrust.Proofs.Json.Legible

namespace CorridorTrust.Json

open Utf8 (Symbol)

namespace Token

def Ends (s : List Symbol) : Prop := ∀ c, s.head? = some (some c) → isNumeralChar c = false

variable {s : List Symbol} {cs : List Char}

lemma ends_cons {c : Char} (hc : isNumeralChar c = false) (s : List Symbol) : Ends (some c :: s) := by
  rintro _ ⟨⟩
  exact hc

lemma isSpace_iff {c : Char} : isSpace c = true ↔ c = ' ' ∨ c = '\t' ∨ c = '\n' ∨ c = '\r' := by
  simp [isSpace]

lemma isNumeralChar_of_isSpace {c : Char} (h : isSpace c = true) : isNumeralChar c = false := by
  rcases isSpace_iff.1 h with rfl | rfl | rfl | rfl <;> decide

lemma scanFrom_held (h : Ends s) (held : List Char) : scanFrom s held =
    (flush held).bind fun before => (scanFrom s []).map (before ++ ·) := by
  have hflush : flush [] = some [] := rfl
  rw [scanFrom.eq_def, scanFrom.eq_def s []]
  split
  case h_5 c s _ _ _ =>
    have hc : ¬isNumeralChar c = true := by simp [h c rfl]
    simp only [if_neg hc, hflush]
    cases flush held <;> cases scanFrom s [] <;> cases scanString s [] <;> cases punctuation? c <;>
      simp <;> split_ifs <;> rfl
  case h_1 => cases flush held <;> simp [hflush]
  case h_6 => cases flush held <;> rfl
  all_goals
    simp only [hflush]
    cases flush held <;> simp

lemma scanFrom_token {t : Token} (ht : t.IsProper) (hn : t.isNumber = false) (s : List Symbol) :
    scanFrom (t.write.map some ++ s) [] = (scanFrom s []).map (t :: ·) :=
  scanFrom_write ht hn s []

lemma scanFrom_glyph {t : Token} {c : Char} (hc : t.write = [c]) (ht : t.IsProper)
    (hn : t.isNumber = false) (s : List Symbol) :
    scanFrom (some c :: s) [] = (scanFrom s []).map (t :: ·) := by
  have htoken := scanFrom_token ht hn s
  rwa [hc] at htoken

lemma scanFrom_number {n : Numeral} (hn : n.IsProper) (hs : Ends s) :
    scanFrom (n.write.map some ++ s) [] = (scanFrom s []).map (.number n :: ·) := by
  rw [scanFrom_numeral fun c hc => Numeral.isNumeralChar_of_mem_write hn hc, List.append_nil,
    scanFrom_held hs, flush_write hn]
  rfl

lemma scanFrom_space {c : Char} (h : isSpace c = true) (s : List Symbol) :
    scanFrom (some c :: s) [] = scanFrom s [] := by
  rcases isSpace_iff.1 h with rfl | rfl | rfl | rfl <;>
    simp [scanFrom, isNumeralChar, isSpace, flush]

lemma scanFrom_spaces (h : ∀ c ∈ cs, isSpace c = true) (s : List Symbol) :
    scanFrom (cs.map some ++ s) [] = scanFrom s [] := by
  induction cs with
  | nil => rfl
  | cons c cs ih =>
    rw [List.map_cons, List.cons_append, scanFrom_space (h c List.mem_cons_self),
      ih fun d hd => h d (List.mem_cons_of_mem _ hd)]

end Token

namespace Value

open Token (Ends scanFrom scanFrom_token scanFrom_glyph)

lemma scanFrom_newline (level : ℕ) (s : List Symbol) :
    scanFrom ((newline level).map some ++ s) [] = scanFrom s [] := by
  refine Token.scanFrom_spaces (fun c hc => ?_) s
  rcases List.mem_cons.1 hc with rfl | hc
  · rfl
  · rw [List.eq_of_mem_replicate hc]
    rfl

def Scans (v : Value) : Prop := ∀ level s, Ends s →
  scanFrom ((indentedChars level v).map some ++ s) [] = (scanFrom s []).map (v.tokens ++ ·)

variable {es : List Value} {ms : Members}

lemma ends_indentedElements (level : ℕ) (es : List Value) (s : List Symbol) :
    Ends ((indentedElements level es).map some ++ s) := by
  cases es <;> exact Token.ends_cons rfl _

lemma ends_indentedMembers (level : ℕ) (ms : Members) (s : List Symbol) :
    Ends ((indentedMembers level ms).map some ++ s) := by
  cases ms <;> exact Token.ends_cons rfl _

lemma scanFrom_indentedElements (h : ∀ v ∈ es, Scans v) (level : ℕ) (s : List Symbol) :
    scanFrom ((indentedElements level es).map some ++ s) [] =
      (scanFrom s []).map (elementTokens es ++ ·) := by
  induction es with
  | nil =>
    rw [indentedElements, List.map_append, List.append_assoc, scanFrom_newline]
    exact scanFrom_token (t := .rightBracket) trivial rfl s
  | cons v es ih =>
    have hv := h v List.mem_cons_self (level + 1) _ (ends_indentedElements level es s)
    have hes := ih fun w hw => h w (List.mem_cons_of_mem _ hw)
    simp only [indentedElements, List.cons_append, List.map_cons, List.map_append, List.append_assoc]
    rw [scanFrom_glyph (t := .comma) rfl trivial rfl, scanFrom_newline, hv, hes]
    simp [elementTokens, Function.comp_def]

lemma scanFrom_member {v : Value} (hv : Scans v) (k : String) (level : ℕ) {s : List Symbol}
    (hs : Ends s) : scanFrom ((writeString k).map some ++
        (some ':' :: some ' ' :: ((indentedChars level v).map some ++ s))) [] =
      (scanFrom s []).map fun ts => .string (some k) :: .colon :: (v.tokens ++ ts) := by
  have hkey := scanFrom_token (t := .string (some k)) rfl rfl
  refine (hkey _).trans ?_
  rw [scanFrom_glyph (t := .colon) rfl trivial rfl, Token.scanFrom_space rfl, hv level s hs]
  simp [Function.comp_def]

lemma scanFrom_indentedMembers (h : ∀ m ∈ ms, Scans m.2) (level : ℕ) (s : List Symbol) :
    scanFrom ((indentedMembers level ms).map some ++ s) [] =
      (scanFrom s []).map (memberTokens ms ++ ·) := by
  induction ms with
  | nil =>
    rw [indentedMembers, List.map_append, List.append_assoc, scanFrom_newline]
    exact scanFrom_token (t := .rightBrace) trivial rfl s
  | cons m ms ih =>
    obtain ⟨k, v⟩ := m
    have hv := scanFrom_member (h _ List.mem_cons_self) k (level + 1) (ends_indentedMembers level ms s)
    have hms := ih fun a ha => h a (List.mem_cons_of_mem _ ha)
    simp only [indentedMembers, List.cons_append, List.map_cons, List.map_append, List.append_assoc,
      List.nil_append]
    rw [scanFrom_glyph (t := .comma) rfl trivial rfl, scanFrom_newline, hv, hms]
    simp [memberTokens, Function.comp_def]

lemma scans_of_token {v : Value} {t : Token} (htokens : v.tokens = [t]) (ht : t.IsProper)
    (hn : t.isNumber = false) (hchars : ∀ level, indentedChars level v = compactChars v) : Scans v := by
  intro level s _
  rw [hchars, compactChars, htokens, List.flatMap_singleton, scanFrom_token ht hn]
  rfl

theorem IsRegular.scans {v : Value} (h : v.IsRegular) : Scans v := by
  induction h with
  | null => exact scans_of_token (t := .null) rfl trivial rfl fun _ => rfl
  | bool b => exact scans_of_token (t := .bool b) rfl trivial rfl fun _ => rfl
  | string s => exact scans_of_token (t := .string (some s)) rfl rfl rfl fun _ => rfl
  | @number n hn =>
    intro level s hs
    have hchars : indentedChars level (.number n) = n.numeral.write := List.append_nil _
    rw [hchars, Token.scanFrom_number (Number.isProper_numeral hn) hs]
    rfl
  | @array es _ ih =>
    intro level s hs
    cases es with
    | nil =>
      have hchars : indentedChars level (.array []) = ['[', ']'] := rfl
      rw [hchars, List.map_cons, List.cons_append, scanFrom_glyph (t := .leftBracket) rfl trivial rfl,
        List.map_cons, List.cons_append, scanFrom_glyph (t := .rightBracket) rfl trivial rfl]
      simp [tokens, Function.comp_def]
    | cons v es =>
      have hv := ih v List.mem_cons_self (level + 1) _ (ends_indentedElements level es s)
      have hes := scanFrom_indentedElements (fun w hw => ih w (List.mem_cons_of_mem _ hw)) level s
      simp only [indentedChars, List.cons_append, List.map_cons, List.map_append, List.append_assoc]
      rw [scanFrom_glyph (t := .leftBracket) rfl trivial rfl, scanFrom_newline, hv, hes]
      simp [tokens, Function.comp_def]
  | @object ms _ ih =>
    intro level s hs
    cases ms with
    | nil =>
      have hchars : indentedChars level (.object []) = ['\x7b', '\x7d'] := rfl
      rw [hchars, List.map_cons, List.cons_append, scanFrom_glyph (t := .leftBrace) rfl trivial rfl,
        List.map_cons, List.cons_append, scanFrom_glyph (t := .rightBrace) rfl trivial rfl]
      simp [tokens, Function.comp_def]
    | cons m ms =>
      obtain ⟨k, v⟩ := m
      have hv := scanFrom_member (ih _ List.mem_cons_self) k (level + 1)
        (ends_indentedMembers level ms s)
      have hms := scanFrom_indentedMembers (fun a ha => ih a (List.mem_cons_of_mem _ ha)) level s
      simp only [indentedChars, List.cons_append, List.map_cons, List.map_append, List.append_assoc,
        List.nil_append]
      rw [scanFrom_glyph (t := .leftBrace) rfl trivial rfl, scanFrom_newline, hv, hms]
      simp [tokens, Function.comp_def]

theorem scan?_indented {v : Value} (h : v.IsRegular) (tail : String)
    (htail : ∀ c ∈ tail.toList, Token.isSpace c = true) :
    Token.scan? (Utf8.ofString (v.indented ++ tail)) = some v.tokens := by
  have hends : Ends (tail.toList.map some) := by
    intro c hc
    rw [List.head?_map] at hc
    obtain ⟨d, hd, hdc⟩ := Option.map_eq_some_iff.1 hc
    obtain rfl : d = c := Option.some.inj hdc
    exact Token.isNumeralChar_of_isSpace (htail d (List.mem_of_mem_head? hd))
  have hspaces : scanFrom (tail.toList.map some) [] = some [] := by
    have hscan := Token.scanFrom_spaces htail []
    rwa [List.append_nil] at hscan
  rw [Token.scan?, Utf8.ofString, Utf8.scan_encode, indented, String.toList_append,
    String.toList_ofList, List.map_append, h.scans 0 _ hends, hspaces, Option.map_some,
    List.append_nil]

end Value

end CorridorTrust.Json
