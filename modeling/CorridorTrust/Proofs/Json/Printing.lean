import CorridorTrust.Proofs.Json.Regularity
import CorridorTrust.Proofs.Json.Scanning

/-!
Printed values. The compact text of a value scans to the value's tokens, and no two values made of
numbers of the format have the same tokens, so that none have the same text.
-/

namespace CorridorTrust.Json

namespace Value

section Tokens

open Token (IsProper IsSeparated)

def IsWritable (ts : List Token) : Prop :=
  (∀ t ∈ ts, t.IsProper) ∧ ∀ rest, IsSeparated rest →
    (∀ t, rest.head? = some t → t.isNumber = false) → IsSeparated (ts ++ rest)

lemma isWritable_nil : IsWritable [] := ⟨by simp, fun _ h _ => h⟩

lemma IsWritable.cons {t : Token} {ts : List Token} (ht : t.IsProper) (hn : t.isNumber = false)
    (h : IsWritable ts) : IsWritable (t :: ts) := by
  refine ⟨List.forall_mem_cons.2 ⟨ht, h.1⟩, fun rest hrest hhead => ?_⟩
  refine List.isChain_cons.2 ⟨fun u _ hnumber => ?_, h.2 rest hrest hhead⟩
  rw [hn] at hnumber
  cases hnumber

lemma IsWritable.append {ts us : List Token} (ht : IsWritable ts) (hu : IsWritable us)
    (hhead : ∀ u, us.head? = some u → u.isNumber = false) (hne : us ≠ []) : IsWritable (ts ++ us) := by
  refine ⟨fun t h => (List.mem_append.1 h).elim (ht.1 t) (hu.1 t), fun rest hrest hfirst => ?_⟩
  rw [List.append_assoc]
  refine ht.2 _ (hu.2 rest hrest hfirst) fun t h => hhead t ?_
  rwa [List.head?_append_of_ne_nil _ hne] at h

lemma head?_elementTokens {es : List Value} {t : Token} (h : (elementTokens es).head? = some t) :
    t.isNumber = false := by
  cases es with
  | nil =>
    obtain rfl : .rightBracket = t := by simpa [elementTokens] using h
    rfl
  | cons v es =>
    obtain rfl : .comma = t := by simpa [elementTokens] using h
    rfl

lemma head?_memberTokens {ms : Members} {t : Token} (h : (memberTokens ms).head? = some t) :
    t.isNumber = false := by
  cases ms with
  | nil =>
    obtain rfl : .rightBrace = t := by simpa [memberTokens] using h
    rfl
  | cons m ms =>
    obtain rfl : .comma = t := by simpa [memberTokens] using h
    rfl

lemma isWritable_elementTokens {es : List Value} (h : ∀ v ∈ es, IsWritable v.tokens) :
    IsWritable (elementTokens es) := by
  induction es with
  | nil => exact isWritable_nil.cons trivial rfl
  | cons v es ih =>
    rw [elementTokens, List.cons_append]
    refine .cons trivial rfl ?_
    exact (h v List.mem_cons_self).append (ih fun w hw => h w (List.mem_cons_of_mem _ hw))
      (fun _ => head?_elementTokens) (by cases es <;> simp [elementTokens])

lemma isWritable_memberTokens {ms : Members} (h : ∀ m ∈ ms, IsWritable m.2.tokens) :
    IsWritable (memberTokens ms) := by
  induction ms with
  | nil => exact isWritable_nil.cons trivial rfl
  | cons m ms ih =>
    rw [memberTokens, List.cons_append, List.cons_append, List.cons_append]
    refine .cons trivial rfl (.cons rfl rfl (.cons trivial rfl ?_))
    exact (h m List.mem_cons_self).append (ih fun a ha => h a (List.mem_cons_of_mem _ ha))
      (fun _ => head?_memberTokens) (by cases ms <;> simp [memberTokens])

lemma IsRegular.isWritable_tokens {v : Value} (h : v.IsRegular) : IsWritable v.tokens := by
  induction h with
  | null => exact isWritable_nil.cons trivial rfl
  | bool b => exact isWritable_nil.cons trivial rfl
  | string s => exact isWritable_nil.cons rfl rfl
  | @number n h =>
    refine ⟨List.forall_mem_singleton.2 (Number.isProper_numeral h), fun rest hrest hhead => ?_⟩
    exact List.isChain_cons.2 ⟨fun t ht _ => hhead t ht, hrest⟩
  | @array es h ih =>
    cases es with
    | nil =>
      change IsWritable [.leftBracket, .rightBracket]
      exact .cons trivial rfl (.cons trivial rfl isWritable_nil)
    | cons v es =>
      rw [tokens, List.cons_append]
      refine .cons trivial rfl ?_
      exact (ih v List.mem_cons_self).append
        (isWritable_elementTokens fun w hw => ih w (List.mem_cons_of_mem _ hw))
        (fun _ => head?_elementTokens) (by cases es <;> simp [elementTokens])
  | @object ms h ih =>
    cases ms with
    | nil =>
      change IsWritable [.leftBrace, .rightBrace]
      exact .cons trivial rfl (.cons trivial rfl isWritable_nil)
    | cons m ms =>
      rw [tokens, List.cons_append, List.cons_append, List.cons_append]
      refine .cons trivial rfl (.cons rfl rfl (.cons trivial rfl ?_))
      exact (ih m List.mem_cons_self).append
        (isWritable_memberTokens fun a ha => ih a (List.mem_cons_of_mem _ ha))
        (fun _ => head?_memberTokens) (by cases ms <;> simp [memberTokens])

theorem scan?_compact {v : Value} (h : v.IsRegular) :
    Token.scan? (Utf8.ofString v.compact) = some v.tokens := by
  have hwritable := h.isWritable_tokens
  have hseparated := hwritable.2 [] .nil (by simp)
  rw [List.append_nil] at hseparated
  exact Token.scan?_write hwritable.1 hseparated

end Tokens

section Injective

def IsTold (v : Value) : Prop :=
  ∀ w, w.IsRegular → ∀ r r', v.tokens ++ r = w.tokens ++ r' → v = w ∧ r = r'

def firstToken : Value → Token
  | .null => .null
  | .bool b => .bool b
  | .number n => .number n.numeral
  | .string s => .string (some s)
  | .array _ => .leftBracket
  | .object _ => .leftBrace

lemma exists_tokens_eq (v : Value) : ∃ ts, v.tokens = v.firstToken :: ts := by
  cases v with
  | array es => cases es <;> exact ⟨_, rfl⟩
  | object ms => cases ms <;> exact ⟨_, rfl⟩
  | _ => exact ⟨_, rfl⟩

lemma firstToken_eq {v w : Value} {r r' : List Token} (h : v.tokens ++ r = w.tokens ++ r') :
    v.firstToken = w.firstToken := by
  obtain ⟨ts, hv⟩ := v.exists_tokens_eq
  obtain ⟨us, hw⟩ := w.exists_tokens_eq
  rw [hv, hw] at h
  exact (List.cons.inj h).1

lemma elementTokens_told {es es' : List Value} (h : ∀ v ∈ es, IsTold v)
    (h' : ∀ v ∈ es', v.IsRegular) {r r' : List Token}
    (heq : elementTokens es ++ r = elementTokens es' ++ r') : es = es' ∧ r = r' := by
  induction es generalizing es' with
  | nil =>
    cases es' with
    | nil => exact ⟨rfl, by simpa [elementTokens] using heq⟩
    | cons w es' => simp [elementTokens] at heq
  | cons v es ih =>
    cases es' with
    | nil => simp [elementTokens] at heq
    | cons w es' =>
      have htail : v.tokens ++ (elementTokens es ++ r) = w.tokens ++ (elementTokens es' ++ r') := by
        simpa [elementTokens] using heq
      obtain ⟨rfl, hrest⟩ := h v List.mem_cons_self w (h' w List.mem_cons_self) _ _ htail
      obtain ⟨rfl, hr⟩ := ih (fun u hu => h u (List.mem_cons_of_mem _ hu))
        (fun u hu => h' u (List.mem_cons_of_mem _ hu)) hrest
      exact ⟨rfl, hr⟩

lemma memberTokens_told {ms ms' : Members} (h : ∀ m ∈ ms, IsTold m.2)
    (h' : ∀ m ∈ ms', m.2.IsRegular) {r r' : List Token}
    (heq : memberTokens ms ++ r = memberTokens ms' ++ r') : ms = ms' ∧ r = r' := by
  induction ms generalizing ms' with
  | nil =>
    cases ms' with
    | nil => exact ⟨rfl, by simpa [memberTokens] using heq⟩
    | cons m' ms' => simp [memberTokens] at heq
  | cons m ms ih =>
    cases ms' with
    | nil => simp [memberTokens] at heq
    | cons m' ms' =>
      obtain ⟨k, v⟩ := m
      obtain ⟨k', w⟩ := m'
      have hsplit : k = k' ∧
          v.tokens ++ (memberTokens ms ++ r) = w.tokens ++ (memberTokens ms' ++ r') := by
        simpa [memberTokens] using heq
      obtain ⟨rfl, htail⟩ := hsplit
      obtain ⟨rfl, hrest⟩ := h _ List.mem_cons_self w (h' _ List.mem_cons_self) _ _ htail
      obtain ⟨rfl, hr⟩ := ih (fun u hu => h u (List.mem_cons_of_mem _ hu))
        (fun u hu => h' u (List.mem_cons_of_mem _ hu)) hrest
      exact ⟨rfl, hr⟩

lemma array_told {es : List Value} (h : ∀ v ∈ es, IsTold v) : IsTold (.array es) := by
  intro w hw r r' heq
  have hfirst := firstToken_eq heq
  cases w with
  | array es' =>
    cases hw with
    | array hes' =>
      cases es with
      | nil =>
        cases es' with
        | nil => exact ⟨rfl, by simpa [tokens] using heq⟩
        | cons w es' =>
          obtain ⟨ts, hts⟩ := w.exists_tokens_eq
          cases w <;> simp [tokens, hts, firstToken] at heq
      | cons v es =>
        cases es' with
        | nil =>
          obtain ⟨ts, hts⟩ := v.exists_tokens_eq
          cases v <;> simp [tokens, hts, firstToken] at heq
        | cons w es' =>
          have hbody : elementTokens (v :: es) ++ r = elementTokens (w :: es') ++ r' := by
            simpa [tokens, elementTokens] using heq
          obtain ⟨hes, hr⟩ := elementTokens_told h hes' hbody
          exact ⟨by rw [hes], hr⟩
  | _ => cases hfirst

lemma object_told {ms : Members} (h : ∀ m ∈ ms, IsTold m.2) : IsTold (.object ms) := by
  intro w hw r r' heq
  have hfirst := firstToken_eq heq
  cases w with
  | object ms' =>
    cases hw with
    | object hms' =>
      cases ms with
      | nil =>
        cases ms' with
        | nil => exact ⟨rfl, by simpa [tokens] using heq⟩
        | cons m' ms' => simp [tokens] at heq
      | cons m ms =>
        cases ms' with
        | nil => simp [tokens] at heq
        | cons m' ms' =>
          have hbody : memberTokens (m :: ms) ++ r = memberTokens (m' :: ms') ++ r' := by
            simpa [tokens, memberTokens] using heq
          obtain ⟨hms, hr⟩ := memberTokens_told h hms' hbody
          exact ⟨by rw [hms], hr⟩
  | _ => cases hfirst

lemma IsRegular.isTold {v : Value} (h : v.IsRegular) : IsTold v := by
  induction h with
  | @array es _ ih => exact array_told ih
  | @object ms _ ih => exact object_told ih
  | @number n hn =>
    intro w hw r r' heq
    have hfirst := firstToken_eq heq
    cases hw with
    | @number n' hn' =>
      obtain rfl := Number.eq_of_numeral_eq hn hn' (Token.number.inj hfirst)
      exact ⟨rfl, by simpa [tokens] using heq⟩
    | _ => cases hfirst
  | null | bool _ | string _ =>
    intro w _ r r' heq
    have hfirst := firstToken_eq heq
    cases w <;> cases hfirst
    exact ⟨rfl, by simpa [tokens] using heq⟩

theorem eq_of_compact_eq {v w : Value} (hv : v.IsRegular) (hw : w.IsRegular)
    (h : v.compact = w.compact) : v = w := by
  have hscan := scan?_compact hv
  rw [h, scan?_compact hw, Option.some.injEq] at hscan
  exact (hv.isTold w hw [] [] (by rw [List.append_nil, List.append_nil, hscan])).1

end Injective

end Value

end CorridorTrust.Json
