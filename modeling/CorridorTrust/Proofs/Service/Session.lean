import CorridorTrust.Service.Session
import CorridorTrust.Proofs.Service.Responses
import CorridorTrust.Proofs.Text.Lines

/-!
Sessions. Each line of the input that is a text and not blank is answered by one line of the output, in
their order and in the state that the lines before it have left; the first line that is no text ends the
session, and neither it nor what comes after it is answered.
-/

namespace CorridorTrust.Session

open Json (Value Tree)
open Rpc (World)

section Lines

structure IsCut (input : Bytes) (ls : List Bytes) : Prop where
  apart : ∀ line ∈ ls, 10 ∉ line
  whole : Text.terminate 10 ls = input ∨
    Text.terminate 10 ls = input ++ [10] ∧ input ≠ [] ∧ input.getLast? ≠ some 10

lemma isCut_lines (input : Bytes) : IsCut input (lines input) := by
  obtain ⟨ended, rest, hsplit, hinput, hended, hrest⟩ := Text.exists_split_eq 10 input
  by_cases hnil : rest = []
  · subst hnil
    have hlines : lines input = ended := by simp [lines, hsplit]
    rw [hlines]
    exact ⟨hended, .inl (by rw [hinput, List.append_nil])⟩
  · have hlines : lines input = ended ++ [rest] := by simp [lines, hsplit, hnil]
    rw [hlines]
    have hlast : input.getLast? = rest.getLast? := by
      rw [hinput, List.getLast?_append_of_ne_nil _ hnil]
    refine ⟨List.forall_mem_append.2 ⟨hended, by simpa using hrest⟩, .inr ⟨?_, ?_, ?_⟩⟩
    · rw [Text.terminate_concat, ← hinput]
    · rw [hinput]
      simp [hnil]
    · rw [hlast]
      exact fun h => hrest (List.mem_of_getLast? h)

lemma lines_terminate {ls : List Bytes} (h : ∀ line ∈ ls, 10 ∉ line) :
    lines (Text.terminate 10 ls) = ls := by
  simp [lines, Text.split_terminate h]

end Lines

section Steps

def runIn : Service → List (World × Bytes) → List String × Bool
  | _, [] => ([], true)
  | s, (w, line) :: rest =>
    match step w s line with
    | .silent => runIn s rest
    | .failed => ([], false)
    | .reply text next =>
      let (texts, complete) := runIn next rest
      (text :: texts, complete)

def seenIn (world : ℕ → World) (ls : List Bytes) : List (World × Bytes) :=
  ls.mapIdx fun i line => (world i, line)

def isText (line : Bytes) : Bool := (Utf8.decode? line).isSome

def call? (line : Bytes) : Option (List Char) :=
  ((Utf8.decode? line).map Text.trimChars).filter (· ≠ [])

def calls (seen : List (World × Bytes)) : List (World × List Char) :=
  (seen.takeWhile fun x => isText x.2).filterMap fun x => (call? x.2).map fun cs => (x.1, cs)

def responses : Service → List (World × List Char) → List Value
  | _, [] => []
  | s, (w, cs) :: rest => (answer w s cs).1 :: responses (answer w s cs).2 rest

def stateAfter (s : Service) (asked : List (World × List Char)) : Service :=
  asked.foldl (fun s x => (answer x.1 s x.2).2) s

variable {w : World} {s : Service} {line : Bytes} {cs : List Char} {seen : List (World × Bytes)}

lemma map_snd_seenIn (world : ℕ → World) (ls : List Bytes) :
    (seenIn world ls).map Prod.snd = ls := by
  apply List.ext_getElem?
  intro i
  simp [seenIn]

lemma seenIn_const (w : World) (ls : List Bytes) :
    seenIn (fun _ => w) ls = ls.map fun line => (w, line) := by
  apply List.ext_getElem?
  intro i
  simp [seenIn]

lemma run_eq_runIn (w : World) (s : Service) (ls : List Bytes) :
    run w s ls = runIn s (seenIn (fun _ => w) ls) := by
  rw [seenIn_const]
  induction ls generalizing s with
  | nil => rfl
  | cons line ls ih =>
    rw [run, List.map_cons, runIn]
    cases step w s line with
    | silent => exact ih s
    | failed => rfl
    | reply text next =>
      dsimp only
      rw [ih next]

lemma step_of_not_text (h : isText line = false) : step w s line = .failed := by
  rw [step, Option.not_isSome_iff_eq_none.1 (Bool.eq_false_iff.1 h)]

lemma step_of_blank (htext : isText line = true) (h : call? line = none) :
    step w s line = .silent := by
  obtain ⟨cs, hcs⟩ := Option.isSome_iff_exists.1 htext
  have hblank : Text.trimChars cs = [] := by simpa [call?, hcs] using h
  rw [step, hcs]
  exact if_pos hblank

lemma step_of_call (h : call? line = some cs) :
    step w s line = .reply (answer w s cs).1.compact (answer w s cs).2 := by
  obtain ⟨htrim, hne⟩ := Option.filter_eq_some_iff.1 h
  obtain ⟨text, htext, rfl⟩ := Option.map_eq_some_iff.1 htrim
  rw [step, htext]
  exact if_neg (by simpa using hne)

lemma runIn_eq (s : Service) (seen : List (World × Bytes)) :
    runIn s seen = ((responses s (calls seen)).map Value.compact, seen.all fun x => isText x.2) := by
  induction seen generalizing s with
  | nil => rfl
  | cons x seen ih =>
    -- only a line with a call changes the service that the rest of the session begins with
    obtain ⟨w, line⟩ := x
    by_cases htext : isText line = true
    · cases hcall : call? line with
      | none =>
        have hcalls : calls ((w, line) :: seen) = calls seen := by simp [calls, htext, hcall]
        rw [runIn, step_of_blank htext hcall, hcalls, List.all_cons, htext, Bool.true_and]
        exact ih s
      | some cs =>
        have hcalls : calls ((w, line) :: seen) = (w, cs) :: calls seen := by
          simp [calls, htext, hcall]
        rw [runIn, step_of_call hcall, hcalls, List.all_cons, htext, Bool.true_and, responses,
          List.map_cons]
        dsimp only
        rw [ih]
    · have hcalls : calls ((w, line) :: seen) = [] := by simp [calls, htext]
      rw [runIn, step_of_not_text (by simpa using htext), hcalls, List.all_cons]
      simp [htext, responses]

lemma length_responses (s : Service) (asked : List (World × List Char)) :
    (responses s asked).length = asked.length := by
  induction asked generalizing s with
  | nil => rfl
  | cons x asked ih => rw [responses, List.length_cons, ih, List.length_cons]

lemma getElem?_responses (s : Service) (asked : List (World × List Char)) (i : ℕ) :
    (responses s asked)[i]? =
      asked[i]?.map fun x => (answer x.1 (stateAfter s (asked.take i)) x.2).1 := by
  induction asked generalizing s i with
  | nil => rfl
  | cons x asked ih =>
    cases i with
    | zero => rfl
    | succ i =>
      rw [responses, List.getElem?_cons_succ, ih, List.getElem?_cons_succ]
      rfl

end Steps

section Answers

variable {w : World} {s : Service} {cs : List Char}

inductive IsResponse (w : World) (s : Service) (cs : List Char) (response : Value) : Prop
  | handled {q : Value} (hread : Value.read? (Utf8.encode cs) = some q)
      (h : response = (Rpc.handle w s q).1) : IsResponse w s cs response
  | refused (hread : Value.read? (Utf8.encode cs) = none) (h : Rpc.HasError response .null (-32700)) :
      IsResponse w s cs response

lemma isResponse_answer (w : World) (s : Service) (cs : List Char) :
    IsResponse w s cs (answer w s cs).1 := by
  rw [answer]
  cases hread : Value.read? (Utf8.encode cs) with
  | none => exact .refused hread ⟨_, rfl⟩
  | some q => exact .handled hread rfl

lemma isRegular_answer (hs : s.keys.IsRegular) (w : World) (cs : List Char) :
    (answer w s cs).1.IsRegular := by
  rw [answer]
  cases hread : Value.read? (Utf8.encode cs) with
  | none => exact Rpc.isRegular_respond (x := .error .notJson) .null (by simp)
  | some q => exact Rpc.isRegular_handle hs (Value.isRegular_of_read? hread)

lemma keys_answer (w : World) (s : Service) (cs : List Char) : (answer w s cs).2.keys = s.keys := by
  rw [answer]
  cases Value.read? (Utf8.encode cs) with
  | none => rfl
  | some q => exact Rpc.keys_handle w s q

lemma keys_stateAfter (s : Service) (asked : List (World × List Char)) :
    (stateAfter s asked).keys = s.keys := by
  induction asked generalizing s with
  | nil => rfl
  | cons x asked ih => exact (ih _).trans (keys_answer _ _ _)

end Answers

/-- As many lines are printed as there are calls, each of them one response that can be read from its
line, and every line of the input is answered or blank unless one of them is no text. -/
theorem answered_lines {t : FileTree} {settings : Settings} {s : Service}
    (hopen : Service.openWith t settings = .ok s) (input : Bytes) (world : ℕ → World) :
    let seen := seenIn world (lines input)
    let asked := calls seen
    let texts := (runIn s seen).1
    (IsCut input (lines input) ∧
      ∀ w, run w s (lines input) = runIn s (seenIn (fun _ => w) (lines input))) ∧
    ((runIn s seen).2 = true ↔ ∀ line ∈ lines input, isText line = true) ∧
    (texts.length = asked.length ∧
      lines (Text.terminate 10 (texts.map Utf8.ofString)) = texts.map Utf8.ofString) ∧
    ∀ i w cs, asked[i]? = some (w, cs) → ∃ response, texts[i]? = some response.compact ∧
      IsResponse w (stateAfter s (asked.take i)) cs response ∧ '\n' ∉ response.compact.toList ∧
      Tree.read? (Utf8.ofString response.compact) = some response.printedTree := by
  intro seen asked texts
  obtain ⟨snapshot, k, -, hkeys, rfl⟩ := Service.openWith_eq_ok_iff.1 hopen
  set s := Service.ofParts settings snapshot k.2 k.1
  have hregular (earlier : List (World × List Char)) : (stateAfter s earlier).keys.IsRegular := by
    rw [keys_stateAfter]
    exact Settings.isRegular_of_loadKeys hkeys
  have htexts : texts = (responses s asked).map Value.compact := congrArg Prod.fst (runIn_eq s seen)
  have hanswer : ∀ i w cs, asked[i]? = some (w, cs) →
      texts[i]? = some (answer w (stateAfter s (asked.take i)) cs).1.compact := by
    intro i w cs hi
    rw [htexts, List.getElem?_map, getElem?_responses, hi]
    rfl
  have hline : ∀ text ∈ texts, 10 ∉ Utf8.ofString text := by
    intro text hmem
    obtain ⟨i, hi⟩ := List.mem_iff_getElem?.1 hmem
    rw [htexts, List.getElem?_map, getElem?_responses, Option.map_map] at hi
    obtain ⟨x, -, rfl⟩ := Option.map_eq_some_iff.1 hi
    exact Utf8.newline_not_mem_ofString (isRegular_answer (hregular _) _ _).newline_not_mem_compact
  refine ⟨⟨isCut_lines input, fun w => run_eq_runIn w s _⟩, ?_, ⟨?_, ?_⟩, fun i w cs hi => ?_⟩
  · rw [runIn_eq, ← map_snd_seenIn world (lines input), List.forall_mem_map]
    exact List.all_eq_true
  · rw [htexts, List.length_map, length_responses]
  · exact lines_terminate (List.forall_mem_map.2 hline)
  · have hr := isRegular_answer (hregular (asked.take i)) w cs
    exact ⟨_, hanswer i w cs hi, isResponse_answer _ _ _, hr.newline_not_mem_compact, hr.read?_compact⟩

section Mixed

def ping : Bytes := Utf8.ofString "\x7b\"method\":\"ping\"\x7d"

def mixed : Bytes :=
  Utf8.ofString "\r\n\x7b\"method\":\"revocations/bump\"\x7d\r\nnope\n \u00a0\n" ++ ping

def still : World := ⟨Service.singleFiles, ⟨0, 0⟩⟩

theorem answered_mixed : ∃ s, Service.openWith Service.singleFiles Service.singleSettings = .ok s ∧
    let texts := (run still s (lines mixed)).1
    (run still s (lines mixed)).2 = true ∧ texts.length = 3 ∧
    ∃ response, texts[1]? = some response.compact ∧ Rpc.HasError response .null (-32700) := by
  have hopen : (Service.openWith Service.singleFiles Service.singleSettings).toBool = true := by
    decide +kernel
  obtain ⟨s, h⟩ := Sequence.exists_of_toBool hopen
  obtain ⟨⟨-, hrun⟩, hcomplete, ⟨hlength, -⟩, hresponses⟩ := answered_lines h mixed fun _ => still
  have hcalls : (calls (seenIn (fun _ => still) (lines mixed))).map Prod.snd =
      ["\x7b\"method\":\"revocations/bump\"\x7d".toList, "nope".toList,
        "\x7b\"method\":\"ping\"\x7d".toList] := by decide +kernel
  have hsecond := congrArg (·[1]?) hcalls
  rw [List.getElem?_map] at hsecond
  obtain ⟨⟨w, cs⟩, hcall, rfl⟩ := Option.map_eq_some_iff.1 hsecond
  obtain ⟨response, htext, hresponse, -⟩ := hresponses 1 w _ hcall
  have hnone : (Value.read? (Utf8.encode "nope".toList)).isSome = false := by decide +kernel
  refine ⟨s, h, ?_, ?_, response, ?_, ?_⟩
  · rw [hrun]
    exact hcomplete.2 (by decide +kernel)
  · rw [hrun, hlength, ← List.length_map (f := Prod.snd), hcalls]
    rfl
  · rw [hrun]
    exact htext
  · cases hresponse with
    | handled hread _ =>
      rw [hread] at hnone
      cases hnone
    | refused _ h => exact h

theorem unanswered_ping : ∃ s, Service.openWith Service.singleFiles Service.singleSettings = .ok s ∧
    let input := 0xFF :: 10 :: (ping ++ [10])
    lines input = [[0xFF], ping] ∧ run still s (lines input) = ([], false) ∧
    run still s [ping] =
      (["\x7b\"id\":null,\"jsonrpc\":\"2.0\",\"result\":\x7b\x7d\x7d"], true) := by
  have hping : (Service.openWith Service.singleFiles Service.singleSettings).map
      (fun s => run still s [ping]) =
      .ok (["\x7b\"id\":null,\"jsonrpc\":\"2.0\",\"result\":\x7b\x7d\x7d"], true) := by
    decide +kernel
  cases h : Service.openWith Service.singleFiles Service.singleSettings with
  | error fault =>
    rw [h] at hping
    cases hping
  | ok s =>
    have hlines : lines (0xFF :: 10 :: (ping ++ [10])) = [[0xFF], ping] := by decide +kernel
    have hfailed : step still s [0xFF] = .failed := step_of_not_text (by decide +kernel)
    rw [h] at hping
    refine ⟨s, rfl, hlines, ?_, Except.ok.inj hping⟩
    rw [hlines, run, hfailed]

end Mixed

end CorridorTrust.Session
