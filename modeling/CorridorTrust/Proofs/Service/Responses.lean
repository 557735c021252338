import CorridorTrust.Proofs.Json.Parsing
import CorridorTrust.Proofs.Service.Answering

namespace CorridorTrust

open Json (Value Members Tree)

namespace Json.Value

variable {v : Value}

lemma IsRegular.newline_not_mem_compact (h : v.IsRegular) : '\n' ∉ v.compact.toList := by
  rw [compact, String.toList_ofList, compactChars]
  intro hmem
  obtain ⟨t, ht, hwrite⟩ := List.mem_flatMap.1 hmem
  exact Token.newline_not_mem_write (h.isWritable_tokens.1 t ht) hwrite

lemma IsRegular.read?_compact (h : v.IsRegular) :
    Tree.read? (Utf8.ofString v.compact) = some v.printedTree :=
  Tree.read?_of_scan?_tokens (scan?_compact h)

lemma IsRegular.member? (h : v.IsRegular) {name : String} {w : Value}
    (hw : Rpc.member? v name = some w) : w.IsRegular := by
  cases v with
  | object ms => exact isRegular_object.1 h (name, w) (Members.mem_of_get? hw)
  | _ => cases hw

end Json.Value

lemma Verdict.isRegular_toJson (v : Verdict) : v.toJson.IsRegular := by
  rw [toJson, Value.isRegular_object]
  split_ifs <;> simp [Value.ofNat]

lemma Catalog.isRegular_toJson (c : Catalog) : c.toJson.IsRegular := by
  have hcorridor (x : Corridor) : x.toJson.IsRegular := by simp [Corridor.toJson, Value.isRegular_object]
  simp [toJson, hcorridor, Value.isRegular_object]

namespace Settings

lemma isRegular_of_loadKeys {t : FileTree} {settings : Settings} {k : Value × Verifier}
    (h : settings.loadKeys t = .ok k) : k.1.IsRegular := by
  rw [loadKeys] at h
  split at h
  case h_2 =>
    obtain rfl := Except.ok.inj h
    simp [KeySet.toJson, KeySet.empty, Value.isRegular_object]
  case h_4 =>
    split at h
    next => cases h
    next document hdocument =>
      have hregular := Value.isRegular_of_read? hdocument
      split at h
      · obtain rfl := Except.ok.inj h
        exact hregular
      · obtain ⟨keys, -, hk⟩ := Sequence.bind_eq_ok_iff.1 h
        obtain rfl := Except.ok.inj hk
        exact hregular
  all_goals cases h

end Settings

namespace Rpc

variable {w : World} {s : Service} {params v : Value}

lemma isRegular_payload {x : Except Fault Bytes} (h : payload x = .ok v) : v.IsRegular := by
  cases x with
  | error fault => cases h
  | ok bs =>
    rw [payload] at h
    cases hread : Value.read? bs with
    | none =>
      rw [hread] at h
      cases h
    | some u =>
      rw [hread] at h
      obtain rfl := Except.ok.inj h
      exact Value.isRegular_of_read? hread

lemma isRegular_verify (h : verify w s params = .ok v) : v.IsRegular := by
  rw [verify] at h
  split at h
  · obtain rfl := Except.ok.inj h
    exact (Verdict.isRegular_toJson _).normalize
  · obtain ⟨now, -, hv⟩ := Sequence.bind_eq_ok_iff.1 h
    obtain rfl := Except.ok.inj hv
    exact (Verdict.isRegular_toJson _).normalize

lemma isRegular_call (hs : s.keys.IsRegular) {method : String}
    (h : (call w s method params).1 = .ok v) : v.IsRegular := by
  unfold call at h
  split at h
  case h_3 => exact isRegular_verify h
  case h_6 =>
    rw [tokensGet] at h
    split at h
    · cases h
    · exact isRegular_payload h
  case h_7 =>
    rw [tokensLookup] at h
    split at h
    · cases h
    · exact isRegular_payload h
  case h_8 =>
    obtain rfl := Except.ok.inj h
    exact (Catalog.isRegular_toJson _).normalize
  case h_9 =>
    obtain rfl := Except.ok.inj h
    exact hs
  case h_10 =>
    rw [reload] at h
    split at h
    · obtain rfl := Except.ok.inj h
      simp [Value.isRegular_object]
    · cases h
  case h_11 => cases h
  all_goals
    obtain rfl := Except.ok.inj h
    simp [health, epochResult, Value.ofNat, Value.isRegular_object]

lemma isRegular_respond {id : Value} (hid : id.IsRegular) {x : Answer}
    (h : ∀ v, x = .ok v → v.IsRegular) : (respond id x).IsRegular := by
  cases x with
  | ok v => simp [respond, hid, h v rfl, Value.isRegular_object]
  | error failure => simp [respond, hid, Value.isRegular_object]

lemma isRegular_idOf {q : Value} (hq : q.IsRegular) : (idOf q).IsRegular := by
  rw [idOf]
  cases hmember : member? q "id" with
  | none => exact .null
  | some id => exact hq.member? hmember

lemma isRegular_handle (hs : s.keys.IsRegular) {q : Value} (hq : q.IsRegular) :
    (handle w s q).1.IsRegular := by
  have hid := isRegular_idOf hq
  cases hmethod : method? q with
  | none =>
    rw [handle_of_noMethod hmethod]
    exact isRegular_respond (x := .error .noMethod) hid (by simp)
  | some method =>
    rw [handle_of_method hmethod]
    exact isRegular_respond hid fun v h => isRegular_call hs h

lemma keys_handle (w : World) (s : Service) (q : Value) : (handle w s q).2.keys = s.keys := by
  cases hmethod : method? q with
  | none => rw [handle_of_noMethod hmethod]
  | some method =>
    rw [handle_of_method hmethod]
    rcases Service.call_cases w s method (paramsOf q) with h | h | ⟨snapshot, -, h⟩
    all_goals
      have hkeys := congrArg Service.keys h
      exact hkeys

end Rpc

end CorridorTrust
