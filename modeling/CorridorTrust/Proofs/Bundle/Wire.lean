import CorridorTrust.Bundle.Verdict
import CorridorTrust.Proofs.Bundle.Strictness
import CorridorTrust.Proofs.Evidence.Attachment
import CorridorTrust.Proofs.Json.Restating

/-!
Reasons and verdicts as texts. A reason's text is a label, which says its kind and role, and behind a colon
the identifier it is about, whatever stands in that. A verdict is read back from its text, with its reason
and with any epoch.
-/

namespace CorridorTrust

open Json (Value Members Tree)

namespace Reason

inductive Kind where
  | missing
  | metadataMissing
  | metadataInvalid
  | tokenRevoked
  | tokenNotYetValid
  | tokenExpired
  | invalidNotBefore
  | invalidExpiry
  | invalidRole
  | invalidRequest
deriving DecidableEq

def kind : Reason → Kind
  | .missing _ => .missing
  | .metadataMissing _ => .metadataMissing
  | .metadataInvalid _ => .metadataInvalid
  | .tokenRevoked _ => .tokenRevoked
  | .tokenNotYetValid _ => .tokenNotYetValid
  | .tokenExpired _ => .tokenExpired
  | .invalidNotBefore _ => .invalidNotBefore
  | .invalidExpiry _ => .invalidExpiry
  | .invalidRole _ => .invalidRole
  | .invalidRequest => .invalidRequest

def role? : Reason → Option Role
  | .missing role | .invalidRole role => some role
  | _ => none

def Kind.word : Kind → String
  | .missing => "missing_"
  | .metadataMissing => "metadata_missing"
  | .metadataInvalid => "metadata_invalid"
  | .tokenRevoked => "token_revoked"
  | .tokenNotYetValid => "token_not_yet_valid"
  | .tokenExpired => "token_expired"
  | .invalidNotBefore => "invalid_nbf"
  | .invalidExpiry => "invalid_exp"
  | .invalidRole => "invalid_"
  | .invalidRequest => "invalid_request"

abbrev Heading := Kind × Option Role

def heading (r : Reason) : Heading := (r.kind, r.role?)

def Heading.label (h : Heading) : String := h.1.word ++ h.2.elim "" Role.text

def headings : List Heading :=
  Role.all.map (fun role => (Kind.missing, some role)) ++
  Role.all.map (fun role => (Kind.invalidRole, some role)) ++
  [Kind.metadataMissing, Kind.metadataInvalid, Kind.tokenRevoked, Kind.tokenNotYetValid, Kind.tokenExpired,
    Kind.invalidNotBefore, Kind.invalidExpiry, Kind.invalidRequest].map (fun kind => (kind, none))

variable {r r' : Reason}

lemma heading_mem (r : Reason) : r.heading ∈ headings := by
  cases r with
  | missing role | invalidRole role => cases role <;> decide
  | _ => simp [heading, kind, role?, headings]

lemma nodup_labels : (headings.map Heading.label).Nodup := by decide +kernel

lemma heading_eq_of_label_eq (h : r.heading.label = r'.heading.label) : r.heading = r'.heading :=
  List.inj_on_of_nodup_map nodup_labels r.heading_mem r'.heading_mem h

lemma colon_notMem_label (r : Reason) : ':' ∉ r.heading.label.toList := by
  have hall : ∀ h ∈ headings, ':' ∉ h.label.toList := by decide +kernel
  exact hall _ r.heading_mem

def ofParts (kind : Kind) (role : Role) (uri : String) : Reason :=
  match kind with
  | .missing => .missing role
  | .metadataMissing => .metadataMissing uri
  | .metadataInvalid => .metadataInvalid uri
  | .tokenRevoked => .tokenRevoked uri
  | .tokenNotYetValid => .tokenNotYetValid uri
  | .tokenExpired => .tokenExpired uri
  | .invalidNotBefore => .invalidNotBefore uri
  | .invalidExpiry => .invalidExpiry uri
  | .invalidRole => .invalidRole role
  | .invalidRequest => .invalidRequest

lemma ofParts_eq (r : Reason) : ofParts r.kind (r.role?.getD .rmt) (r.uri?.getD "") = r := by
  cases r <;> rfl

lemma eq_of_heading_eq (h : r.heading = r'.heading) (huri : r.uri? = r'.uri?) : r = r' := by
  obtain ⟨hkind, hrole⟩ := Prod.mk.inj h
  rw [← r.ofParts_eq, hkind, hrole, huri, ofParts_eq]

def beforeColon (s : String) : String := String.ofList (s.toList.takeWhile (· != ':'))

def afterColon? (s : String) : Option String :=
  match s.toList.dropWhile (· != ':') with
  | [] => none
  | _ :: cs => some (String.ofList cs)

lemma text_of_uri {uri : String} (h : r.uri? = some uri) :
    ∃ label, r.text = label ++ uri ∧ label.toList = r.heading.label.toList ++ [':'] := by
  cases r <;> cases h <;> refine ⟨_, rfl, ?_⟩ <;> dsimp only [heading, kind, role?] <;> decide +kernel

lemma text_of_no_uri (h : r.uri? = none) : r.text = r.heading.label := by
  cases r with
  | missing role | invalidRole role => rfl
  | invalidRequest => rfl
  | _ => cases h

lemma text_eq (r : Reason) : r.text.toList =
    r.heading.label.toList ++ r.uri?.elim [] fun uri => ':' :: uri.toList := by
  cases huri : r.uri? with
  | none => rw [text_of_no_uri huri, Option.elim_none, List.append_nil]
  | some uri =>
    obtain ⟨label, htext, hlabel⟩ := text_of_uri huri
    rw [htext, String.toList_append, hlabel, List.append_assoc, List.singleton_append, Option.elim_some]

lemma beforeColon_text (r : Reason) : beforeColon r.text = r.heading.label := by
  have hlabel : ∀ c ∈ r.heading.label.toList, (c != ':') = true := by
    intro c hc
    simpa using ne_of_mem_of_not_mem hc r.colon_notMem_label
  rw [beforeColon, text_eq, List.takeWhile_append_of_pos hlabel]
  cases r.uri? <;> simp

lemma afterColon?_text (r : Reason) : afterColon? r.text = r.uri? := by
  have hlabel : ∀ c ∈ r.heading.label.toList, (c != ':') = true := by
    intro c hc
    simpa using ne_of_mem_of_not_mem hc r.colon_notMem_label
  rw [afterColon?, text_eq, List.dropWhile_append_of_pos hlabel]
  cases r.uri? <;> simp

theorem text_injective (h : r.text = r'.text) : r = r' := by
  apply eq_of_heading_eq
  · apply heading_eq_of_label_eq
    rw [← beforeColon_text, h, beforeColon_text]
  · rw [← afterColon?_text, h, afterColon?_text]

lemma label_ne_empty : ∀ h ∈ headings, h.label ≠ "" := by decide +kernel

lemma text_ne_empty (r : Reason) : r.text ≠ "" := by
  intro h
  have hlabel := r.beforeColon_text
  rw [h] at hlabel
  exact label_ne_empty _ r.heading_mem hlabel.symm

end Reason

namespace Verdict

variable (v : Verdict)

def members : Members :=
  [("valid", .bool v.valid), ("revEpoch", .ofNat v.epoch.value.toNat)] ++
    if v.reason = "" then [] else [("reason", .string v.reason)]

lemma nodup_members : (v.members.map Prod.fst).Nodup := by
  rw [members]
  split_ifs <;> simp

lemma get?_members : v.members.get? "valid" = some (.bool v.valid) ∧
    v.members.get? "revEpoch" = some (.ofNat v.epoch.value.toNat) ∧
    v.members.get? "reason" = if v.reason = "" then none else some (.string v.reason) := by
  rw [members, Members.get?, Members.get?, Members.get?]
  by_cases hreason : v.reason = "" <;> simp [hreason, List.lookup]

lemma forall_mem_members {P : Value → Prop} (hvalid : P (.bool v.valid))
    (hepoch : P (.ofNat v.epoch.value.toNat)) (hreason : P (.string v.reason)) :
    ∀ m ∈ v.members, P m.2 := by
  rw [members]
  split_ifs <;> simp [hvalid, hepoch, hreason]

lemma allNumbers_toJson : v.toJson.AllNumbers Json.Number.IsStable := by
  have hepoch : (Json.Number.integer v.epoch.value.toNat).InRange := by
    have hlt : v.epoch.value.toNat < 2 ^ 64 := v.epoch.value.toNat_lt
    constructor <;> omega
  exact .object (v.forall_mem_members (.bool _) (.number (Json.Number.isStable_integer hepoch)) (.string _))

lemma depth_toJson : v.toJson.depth ≤ Value.maxDepth := by
  apply Value.depth_object_le_iff.2
  refine ⟨126, rfl, v.forall_mem_members (P := fun w => w.depth ≤ 126) ?_ ?_ ?_⟩
  · simp [Value.depth]
  · simp [Value.ofNat, Value.depth]
  · simp [Value.depth]

lemma normalize_toJson : v.toJson.normalize = .object (Members.ofList v.members) := by
  have hid : v.members.map (fun m => (m.1, m.2.normalize)) = v.members := by
    refine (List.map_congr_left fun m hm => ?_).trans (List.map_id _)
    have hm : m.2.normalize = m.2 :=
      v.forall_mem_members (P := fun w => w.normalize = w) rfl rfl rfl m hm
    rw [hm, id]
  change Value.object (Members.ofList (Value.normalizeMembers v.members)) = _
  rw [Value.normalizeMembers_eq_map, hid]

variable {v}

lemma ofTree?_object {ms : Members} (hms : (ms.map Prod.fst).Nodup)
    (h : ∀ k, ms.get? k = v.members.get? k) : ofTree? (Value.object ms).toTree = some v := by
  obtain ⟨hvalid, hepoch, hreason⟩ := v.get?_members
  have hword : Tree.word? (Value.ofNat v.epoch.value.toNat).toTree = some v.epoch.value := by
    have hlt : (v.epoch.value.toNat : ℤ) < UInt64.size := by exact_mod_cast v.epoch.value.toNat_lt
    rw [Value.ofNat, Value.toTree, Tree.word?, if_pos ⟨Int.natCast_nonneg _, hlt⟩, Int.toNat_natCast]
    exact congrArg some (UInt64.ofNat_toNat)
  have hvalid' : Tree.required Tree.bool? ((ms.get? "valid").map Value.toTree) = some v.valid := by
    rw [h, hvalid]
    rfl
  have hepoch' : Tree.required Tree.word? ((ms.get? "revEpoch").map Value.toTree) =
      some v.epoch.value := by
    rw [h, hepoch, Option.map_some, Tree.required, hword]
  have hreason' : Tree.orElse "" Tree.string? ((ms.get? "reason").map Value.toTree) =
      some v.reason := by
    rw [h, hreason]
    split_ifs with hempty
    · exact congrArg some hempty.symm
    · rfl
  rw [Value.toTree, Value.toTreeMembers_eq_map, ofTree?, Members.fields?_map hms]
  simp only [hvalid', hepoch', hreason', Option.bind_eq_bind, Option.bind_some]

variable {text : String}

lemma read?_of_mem_texts (htext : text ∈ Seal.texts v.toJson) : read? (Utf8.ofString text) = some v := by
  have hscan := Seal.scan?_of_mem_texts v.allNumbers_toJson.isRegular_of_isStable htext
  rw [read?, Tree.read?_of_scan? v.allNumbers_toJson hscan, Option.bind_some]
  exact ofTree?_object v.nodup_members fun _ => rfl

lemma value_of_mem_texts (htext : text ∈ Seal.texts v.toJson) :
    Value.read? (Utf8.ofString text) = some v.toJson.normalize :=
  Seal.read?_normalize_of_mem_texts v.allNumbers_toJson v.depth_toJson htext

lemma get?_normalize (v : Verdict) (k : String) :
    (Members.ofList v.members).get? k = v.members.get? k := Members.get?_ofList_of_nodup v.nodup_members k

lemma ofTree?_normalize (v : Verdict) : ofTree? v.toJson.normalize.toTree = some v := by
  rw [normalize_toJson]
  exact ofTree?_object (Members.isMap_ofList _).nodup v.get?_normalize

inductive IsGiven : Verdict → Prop
  | accepted (epoch : Epoch) : IsGiven (.accepted epoch)
  | rejected (reason : Reason) (epoch : Epoch) : IsGiven (.rejected reason epoch)

lemma IsGiven.reason_eq_empty_iff (h : v.IsGiven) : v.reason = "" ↔ v.valid = true := by
  cases h with
  | accepted epoch => exact iff_of_true rfl rfl
  | rejected reason epoch => exact iff_of_false reason.text_ne_empty (by simp [Verdict.rejected])

/-- Different reasons have different texts. What stands before the first colon says kind and role, and what
stands behind it is the identifier. A verdict is read back from each of its texts, which has a member for
the reason exactly when the verdict is not valid. -/
theorem read?_toJson :
    (∀ r r' : Reason, r.text = r'.text → r = r') ∧
      (∀ r r' : Reason, Reason.beforeColon r.text = Reason.beforeColon r'.text →
        r.kind = r'.kind ∧ r.role? = r'.role?) ∧
      (∀ r : Reason, r.text ≠ "" ∧ Reason.afterColon? r.text = r.uri?) ∧
      ∀ v : Verdict, v.IsGiven → ∀ text ∈ Seal.texts v.toJson, read? (Utf8.ofString text) = some v ∧
        ∃ ms : Members, Value.read? (Utf8.ofString text) = some (.object ms) ∧
          ms.get? "reason" = if v.valid then none else some (.string v.reason) := by
  refine ⟨fun r r' => Reason.text_injective, fun r r' h => ?_,
    fun r => ⟨r.text_ne_empty, r.afterColon?_text⟩, fun v hgiven text htext => ?_⟩
  · rw [Reason.beforeColon_text, Reason.beforeColon_text] at h
    exact Prod.mk.inj (Reason.heading_eq_of_label_eq h)
  · have hvalue := value_of_mem_texts htext
    rw [normalize_toJson] at hvalue
    refine ⟨read?_of_mem_texts htext, _, hvalue, ?_⟩
    rw [get?_normalize, v.get?_members.2.2]
    exact if_congr hgiven.reason_eq_empty_iff rfl rfl

theorem colons_kept :
    Reason.afterColon? (Reason.metadataMissing "invalid_nbf:\"u\"").text = some "invalid_nbf:\"u\"" ∧
      read? (Utf8.ofString
        (rejected (.metadataMissing "invalid_nbf:\"u\"") ⟨Epoch.ceiling⟩).toJson.indented) =
        some (rejected (.metadataMissing "invalid_nbf:\"u\"") ⟨Epoch.ceiling⟩) := by
  obtain ⟨-, -, htext, hread⟩ := read?_toJson
  refine ⟨(htext _).2, (hread _ (.rejected _ _) _ ?_).1⟩
  simp [Seal.texts]

end Verdict

end CorridorTrust
