import CorridorTrust.Proofs.Codec.Hex
import CorridorTrust.Proofs.Json.Printing
import CorridorTrust.Proofs.Publication.Snapshot
import CorridorTrust.Proofs.Time.Timestamp

/-!
The name of a publication. The hashed text tells every field of every entry, and the entries stand in it
in the order of their identifiers, so that it is that of their set.
-/

namespace CorridorTrust

open Json (Value)
open Time (Instant)

lemma Tag.text_injective : Function.Injective Tag.text := by
  intro a b h
  cases a <;> cases b <;> first | rfl | exact absurd h (by decide)

lemma Time.Instant.eq_of_toJson_eq {t u : Option Instant} (ht : ∀ a, t = some a → a.IsProper)
    (hu : ∀ a, u = some a → a.IsProper) (h : Instant.toJson t = Instant.toJson u) : t = u := by
  cases t with
  | none =>
    cases u with
    | none => rfl
    | some u => exact absurd (Value.string.inj h).symm (toText_ne_empty u)
  | some t =>
    cases u with
    | none => exact absurd (Value.string.inj h) (toText_ne_empty t)
    | some u => rw [eq_of_toText_eq (ht t rfl) (hu u rfl) (Value.string.inj h)]

namespace Entry

def IsDated (e : Entry) : Prop :=
  ∀ t, some t ∈ [e.issued, e.notBefore, e.expires] → ∃ s, Instant.parse s = .ok t

variable {e e' : Entry}

lemma IsDated.isProper (h : e.IsDated) {i : Option Instant}
    (hi : i ∈ [e.issued, e.notBefore, e.expires]) (t : Instant) (ht : i = some t) : t.IsProper := by
  obtain ⟨s, hs⟩ := h t (ht ▸ hi)
  exact Instant.isProper_of_parse hs

lemma isRegular_toJson (e : Entry) : e.toJson.IsRegular := by
  have hinstant (t : Option Instant) : (Instant.toJson t).IsRegular := by
    cases t <;> exact .string _
  refine .object fun m hm => ?_
  simp only [List.mem_append, List.mem_cons, List.mem_map, List.not_mem_nil, or_false] at hm
  rcases hm with ((rfl | rfl) | ⟨s, -, rfl⟩) | rfl | rfl | rfl | rfl | rfl | rfl | rfl
  all_goals first | exact .string _ | exact .bool _ | exact hinstant _

theorem eq_of_toJson_eq (he : e.IsDated) (he' : e'.IsDated) (h : e.toJson = e'.toJson) : e = e' := by
  have hissued := @Instant.eq_of_toJson_eq e.issued e'.issued (he.isProper (by simp))
    (he'.isProper (by simp))
  have hstart := @Instant.eq_of_toJson_eq e.notBefore e'.notBefore (he.isProper (by simp))
    (he'.isProper (by simp))
  have hend := @Instant.eq_of_toJson_eq e.expires e'.expires (he.isProper (by simp))
    (he'.isProper (by simp))
  obtain ⟨uri, tag, slug, content, hash, version, issued, notBefore, expires, revoked⟩ := e
  obtain ⟨uri', tag', slug', content', hash', version', issued', notBefore', expires', revoked'⟩ := e'
  have hmembers := Value.object.inj h
  -- a slug that is left out moves the members after it, so that keys differ
  cases slug <;> cases slug' <;> simp at hmembers
  all_goals
    obtain ⟨huri, htag, hrest⟩ := hmembers
    obtain rfl := Tag.text_injective htag
    simp_all

lemma eq_of_map_toJson_eq {es es' : List Entry} (hes : ∀ e ∈ es, e.IsDated)
    (hes' : ∀ e ∈ es', e.IsDated) (h : es.map toJson = es'.map toJson) : es = es' := by
  induction es generalizing es' with
  | nil => exact (List.map_eq_nil_iff.1 h.symm).symm
  | cons e es ih =>
    cases es' with
    | nil => cases h
    | cons e' es' =>
      obtain ⟨he, hes⟩ := List.forall_mem_cons.1 hes
      obtain ⟨he', hes'⟩ := List.forall_mem_cons.1 hes'
      obtain ⟨hfirst, hrest⟩ := List.cons.inj h
      rw [eq_of_toJson_eq he he' hfirst, ih hes hes' hrest]

end Entry

namespace Index

variable {es es' : List Entry} {x x' : Index}

lemma eq_of_digestText_eq (hx : ∀ e ∈ x.entries, e.IsDated) (hx' : ∀ e ∈ x'.entries, e.IsDated)
    (h : x.digestText = x'.digestText) : x.entries = x'.entries := by
  have hregular (y : Index) : (Value.array (y.entries.map Entry.toJson)).IsRegular := by
    refine .array fun v hv => ?_
    obtain ⟨e, -, rfl⟩ := List.mem_map.1 hv
    exact e.isRegular_toJson
  have hvalue := Value.eq_of_compact_eq (hregular x) (hregular x') h
  exact Entry.eq_of_map_toJson_eq hx hx' (Value.array.inj hvalue)

lemma sort_eq_sort_iff (h : (sort es).Pairwise Apart) (h' : (sort es').Pairwise Apart) :
    sort es = sort es' ↔ es.Perm es' := by
  have hes : (sort es).Perm es := List.mergeSort_perm es _
  have hes' : (sort es').Perm es' := List.mergeSort_perm es' _
  constructor
  · intro hsort
    exact hes.symm.trans (hsort ▸ hes')
  · intro hperm
    refine List.Perm.eq_of_pairwise (fun a b _ _ hab hba => ?_) (increasing_of_apart h)
      (increasing_of_apart h') ((hes.trans hperm).trans hes'.symm)
    exact absurd hba (List.lt_asymm hab)

/-- Publications have the same hashed text exactly when their entries are the same in some order. Then
they have the same name, and only then, unless the digests of their two texts collide. -/
theorem id_eq_iff_perm (hx : build es = .ok x) (hx' : build es' = .ok x')
    (hes : ∀ e ∈ es, e.IsDated) (hes' : ∀ e ∈ es', e.IsDated) :
    (Utf8.ofString x.digestText = Utf8.ofString x'.digestText ↔ es.Perm es') ∧
      (es.Perm es' → x.id = x'.id) ∧
      ((Sha256.digest (Utf8.ofString x.digestText) = Sha256.digest (Utf8.ofString x'.digestText) →
          Utf8.ofString x.digestText = Utf8.ofString x'.digestText) →
        (x.id = x'.id ↔ es.Perm es')) := by
  obtain ⟨-, hentries, hapart⟩ := build_eq_ok_iff.1 hx
  obtain ⟨-, hentries', hapart'⟩ := build_eq_ok_iff.1 hx'
  have hdated : ∀ e ∈ x.entries, e.IsDated := fun e he => hes e (mem_sort.1 (hentries ▸ he))
  have hdated' : ∀ e ∈ x'.entries, e.IsDated := fun e he => hes' e (mem_sort.1 (hentries' ▸ he))
  have htext : Utf8.ofString x.digestText = Utf8.ofString x'.digestText ↔ es.Perm es' := by
    rw [← sort_eq_sort_iff hapart hapart', ← hentries, ← hentries']
    constructor
    · intro h
      exact eq_of_digestText_eq hdated hdated' (Utf8.ofString_injective h)
    · intro h
      rw [digestText, digestText, h]
  have hname : es.Perm es' → x.id = x'.id := by
    intro hperm
    rw [id, id, htext.2 hperm]
  refine ⟨htext, hname, fun hcollision => ⟨fun hid => ?_, hname⟩⟩
  apply htext.1
  apply hcollision
  exact Hex.encode_injective ((String.append_right_inj _).1 hid)

section LeapSecond

def ending (t : Instant) : Entry := { Entry.new "b" .imt "b" with expires := some t }

def archived : Entry := Entry.new "a" .cort "a"

lemma isDated_pair {s : String} {t : Instant} (h : Instant.parse s = .ok t) {es : List Entry}
    (hes : es.Perm [archived, ending t]) : ∀ e ∈ es, e.IsDated := by
  intro e he u hu
  rcases List.mem_pair.1 (hes.mem_iff.1 he) with rfl | rfl
  · simp [archived, Entry.new] at hu
  · obtain rfl : u = t := by simpa [ending, Entry.new] using hu
    exact ⟨s, h⟩

lemma build_ending (t : Instant) :
    build [archived, ending t] = .ok ⟨[archived, ending t]⟩ ∧
      build [ending t, archived] = .ok ⟨[archived, ending t]⟩ :=
  build_pair (by change "a" < "b"; decide) ⟨by change "a" ≠ "b"; decide, fun _ hk => nomatch hk⟩

theorem leap_second_changes_id :
    (∃ x x', build [archived, ending ⟨1483228799, 1000000000⟩] = .ok x ∧
        build [ending ⟨1483228799, 1000000000⟩, archived] = .ok x' ∧ x.id = x'.id) ∧
      ∃ x y, build [archived, ending ⟨1483228799, 1000000000⟩] = .ok x ∧
        build [ending ⟨1483228800, 0⟩, archived] = .ok y ∧ x.id ≠ y.id := by
  have hleap : Instant.parse "2016-12-31T23:59:60Z" = .ok ⟨1483228799, 1000000000⟩ := by
    decide +kernel
  have hnext : Instant.parse "2017-01-01T00:00:00Z" = .ok ⟨1483228800, 0⟩ := by decide +kernel
  obtain ⟨hx, hx'⟩ := build_ending ⟨1483228799, 1000000000⟩
  obtain ⟨-, hy⟩ := build_ending ⟨1483228800, 0⟩
  constructor
  · have hswap : [archived, ending ⟨1483228799, 1000000000⟩].Perm
        [ending ⟨1483228799, 1000000000⟩, archived] := .swap _ _ _
    obtain ⟨-, hname, -⟩ :=
      id_eq_iff_perm hx hx' (isDated_pair hleap (.refl _)) (isDated_pair hleap hswap.symm)
    exact ⟨_, _, hx, hx', hname hswap⟩
  · have hdigests :
        Sha256.digest (Utf8.ofString (digestText ⟨[archived, ending ⟨1483228799, 1000000000⟩]⟩)) ≠
          Sha256.digest (Utf8.ofString (digestText ⟨[archived, ending ⟨1483228800, 0⟩]⟩)) := by
      decide +kernel
    obtain ⟨-, -, hid⟩ :=
      id_eq_iff_perm hx hy (isDated_pair hleap (.refl _)) (isDated_pair hnext (.swap _ _ _))
    refine ⟨_, _, hx, hy, fun h => ?_⟩
    have hmem := ((hid fun h => absurd h hdigests).1 h).mem_iff (a := ending ⟨1483228800, 0⟩)
    revert hmem
    decide

end LeapSecond

end Index

end CorridorTrust
