import CorridorTrust.Proofs.Publication.Lookup
import CorridorTrust.Proofs.Storage.Containment

namespace CorridorTrust

open Json (Value)

section Least

variable {α : Type} [LinearOrder α] {as : List α} {p q : α → Prop}

lemma first_iff_least (h : as.Pairwise (· < ·)) :
    (∃ before a after, as = before ++ a :: after ∧ (∀ b ∈ before, p b) ∧ q a) ↔
      ∃ a ∈ as, q a ∧ ∀ b ∈ as, b < a → p b := by
  constructor
  · rintro ⟨before, a, after, rfl, hbefore, ha⟩
    refine ⟨a, by simp, ha, fun b hb hlt => ?_⟩
    obtain ⟨-, hafter, -⟩ := List.pairwise_append.1 h
    rcases List.mem_append.1 hb with hb | hb
    · exact hbefore b hb
    · rcases List.mem_cons.1 hb with rfl | hb
      · exact absurd hlt (lt_irrefl b)
      · exact absurd hlt ((List.pairwise_cons.1 hafter).1 b hb).asymm
  · rintro ⟨a, ha, hq, hless⟩
    obtain ⟨before, after, rfl⟩ := List.append_of_mem ha
    refine ⟨before, a, after, rfl, fun b hb => ?_, hq⟩
    exact hless b (by simp [hb]) ((List.pairwise_append.1 h).2.2 b hb a List.mem_cons_self)

end Least

namespace Folder

variable {t : FileTree} {folder r : String} {bs : Bytes} {fault : Fault}

structure Offers (t : FileTree) (folder reference : String) (bs : Bytes) : Prop where
  inside : Path.isReference reference = true
  file : t.read (Path.join folder reference) = .ok bs
  json : ∃ v, Value.read? bs = some v

inductive Refuses (t : FileTree) (folder reference : String) : Fault → Prop
  | outside (h : Path.isReference reference = false) :
      Refuses t folder reference (.invalidIdentifier (.reference reference))
  | missing (hin : Path.isReference reference = true)
      (hfile : t.read (Path.join folder reference) = .error .missing) :
      Refuses t folder reference (.notFound (.content (Path.join folder reference)))
  | unreadable {cause : FileFault} (hin : Path.isReference reference = true)
      (hfile : t.read (Path.join folder reference) = .error cause) (hcause : cause ≠ .missing) :
      Refuses t folder reference (.unreadable reference cause)
  | notJson {bs : Bytes} (hin : Path.isReference reference = true)
      (hfile : t.read (Path.join folder reference) = .ok bs) (hjson : Value.read? bs = none) :
      Refuses t folder reference (.invalidFormat (.fixture reference))

lemma Offers.fetch_eq (h : Offers t folder r bs) : Store.fetch (Folder.read ⟨folder⟩ t) r = .ok bs := by
  obtain ⟨v, hv⟩ := h.json
  rw [Store.fetch, ((serves h.inside).ok_iff bs).2 h.file, Sequence.ok_bind, hv]
  rfl

lemma Refuses.fetch_eq (h : Refuses t folder r fault) :
    Store.fetch (Folder.read ⟨folder⟩ t) r = .error fault := by
  cases h with
  | outside h => simp [Store.fetch, read, resolve, h]
  | missing hin hfile => rw [Store.fetch, (serves hin).missing_iff.2 hfile, Sequence.error_bind]
  | @unreadable cause hin hfile hcause =>
    rw [Store.fetch, ((serves hin).unreadable_iff cause hcause).2 hfile, Sequence.error_bind]
  | notJson hin hfile hjson =>
    rw [Store.fetch, ((serves hin).ok_iff _).2 hfile, Sequence.ok_bind, hjson]
    rfl

lemma offers_or_refuses (t : FileTree) (folder r : String) :
    (∃ bs, Offers t folder r bs) ∨ ∃ fault, Refuses t folder r fault := by
  cases hin : Path.isReference r with
  | false => exact .inr ⟨_, .outside hin⟩
  | true =>
    cases hfile : t.read (Path.join folder r) with
    | error cause =>
      by_cases hcause : cause = .missing
      · subst hcause
        exact .inr ⟨_, .missing hin hfile⟩
      · exact .inr ⟨_, .unreadable hin hfile hcause⟩
    | ok bs =>
      cases hjson : Value.read? bs with
      | none => exact .inr ⟨_, .notJson hin hfile hjson⟩
      | some v => exact .inl ⟨bs, hin, hfile, v, hjson⟩

lemma fetch_eq_ok_iff : Store.fetch (Folder.read ⟨folder⟩ t) r = .ok bs ↔ Offers t folder r bs := by
  constructor
  · intro h
    rcases offers_or_refuses t folder r with ⟨bs', hbs'⟩ | ⟨fault, hfault⟩
    · obtain rfl := Except.ok.inj (hbs'.fetch_eq.symm.trans h)
      exact hbs'
    · cases hfault.fetch_eq.symm.trans h
  · exact Offers.fetch_eq

lemma fetch_eq_error_iff :
    Store.fetch (Folder.read ⟨folder⟩ t) r = .error fault ↔ Refuses t folder r fault := by
  constructor
  · intro h
    rcases offers_or_refuses t folder r with ⟨bs, hbs⟩ | ⟨fault', hfault'⟩
    · cases hbs.fetch_eq.symm.trans h
    · obtain rfl := Except.error.inj (hfault'.fetch_eq.symm.trans h)
      exact hfault'
  · exact Refuses.fetch_eq

end Folder

namespace Manifest

variable {m : Manifest} {t : FileTree} {folder : String} {fault : Fault}

def Lacks (t : FileTree) (folder : String) (m : Manifest) (fault : Fault) : Prop :=
  ∃ e ∈ m.tokens, Folder.Refuses t folder e.content fault ∧
    ∀ e' ∈ m.tokens, Utf8.ofString e'.content < Utf8.ofString e.content →
      ∃ bs, Folder.Offers t folder e'.content bs

lemma preload_eq_error_iff :
    Store.preload (Folder.read ⟨folder⟩ t) m.references = .error fault ↔ m.Lacks t folder fault := by
  rw [Store.preload_eq_error_iff m.nodup_references, first_iff_least m.references_increasing]
  simp only [Folder.fetch_eq_ok_iff, Folder.fetch_eq_error_iff, Lacks, Utf8.ofString_lt_ofString_iff]
  constructor
  · rintro ⟨r, hr, hrefused, hless⟩
    obtain ⟨e, he, rfl⟩ := exists_mem_references.1 hr
    exact ⟨e, he, hrefused, fun e' he' => hless _ (mem_references he')⟩
  · rintro ⟨e, he, hrefused, hless⟩
    refine ⟨e.content, mem_references he, hrefused, fun r hr => ?_⟩
    obtain ⟨e', he', rfl⟩ := exists_mem_references.1 hr
    exact hless e' he'

lemma exists_preload_iff : (∃ store, Store.preload (Folder.read ⟨folder⟩ t) m.references = .ok store) ↔
    ∀ e ∈ m.tokens, ∃ bs, Folder.Offers t folder e.content bs := by
  constructor
  · rintro ⟨store, hstore⟩ e he
    obtain ⟨bs, hbs⟩ := (Store.holds_of_preload m.nodup_references hstore).each _ (mem_references he)
    exact ⟨bs, Folder.fetch_eq_ok_iff.1 hbs⟩
  · intro h
    cases hstore : Store.preload (Folder.read ⟨folder⟩ t) m.references with
    | ok store => exact ⟨store, rfl⟩
    | error fault =>
      obtain ⟨e, he, hrefused, -⟩ := preload_eq_error_iff.1 hstore
      obtain ⟨bs, hbs⟩ := h e he
      cases hbs.fetch_eq.symm.trans hrefused.fetch_eq

end Manifest

end CorridorTrust
