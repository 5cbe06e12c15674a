import Bindery.Config.File
import Mathlib.Tactic

/-!
# Keys of documents

A mapping is built by writing its entries one after another, and no scalar is read as a mapping. So
no key comes twice in a mapping that a document is (`Yaml.distinct_of_document`), nor in the one
that a file holds (`Config.distinct_of_fileMapping`), which therefore is the same when it is laid
over nothing (`Config.overNothing_of_fileMapping`).
-/

namespace Bindery

namespace Yaml

/-! ## Scalars -/

theorem eq_ok_of_mapError {α ε δ : Type} {f : ε → δ} {x : Except ε α} {a : α}
    (h : x.mapError f = .ok a) : x = .ok a := by
  cases x with
  | error e => contradiction
  | ok b => exact congrArg Except.ok (Except.ok.inj h)

/-- A scalar is read as one, or as a row that is no text, but never as a mapping. -/
theorem readScript_ne_mapping {tag : Tag} {script : Script} (entries : Fields) :
    readScript tag script ≠ .ok (.mapping entries) := by
  cases script with
  | text s =>
    show (readText tag s).map Datum.scalar ≠ _
    cases readText tag s <;> simp [Except.map]
  | ragged glyphs => cases tag <;> simp [readScript, readRagged]

theorem scalarDatum_ne_mapping {level : Nat} {tag : Tag} {node : Node} (entries : Fields) :
    scalarDatum level tag node ≠ .ok (.mapping entries) := by
  intro h
  unfold scalarDatum at h
  split at h
  · contradiction
  · split_ifs at h
    exact readScript_ne_mapping entries (eq_ok_of_mapError h)
  · exact readScript_ne_mapping entries (eq_ok_of_mapError h)

/-! ## Mappings -/

private theorem map_list_ne_mapping (items : Built (List Datum)) (entries : Fields) :
    items.map Datum.list ≠ .ok (.mapping entries) := by
  cases items <;> simp [Except.map]

/-- A node of entries whose tag is none of scalars is a mapping or a set that is written entry by
entry. -/
theorem exists_ofEntries_of_build {ways : Ways} {level number : Nat} {tag : Tag}
    {entries : List (Node × Node)} {d : Datum} (hscalar : ¬ tag.isOfScalar)
    (h : build ways level (.mapping number tag entries) = .ok d) :
    ∃ all : Fields, d = .mapping (Ledger.ofEntries all) ∨
      d = .set ((Ledger.ofEntries all).map Prod.fst) := by
  unfold build at h
  rw [if_neg hscalar] at h
  split at h
  case h_3 => contradiction
  -- mappings and sets are written the same way, and a set keeps the keys alone
  all_goals
    split at h
    · contradiction
    split at h
    · contradiction
    next all hall =>
      simp only [reduceCtorEq, if_true, if_false, Except.ok.injEq] at h
      exact ⟨all, by simp [← h]⟩

/-- No key comes twice in a mapping that a node stands for. -/
theorem distinct_of_build {ways : Ways} {level : Nat} {node : Node} {entries : Fields}
    (h : build ways level node = .ok (.mapping entries)) : entries.Distinct := by
  cases node with
  | loop number isMapping =>
    unfold build wayBack at h
    split at h
    · contradiction
    · simp at h
  | scalar tag script =>
    unfold build at h
    split_ifs at h
    · exact absurd (eq_ok_of_mapError h) (readScript_ne_mapping entries)
    · contradiction
  | sequence number tag items =>
    unfold build at h
    split at h
    · exact absurd h (map_list_ne_mapping _ entries)
    · exact absurd h (map_list_ne_mapping _ entries)
    · exact absurd h (map_list_ne_mapping _ entries)
    · contradiction
  | mapping number tag inner =>
    by_cases hscalar : tag.isOfScalar
    · -- under its value key it may have a scalar, and stands for that
      unfold build at h
      rw [if_pos hscalar] at h
      exact absurd h (scalarDatum_ne_mapping entries)
    · obtain ⟨all, hmapping | hset⟩ := exists_ofEntries_of_build hscalar h
      · rw [Datum.mapping.inj hmapping]
        exact Ledger.distinct_ofEntries all
      · contradiction

/-- No key comes twice in a mapping that a document is. -/
theorem distinct_of_document {source : Source} {d : Document} {entries : Fields}
    (h : document source = .ok d) (htop : d.top = .mapping entries) : entries.Distinct := by
  unfold document at h
  split at h
  · contradiction
  · cases h
    contradiction
  · next g _ =>
    have hbuilt := eq_ok_of_mapError h
    unfold Graph.document at hbuilt
    simp only at hbuilt
    split at hbuilt
    · contradiction
    · next top hbuild =>
      cases hbuilt
      obtain rfl : top = .mapping entries := htop
      exact distinct_of_build hbuild

end Yaml

namespace Config

open Yaml

/-- Entries with distinct keys are put one behind the other when they are laid over others. -/
theorem Draft.lay_of_distinct (parts : Parts) {base upper : Fields}
    (h : Ledger.Distinct (base ++ upper)) : Draft.lay parts base upper = base ++ upper := by
  induction upper generalizing base with
  | nil => rw [Draft.lay, List.append_nil]
  | cons entry rest ih =>
    obtain ⟨label, datum⟩ := entry
    have hnone : base.get? label = none := by
      rw [Ledger.get?_eq_none_iff]
      intro earlier hearlier
      exact (List.pairwise_append.mp h).2.2 earlier hearlier _ List.mem_cons_self
    rw [Draft.lay, hnone]
    simp only
    rw [Ledger.put_of_get?_eq_none hnone, ih (by rwa [List.append_assoc]), List.append_assoc]
    rfl

theorem distinct_of_mappingOf {path : String} {d : Document} {draft : Draft}
    (hd : ∀ entries : Fields, d.top = .mapping entries → entries.Distinct)
    (h : mappingOf path d = .ok draft) : draft.entries.Distinct := by
  unfold mappingOf at h
  split at h
  · next entries htop =>
    cases h
    exact hd entries htop
  · split_ifs at h
    cases h
    exact List.Pairwise.nil

/-- No key comes twice in the mapping that a file holds. -/
theorem distinct_of_fileMapping {path : String} {finding : FileTree.Finding} {draft : Draft}
    (h : fileMapping path finding = .ok draft) : draft.entries.Distinct := by
  unfold fileMapping at h
  split at h
  · unfold readContents at h
    split at h
    · next d hd => exact distinct_of_mappingOf (fun _ => distinct_of_document hd) h
    all_goals contradiction
  · contradiction
  · cases h
    exact List.Pairwise.nil
  · contradiction
  · contradiction

/-- The mapping in a file is the same when it is laid over nothing. -/
theorem overNothing_of_fileMapping {path : String} {finding : FileTree.Finding} {draft : Draft}
    (h : fileMapping path finding = .ok draft) : draft.overNothing = draft := by
  unfold Draft.overNothing
  rw [Draft.lay_of_distinct]
  · rfl
  · exact distinct_of_fileMapping h

end Config

end Bindery
