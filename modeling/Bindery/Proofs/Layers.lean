import Bindery.Config.Expansion
import Bindery.Config.Merge
import Bindery.Proofs.KeyEquality

/-!
# Layers and their expansion

What is under a key of two layers: what the upper one has there, laid over what the lower one has
(`get?_merge`). The keys of the lower one stay where they are, and the new ones follow
(`map_fst_merge`). Expansion changes what is under the keys and leaves the keys alone
(`get?_expandEntries`).
-/

namespace Bindery

/-- The entries of a mapping. -/
def Value.entries? : Value → Option Mapping
  | .mapping entries => some entries
  | _ => none

theorem Value.entries?_eq_some_iff {v : Value} {entries : Mapping} :
    v.entries? = some entries ↔ v = .mapping entries := by
  cases v <;> simp [Value.entries?]

namespace Config

open Ledger

/-! ## Layers -/

/-- A mapping in which no key comes twice, nor in a mapping under one of its keys, at any depth. -/
inductive Layer : Mapping → Prop
  | intro {entries : Mapping} (distinct : entries.Distinct)
      (inside : ∀ key inner, entries.get? key = some (.mapping inner) → Layer inner) : Layer entries

theorem Layer.distinct {entries : Mapping} : Layer entries → entries.Distinct
  | .intro distinct _ => distinct

theorem Layer.inside {entries inner : Mapping} {key : Key} :
    Layer entries → entries.get? key = some (.mapping inner) → Layer inner
  | .intro _ inside => inside key inner

/-- Whether a value is such a mapping, if it is a mapping. -/
def Layered (v : Value) : Prop := ∀ entries, v.entries? = some entries → Layer entries

theorem layered_mapping {entries : Mapping} (h : Layer entries) : Layered (.mapping entries) := by
  intro others hothers
  exact Option.some.inj hothers ▸ h

theorem Layer.nil : Layer [] :=
  .intro List.Pairwise.nil fun key inner h => by contradiction

theorem Layer.cons {key : Key} {value : Value} {rest : Mapping} (hrest : Layer rest)
    (hkey : ∀ entry ∈ rest, (key == entry.1) = false) (hvalue : Layered value) :
    Layer ((key, value) :: rest) := by
  refine .intro (List.pairwise_cons.mpr ⟨hkey, hrest.distinct⟩) fun other inner hinner => ?_
  rw [Ledger.get?] at hinner
  split at hinner
  · obtain rfl := Option.some.inj hinner
    exact hvalue inner rfl
  · exact hrest.inside hinner

/-- Two mappings are merged, and any other value is kept as it is laid on. -/
theorem overlay_eq (below above : Value) :
    overlay below above =
      match below.entries?, above.entries? with
      | some lower, some upper => .mapping (merge lower upper)
      | _, _ => above := by
  cases above with
  | mapping upper => cases below <;> simp [overlay, Value.entries?]
  | _ => cases below <;> simp [overlay, Value.entries?]

/-- A value laid over what is there, if anything is. -/
def laidOver (below : Option Value) (above : Value) : Value :=
  match below with
  | some below => overlay below above
  | none => above

theorem merge_cons (base : Mapping) (key : Key) (value : Value) (rest : List (Key × Value)) :
    merge base ((key, value) :: rest) =
      merge (base.put key (laidOver (base.get? key) value)) rest := by
  rw [merge]
  rfl

/-- A text takes the place of whatever is below. -/
@[simp] theorem laidOver_text (below : Option Value) (s : String) :
    laidOver below (.text s) = .text s := by
  cases below with
  | none => rfl
  | some below =>
    rw [laidOver, overlay]
    intro entries h
    contradiction

/-- What is under a key of two layers. -/
theorem get?_merge (key : Key) {upper : Mapping} (hupper : upper.Distinct) (base : Mapping) :
    (merge base upper).get? key =
      match upper.get? key with
      | some above => some (laidOver (base.get? key) above)
      | none => base.get? key := by
  induction upper generalizing base with
  | nil => rw [merge, get?_nil]
  | cons entry rest ih =>
    obtain ⟨first, value⟩ := entry
    obtain ⟨hfirst, hrest⟩ := List.pairwise_cons.mp hupper
    -- the first entry is put in place, and the rest is laid over what results
    rw [merge_cons, ih hrest, get?_put, Ledger.get?]
    by_cases hkey : first == key
    · -- the rest does not touch the key again
      have hnone : Ledger.get? key rest = none := by
        rw [get?_eq_none_iff]
        intro other hother
        rw [← BEq.congr_right hkey, BEq.comm]
        exact hfirst other hother
      rw [hnone, if_pos hkey, if_pos hkey, get?_congr hkey]
    · rw [if_neg hkey, if_neg hkey]

/-- Something is under a key of two layers if it is in one of them. -/
theorem contains_merge (key : Key) {upper : Mapping} (hupper : upper.Distinct) (base : Mapping) :
    (merge base upper).contains key = (base.contains key || upper.contains key) := by
  unfold Ledger.contains
  rw [get?_merge key hupper]
  cases upper.get? key with
  | none => simp
  | some above => simp

/-- The keys of the lower layer stay as they are, and the new ones follow. -/
theorem map_fst_merge {upper : Mapping} (hupper : upper.Distinct) (base : Mapping) :
    (merge base upper).map Prod.fst =
      base.map Prod.fst ++ (upper.map Prod.fst).filter fun key => !base.contains key := by
  induction upper generalizing base with
  | nil => rw [merge, List.map_nil, List.filter_nil, List.append_nil]
  | cons entry rest ih =>
    obtain ⟨key, value⟩ := entry
    obtain ⟨hfirst, hrest⟩ := List.pairwise_cons.mp hupper
    -- the entry that is put first makes none of the keys behind it known
    have hbehind : ((rest.map Prod.fst).filter fun other =>
        !(base.put key (laidOver (base.get? key) value)).contains other) =
        (rest.map Prod.fst).filter fun other => !base.contains other := by
      refine List.filter_congr fun other hother => ?_
      obtain ⟨later, hlater, rfl⟩ := List.mem_map.mp hother
      rw [Ledger.contains, get?_put, hfirst later hlater]
      rfl
    rw [merge_cons, ih hrest, hbehind, map_fst_put, List.map_cons, List.filter_cons]
    cases hknown : base.contains key with
    | true => rfl
    | false => simp

/-- Two layers have distinct keys if the lower one has. -/
theorem distinct_merge {base : Mapping} (hbase : base.Distinct) (upper : Mapping) :
    (merge base upper).Distinct := by
  induction upper generalizing base with
  | nil => rwa [merge]
  | cons entry rest ih =>
    rw [merge_cons]
    exact ih (hbase.put _ _)

/-- New keys follow in their order. -/
private theorem merge_append {base upper : Mapping} (h : (base ++ upper).Distinct) :
    merge base upper = base ++ upper := by
  induction upper generalizing base with
  | nil => rw [merge, List.append_nil]
  | cons entry rest ih =>
    obtain ⟨key, value⟩ := entry
    have hnone : base.get? key = none := by
      rw [get?_eq_none_iff]
      intro other hother
      exact (List.pairwise_append.mp h).2.2 other hother _ List.mem_cons_self
    -- nothing is there to be replaced, so the entry goes to the end
    have happend : base ++ (key, value) :: rest = (base ++ [(key, value)]) ++ rest := by
      rw [List.append_assoc, List.singleton_append]
    rw [merge_cons, hnone, put_of_get?_eq_none hnone, happend]
    exact ih (happend ▸ h)

/-- A layer over nothing is that layer. -/
theorem merge_nil_left {upper : Mapping} (hupper : upper.Distinct) : merge [] upper = upper :=
  @merge_append [] upper hupper

/-! ## Expansion -/

/-- Each entry is expanded in its place. -/
theorem expandEntries_eq_map (env : Environment) (entries : Mapping) :
    expandEntries env entries = entries.map fun entry => (entry.1, expand env entry.2) := by
  induction entries with
  | nil => rw [expandEntries, List.map_nil]
  | cons entry rest ih => rw [expandEntries, List.map_cons, ih]

/-- What is under a key is expanded there. -/
theorem get?_expandEntries (env : Environment) (key : Key) (entries : Mapping) :
    (expandEntries env entries).get? key = (entries.get? key).map (expand env) := by
  rw [expandEntries_eq_map]
  induction entries with
  | nil => rfl
  | cons entry rest ih =>
    rw [List.map_cons, Ledger.get?, Ledger.get?, ih]
    split <;> rfl

@[simp] theorem expand_text (env : Environment) (s : String) :
    expand env (.text s) = .text (expandText env s) := by
  rw [Value.text, expand]

end Config

end Bindery
