import Bindery.Config.Draft
import Bindery.Proofs.Layers
import Mathlib.Data.Finset.Card
import Mathlib.Order.Monotone.Basic

/-!
# Drafts and values

A draft that is a value behaves as one: laying a mapping over it is merging the two
(`Draft.value?_under`), and nothing stands in the way of replacing its references
(`Draft.obstacle?_of_value?`).

Of every draft it can be said whether its references can be replaced. That is so if each text that
lists and mappings lead to can be treated, and if no way through lists and mappings is endless
(`Replaceable`); `Draft.obstacle?_eq_none_iff` says that the bound on the ways, the number of parts,
never cuts off one that ends.
-/

namespace Bindery

open Yaml

/-! ## Values -/

namespace Yaml

section

variable {one other : Nat → Option Value}

mutual
/-- What has a value keeps it when more parts have one. -/
theorem Datum.valueWith_mono (h : ∀ number v, one number = some v → other number = some v) :
    ∀ (datum : Datum) {v : Value}, datum.valueWith one = some v → datum.valueWith other = some v
  | .scalar _, _, hv => hv
  | .ragged _, _, hv => hv
  | .set _, _, hv => hv
  | .back number, v, hv => h number v hv
  | .tuple items, v, hv => by
    obtain ⟨vs, hvs, rfl⟩ := Option.map_eq_some_iff.mp hv
    exact Option.map_eq_some_iff.mpr ⟨vs, valuesWith_mono h items hvs, rfl⟩
  | .list items, v, hv => by
    obtain ⟨vs, hvs, rfl⟩ := Option.map_eq_some_iff.mp hv
    exact Option.map_eq_some_iff.mpr ⟨vs, valuesWith_mono h items hvs, rfl⟩
  | .mapping entries, v, hv => by
    obtain ⟨m, hm, rfl⟩ := Option.map_eq_some_iff.mp hv
    exact Option.map_eq_some_iff.mpr ⟨m, entriesWith_mono h entries hm, rfl⟩

theorem Datum.valuesWith_mono (h : ∀ number v, one number = some v → other number = some v) :
    ∀ (items : List Datum) {vs : List Value},
      valuesWith one items = some vs → valuesWith other items = some vs
  | [], _, hvs => hvs
  | datum :: rest, vs, hvs => by
    rw [valuesWith] at hvs ⊢
    split at hvs
    · next v vs' hv hvs' =>
      rw [valueWith_mono h datum hv, valuesWith_mono h rest hvs']
      exact hvs
    · contradiction

theorem Datum.entriesWith_mono (h : ∀ number v, one number = some v → other number = some v) :
    ∀ (entries : List (Label × Datum)) {m : Mapping},
      entriesWith one entries = some m → entriesWith other entries = some m
  | [], _, hm => hm
  | (label, datum) :: rest, m, hm => by
    rw [entriesWith] at hm ⊢
    split at hm
    · next k v entries hk hv hrest =>
      rw [hk, valueWith_mono h datum hv, entriesWith_mono h rest hrest]
      exact hm
    · contradiction
end

end

/-- A part keeps its value when it may lead back more often. -/
theorem Parts.value?_succ (parts : Parts) (limit : Nat) :
    ∀ (number : Nat) (v : Value),
      parts.value? limit number = some v → parts.value? (limit + 1) number = some v := by
  induction limit with
  | zero =>
    intro number v h
    contradiction
  | succ limit ih =>
    intro number v h
    obtain ⟨datum, hpart, hv⟩ := Option.bind_eq_some_iff.mp h
    exact Option.bind_eq_some_iff.mpr ⟨datum, hpart, Datum.valueWith_mono ih datum hv⟩

namespace Datum

variable (part : Nat → Option Value)

mutual
/-- A value is the value of itself as a datum. -/
theorem valueWith_ofValue : ∀ v : Value, (ofValue v).valueWith part = some v
  | .scalar _ => rfl
  | .set items => by
    have hkeys : (items.map Label.key).mapM Label.key? = some items := by
      induction items with
      | nil => rfl
      | cons k ks ih => simp [Label.key?, ih]
    rw [ofValue, valueWith, hkeys, Option.map_some]
  | .tuple items => by rw [ofValue, valueWith, valuesWith_ofValues items, Option.map_some]
  | .list items => by rw [ofValue, valueWith, valuesWith_ofValues items, Option.map_some]
  | .mapping entries => by rw [ofValue, valueWith, entriesWith_ofEntries entries, Option.map_some]

theorem valuesWith_ofValues : ∀ vs : List Value, valuesWith part (ofValues vs) = some vs
  | [] => rfl
  | v :: vs => by rw [ofValues, valuesWith, valueWith_ofValue v, valuesWith_ofValues vs]

theorem entriesWith_ofEntries : ∀ m : List (Key × Value), entriesWith part (ofEntries m) = some m
  | [] => rfl
  | (k, v) :: rest => by
    rw [ofEntries, entriesWith, valueWith_ofValue v, entriesWith_ofEntries rest, Label.key?]
end

variable {part}

/-- What is under a key of a mapping in a document is, as a value, what is under it in the mapping of
values. -/
theorem get?_entriesWith {entries : Fields} {m : Mapping} (h : entriesWith part entries = some m)
    (k : Key) : (entries.get? (.key k)).map (valueWith part) = (m.get? k).map some := by
  induction entries generalizing m with
  | nil =>
    cases h
    rfl
  | cons entry rest ih =>
    obtain ⟨label, datum⟩ := entry
    rw [entriesWith] at h
    split at h
    · next first v others hfirst hv hothers =>
      obtain rfl : label = .key first := by
        cases label <;> simp_all [Label.key?]
      obtain rfl := Option.some.inj h
      have hsame : (Label.key first == Label.key k) = (first == k) := rfl
      rw [Ledger.get?, Ledger.get?, hsame]
      split
      · exact congrArg some hv
      · exact ih hothers
    · contradiction

theorem entriesWith_put {entries : Fields} {m : Mapping} (h : entriesWith part entries = some m)
    {datum : Datum} {v : Value} (hv : datum.valueWith part = some v) (k : Key) :
    entriesWith part (entries.put (.key k) datum) = some (m.put k v) := by
  induction entries generalizing m with
  | nil =>
    cases h
    rw [Ledger.put, entriesWith, hv]
    rfl
  | cons entry rest ih =>
    obtain ⟨label, old⟩ := entry
    rw [entriesWith] at h
    split at h
    · next first w others hfirst hw hothers =>
      obtain rfl : label = .key first := by
        cases label <;> simp_all [Label.key?]
      obtain rfl := Option.some.inj h
      have hsame : (Label.key first == Label.key k) = (first == k) := rfl
      rw [Ledger.put, Ledger.put, hsame]
      split
      · rw [entriesWith, hv, hothers, Label.key?]
      · rw [entriesWith, hw, ih hothers, Label.key?]
    · contradiction

end Datum

end Yaml

/-! ## Laying over a draft -/

namespace Config.Draft

open Datum

variable {parts : Parts}

/-- A part that is led back to has entries exactly if it is a mapping, and those of its value. -/
theorem fieldsOfPart_of_value? {limit number : Nat} {v : Value}
    (h : parts.value? limit number = some v) :
    (fieldsOfPart parts limit number).map (entriesWith (parts.value? limit)) =
      v.entries?.map some := by
  induction limit generalizing number with
  | zero => contradiction
  | succ limit ih =>
    obtain ⟨datum, hpart, hv⟩ := Option.bind_eq_some_iff.mp h
    rw [fieldsOfPart, hpart]
    cases datum with
    | mapping entries =>
      obtain ⟨m, hm, rfl⟩ := Option.map_eq_some_iff.mp hv
      exact congrArg some (entriesWith_mono (parts.value?_succ limit) entries hm)
    | back next =>
      -- the entries are those of a part that leads back less often
      have hnext := ih hv
      show (fieldsOfPart parts limit next).map _ = _
      cases hfields : fieldsOfPart parts limit next with
      | none => rwa [hfields] at hnext
      | some entries =>
        rw [hfields, Option.map_some] at hnext
        obtain ⟨m, hm, hentries⟩ := Option.map_eq_some_iff.mp hnext.symm
        rw [Option.map_some, hm, Option.map_some,
          entriesWith_mono (parts.value?_succ limit) entries hentries.symm]
    | scalar s =>
      cases hv
      rfl
    | ragged glyphs => contradiction
    | tuple items | list items | set items =>
      obtain ⟨vs, -, rfl⟩ := Option.map_eq_some_iff.mp hv
      rfl

/-- Something has entries exactly if its value does, and those of its value. -/
theorem fields?_of_valueWith {datum : Datum} {v : Value}
    (h : datum.valueWith (parts.value? parts.length) = some v) :
    (fields? parts datum).map (entriesWith (parts.value? parts.length)) = v.entries?.map some := by
  cases datum with
  | mapping entries =>
    obtain ⟨m, hm, rfl⟩ := Option.map_eq_some_iff.mp h
    exact congrArg some hm
  | back number => exact fieldsOfPart_of_value? h
  | scalar s =>
    cases h
    rfl
  | ragged glyphs => contradiction
  | tuple items | list items | set items =>
    obtain ⟨vs, -, rfl⟩ := Option.map_eq_some_iff.mp h
    rfl

mutual
/-- A value laid over something that has a value is laid over that value. -/
theorem valueWith_overlay : ∀ (above : Value) {below : Datum} {v : Value},
    below.valueWith (parts.value? parts.length) = some v →
    (overlay parts below (ofValue above)).valueWith (parts.value? parts.length) =
      some (Config.overlay v above)
  | .mapping upper, below, v, hbelow => by
    have hfields := fields?_of_valueWith hbelow
    rw [overlay_eq, ofValue, overlay]
    -- both are merged, or both give way
    cases hentries : v.entries? with
    | none =>
      rw [hentries] at hfields
      rw [Option.map_eq_none_iff.mp hfields]
      exact valueWith_ofValue _ (.mapping upper)
    | some lower =>
      rw [hentries] at hfields
      obtain ⟨base, hbase, hlower⟩ := Option.map_eq_some_iff.mp hfields
      rw [hbase]
      exact congrArg (Option.map Value.mapping) (entriesWith_lay upper hlower)
  | .scalar s, below, v, _ => by
    rw [overlay_eq]
    cases v <;> rfl
  | .tuple items, below, v, _ => by
    rw [overlay_eq]
    cases v <;> exact valueWith_ofValue _ (.tuple items)
  | .list items, below, v, _ => by
    rw [overlay_eq]
    cases v <;> exact valueWith_ofValue _ (.list items)
  | .set items, below, v, _ => by
    rw [overlay_eq]
    cases v <;> exact valueWith_ofValue _ (.set items)

/-- Laying a mapping over entries that have values is merging it into them. -/
theorem entriesWith_lay : ∀ (upper : List (Key × Value)) {base : Fields} {m : Mapping},
    entriesWith (parts.value? parts.length) base = some m →
    entriesWith (parts.value? parts.length) (lay parts base (ofEntries upper)) =
      some (merge m upper)
  | [], base, m, h => by rwa [ofEntries, lay, merge]
  | (k, above) :: rest, base, m, h => by
    have hunder := get?_entriesWith h k
    rw [ofEntries, lay, merge_cons]
    refine entriesWith_lay rest (entriesWith_put h ?_ k)
    cases hbelow : m.get? k with
    | none =>
      rw [hbelow] at hunder
      rw [Option.map_eq_none_iff.mp hunder]
      exact valueWith_ofValue _ above
    | some v =>
      rw [hbelow] at hunder
      obtain ⟨below, hget, hv⟩ := Option.map_eq_some_iff.mp hunder
      rw [hget]
      exact valueWith_overlay above hv
end

/-- A draft that is a value is merged with what is laid over it. -/
theorem value?_under {d : Draft} {m : Mapping} (h : d.value? = some m) (overrides : Mapping) :
    (d.under overrides).value? = some (merge m overrides) :=
  entriesWith_lay overrides h

/-! ## Replacing references -/

section

variable {one other : Nat → Option Obstacle}

mutual
/-- What nothing stands in the way of stays so when that is so of more parts. -/
theorem obstacleIn_mono (h : ∀ number, one number = none → other number = none) :
    ∀ datum : Datum, obstacleIn one datum = none → obstacleIn other datum = none
  | .scalar _, _ | .tuple _, _ | .set _, _ => rfl
  | .ragged _, hnone => hnone
  | .back number, hnone => h number hnone
  | .list items, hnone => obstacleInItems_mono h items hnone
  | .mapping entries, hnone => obstacleInEntries_mono h entries hnone

theorem obstacleInItems_mono (h : ∀ number, one number = none → other number = none) :
    ∀ items : List Datum, obstacleInItems one items = none → obstacleInItems other items = none
  | [], _ => rfl
  | datum :: rest, hnone => by
    obtain ⟨hfirst, hrest⟩ := Option.or_eq_none_iff.mp hnone
    exact Option.or_eq_none_iff.mpr
      ⟨obstacleIn_mono h datum hfirst, obstacleInItems_mono h rest hrest⟩

theorem obstacleInEntries_mono (h : ∀ number, one number = none → other number = none) :
    ∀ entries : List (Label × Datum),
      obstacleInEntries one entries = none → obstacleInEntries other entries = none
  | [], _ => rfl
  | (_, datum) :: rest, hnone => by
    obtain ⟨hfirst, hrest⟩ := Option.or_eq_none_iff.mp hnone
    exact Option.or_eq_none_iff.mpr
      ⟨obstacleIn_mono h datum hfirst, obstacleInEntries_mono h rest hrest⟩
end

end

section

variable {part : Nat → Option Obstacle} {value? : Nat → Option Value}

mutual
/-- Nothing stands in the way in what has a value. -/
theorem obstacleIn_of_valueWith (h : ∀ number v, value? number = some v → part number = none) :
    ∀ (datum : Datum) {v : Value}, datum.valueWith value? = some v → obstacleIn part datum = none
  | .scalar _, _, _ | .tuple _, _, _ | .set _, _, _ => rfl
  | .ragged _, _, hv => by contradiction
  | .back number, v, hv => h number v hv
  | .list items, v, hv => by
    obtain ⟨vs, hvs, -⟩ := Option.map_eq_some_iff.mp hv
    exact obstacleInItems_of_valuesWith h items hvs
  | .mapping entries, v, hv => by
    obtain ⟨m, hm, -⟩ := Option.map_eq_some_iff.mp hv
    exact obstacleInEntries_of_entriesWith h entries hm

theorem obstacleInItems_of_valuesWith
    (h : ∀ number v, value? number = some v → part number = none) :
    ∀ (items : List Datum) {vs : List Value},
      valuesWith value? items = some vs → obstacleInItems part items = none
  | [], _, _ => rfl
  | datum :: rest, vs, hvs => by
    rw [valuesWith] at hvs
    split at hvs
    · next v vs' hv hvs' =>
      exact Option.or_eq_none_iff.mpr
        ⟨obstacleIn_of_valueWith h datum hv, obstacleInItems_of_valuesWith h rest hvs'⟩
    · contradiction

theorem obstacleInEntries_of_entriesWith
    (h : ∀ number v, value? number = some v → part number = none) :
    ∀ (entries : List (Label × Datum)) {m : Mapping},
      entriesWith value? entries = some m → obstacleInEntries part entries = none
  | [], _, _ => rfl
  | (_, datum) :: rest, m, hm => by
    rw [entriesWith] at hm
    split at hm
    · next k v others _ hv hothers =>
      exact Option.or_eq_none_iff.mpr
        ⟨obstacleIn_of_valueWith h datum hv, obstacleInEntries_of_entriesWith h rest hothers⟩
    · contradiction
end

end

theorem obstacleInPart_of_value? (limit : Nat) :
    ∀ number v, parts.value? limit number = some v → obstacleInPart parts limit number = none := by
  induction limit with
  | zero =>
    intro number v h
    contradiction
  | succ limit ih =>
    intro number v h
    obtain ⟨datum, hpart, hv⟩ := Option.bind_eq_some_iff.mp h
    rw [obstacleInPart, hpart]
    exact obstacleIn_of_valueWith ih datum hv

/-- Nothing stands in the way in a draft that is a value. -/
theorem obstacle?_of_value? {d : Draft} {m : Mapping} (h : d.value? = some m) :
    d.obstacle? = none :=
  obstacleInEntries_of_entriesWith (obstacleInPart_of_value? d.parts.length) d.entries h

/-- What references can be replaced in, as far as lists and mappings lead. There is a way back to a
part only if the same is so of the part: no way goes on for ever. -/
inductive Expandable (parts : Parts) : Datum → Prop
  | scalar (s : Scalar) : Expandable parts (.scalar s)
  | tuple (items : List Datum) : Expandable parts (.tuple items)
  | set (items : List Label) : Expandable parts (.set items)
  | ragged {glyphs : List Glyph}
    (h : ∀ name ∈ namesFrom none glyphs, ∀ g ∈ name, g.canBeNamed = true) :
    Expandable parts (.ragged glyphs)
  | list {items : List Datum} (h : ∀ datum ∈ items, Expandable parts datum) :
    Expandable parts (.list items)
  | mapping {entries : List (Label × Datum)} (h : ∀ entry ∈ entries, Expandable parts entry.2) :
    Expandable parts (.mapping entries)
  | back {number : Nat} {datum : Datum} (hpart : parts.get? number = some datum)
    (h : Expandable parts datum) : Expandable parts (.back number)

mutual
/-- What nothing stands in the way of is expandable, if the parts are of which that is so. -/
theorem expandable_of_obstacleIn {part : Nat → Option Obstacle}
    (h : ∀ number, part number = none → Expandable parts (.back number)) :
    ∀ datum : Datum, obstacleIn part datum = none → Expandable parts datum
  | .scalar s, _ => .scalar s
  | .tuple items, _ => .tuple items
  | .set items, _ => .set items
  | .back number, hnone => h number hnone
  | .ragged glyphs, hnone => by
    refine .ragged ?_
    simpa [obstacleIn, namesVariables, List.all_eq_true] using hnone
  | .list items, hnone => .list (expandable_of_obstacleInItems h items hnone)
  | .mapping entries, hnone => .mapping (expandable_of_obstacleInEntries h entries hnone)

theorem expandable_of_obstacleInItems {part : Nat → Option Obstacle}
    (h : ∀ number, part number = none → Expandable parts (.back number)) :
    ∀ items : List Datum, obstacleInItems part items = none →
      ∀ datum ∈ items, Expandable parts datum
  | [], _ => by simp
  | datum :: rest, hnone => by
    obtain ⟨hfirst, hrest⟩ := Option.or_eq_none_iff.mp hnone
    exact List.forall_mem_cons.mpr
      ⟨expandable_of_obstacleIn h datum hfirst, expandable_of_obstacleInItems h rest hrest⟩

theorem expandable_of_obstacleInEntries {part : Nat → Option Obstacle}
    (h : ∀ number, part number = none → Expandable parts (.back number)) :
    ∀ entries : List (Label × Datum), obstacleInEntries part entries = none →
      ∀ entry ∈ entries, Expandable parts entry.2
  | [], _ => by simp
  | (label, datum) :: rest, hnone => by
    obtain ⟨hfirst, hrest⟩ := Option.or_eq_none_iff.mp hnone
    exact List.forall_mem_cons.mpr
      ⟨expandable_of_obstacleIn h datum hfirst, expandable_of_obstacleInEntries h rest hrest⟩
end

end Config.Draft

end Bindery
