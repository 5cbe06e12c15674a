import Bindery.Proofs.LayerPaths

/-!
# The algebra of layers

Layers with nothing in them change nothing, a layer changes nothing over itself, and laying it on
once more, on either side, changes nothing either. Three layers may be merged in any grouping, unless
at some path the middle one hides a mapping from a mapping (`Hides`). All this is `merge_laws`.

Two merges are equal if they have the same keys in the same order and the same under each of them, so
each law is one about keys, and one about values that are laid over each other.
-/

namespace Bindery.Config

open Ledger Value

variable {a b c : Mapping}

/-! ## Keys -/

/-- No key of a layer is new to it. -/
theorem filter_own_keys (entries : Mapping) :
    ((entries.map Prod.fst).filter fun key => !entries.contains key) = [] := by
  rw [List.filter_eq_nil_iff]
  intro key hkey
  have hcontains : entries.contains key = true := by
    rw [contains_eq_any, List.any_eq_true]
    exact ⟨key, hkey, BEq.rfl⟩
  rw [hcontains]
  decide

/-- What is new to two layers is new to each of them. -/
theorem filter_new_of_merge (hb : b.Distinct) (keys : List Key) :
    (keys.filter fun key => !(merge a b).contains key) =
      (keys.filter fun key => !b.contains key).filter fun key => !a.contains key := by
  rw [List.filter_filter]
  refine List.filter_congr fun key _ => ?_
  rw [contains_merge key hb, Bool.not_or]

/-! ## Values -/

/-- Two mappings are merged; otherwise one of the two is no mapping, and the upper one is kept. -/
theorem laidOver_cases (below : Option Value) (above : Value) :
    (∃ lower upper, below = some (.mapping lower) ∧ above = .mapping upper ∧
      laidOver below above = .mapping (merge lower upper)) ∨
    (below.bind entries? = none ∨ above.entries? = none) ∧ laidOver below above = above := by
  cases hlower : below.bind entries? with
  | none => exact .inr ⟨.inl rfl, laidOver_of_not_mappings (.inl hlower)⟩
  | some lower =>
    cases hupper : above.entries? with
    | none => exact .inr ⟨.inr rfl, laidOver_of_not_mappings (.inr hupper)⟩
    | some upper =>
      obtain ⟨v, rfl, hv⟩ := Option.bind_eq_some_iff.mp hlower
      obtain rfl := entries?_eq_some_iff.mp hv
      obtain rfl := entries?_eq_some_iff.mp hupper
      exact .inl ⟨lower, upper, rfl, rfl, laidOver_mapping lower upper⟩

/-- A value over itself is that value, if this is so of mappings. -/
theorem laidOver_self {v : Value} (h : ∀ inner, v = .mapping inner → merge inner inner = inner) :
    laidOver (some v) v = v := by
  rcases laidOver_cases (some v) v with ⟨lower, upper, hlower, rfl, hmerge⟩ | ⟨-, hkept⟩
  · obtain rfl := Value.mapping.inj (Option.some.inj hlower)
    rw [hmerge, h upper rfl]
  · exact hkept

/-! ## A layer over itself -/

/-- A layer changes nothing over itself. -/
theorem merge_self (ha : Layer a) : merge a a = a := by
  -- the induction is on the nesting: a mapping under a key is a layer in turn
  induction ha with
  | @intro entries distinct inside ih =>
    apply (distinct_merge distinct entries).ext
    · rw [map_fst_merge distinct, filter_own_keys, List.append_nil]
    · intro key
      rw [get?_merge key distinct]
      cases hkey : entries.get? key with
      | none => rfl
      | some v =>
        refine congrArg some (laidOver_self fun inner hinner => ih key inner ?_)
        rw [hkey, hinner]

/-- A layer changes nothing where it has been laid on before. -/
theorem merge_merge_self (ha : Layer a) (hb : Layer b) : merge (merge a b) b = merge a b := by
  induction hb generalizing a with
  | @intro upper distinct inside ih =>
    have hmerged := distinct_merge ha.distinct upper
    apply (distinct_merge hmerged upper).ext
    · rw [map_fst_merge distinct, filter_new_of_merge distinct, filter_own_keys, List.filter_nil,
        List.append_nil]
    · intro key
      rw [get?_merge key distinct (merge a upper), get?_merge key distinct a]
      cases hkey : upper.get? key with
      | none => rfl
      | some above =>
        refine congrArg some ?_
        show laidOver (some (laidOver (a.get? key) above)) above = laidOver (a.get? key) above
        rcases laidOver_cases (a.get? key) above with ⟨lower, inner, hlower, rfl, hmerge⟩ | ⟨-, hkept⟩
        · rw [hmerge, laidOver_mapping, ih key inner hkey (ha.inside hlower)]
        · rw [hkept]
          exact laidOver_self fun inner hinner => merge_self (inside key inner (hinner ▸ hkey))

/-- A layer changes nothing below what was laid over it. -/
theorem merge_self_merge (ha : Layer a) (hb : Layer b) : merge a (merge a b) = merge a b := by
  induction hb generalizing a with
  | @intro upper distinct inside ih =>
    have hmerged := distinct_merge ha.distinct upper
    apply (distinct_merge ha.distinct _).ext
    · rw [map_fst_merge hmerged, map_fst_merge distinct, List.filter_append, filter_own_keys,
        List.nil_append, List.filter_filter]
      simp only [Bool.and_self]
    · intro key
      rw [get?_merge key hmerged, get?_merge key distinct a]
      cases hkey : upper.get? key with
      | none =>
        cases hlower : a.get? key with
        | none => rfl
        | some below =>
          -- under a key of the lower layer alone it is laid over itself
          refine congrArg some (laidOver_self fun inner hinner => merge_self ?_)
          exact ha.inside (hinner ▸ hlower)
      | some above =>
        refine congrArg some ?_
        rcases laidOver_cases (a.get? key) above with ⟨lower, inner, hlower, rfl, hmerge⟩ | ⟨-, hkept⟩
        · rw [hmerge, hlower, laidOver_mapping, ih key inner hkey (ha.inside hlower)]
        · rw [hkept, hkept]

/-! ## Three layers -/

/-- At some path a layer holds something that is no mapping, between two layers that both hold a
mapping there. -/
def Hides (lower middle upper : Mapping) : Prop :=
  ∃ path below between above, (mapping lower).at? path = some (.mapping below) ∧
    (mapping middle).at? path = some between ∧ between.entries? = none ∧
    (mapping upper).at? path = some (.mapping above)

/-- What is hidden under a key is hidden. -/
theorem Hides.under {key : Key} {lower middle upper : Mapping} (h : Hides lower middle upper)
    (ha : a.get? key = some (.mapping lower)) (hb : b.get? key = some (.mapping middle))
    (hc : c.get? key = some (.mapping upper)) : Hides a b c := by
  obtain ⟨path, below, between, above, hbelow, hbetween, hnone, habove⟩ := h
  refine ⟨key :: path, below, between, above, ?_, ?_, hnone, ?_⟩
  · rwa [at?_mapping, ha, Option.bind_some]
  · rwa [at?_mapping, hb, Option.bind_some]
  · rwa [at?_mapping, hc, Option.bind_some]

/-- Values may be laid on in any grouping, if this is so of mappings, and no mapping is hidden from a
mapping. -/
theorem laidOver_assoc {below : Option Value} {between above : Value}
    (hmappings : ∀ lower middle upper, below = some (.mapping lower) → between = .mapping middle →
      above = .mapping upper → merge (merge lower middle) upper = merge lower (merge middle upper))
    (hseen : ∀ lower upper, below = some (.mapping lower) → above = .mapping upper →
      between.entries? ≠ none) :
    laidOver (some (laidOver below between)) above =
      laidOver below (laidOver (some between) above) := by
  cases habove : above.entries? with
  | none =>
    have hkept : ∀ v, laidOver v above = above := fun v => laidOver_of_not_mappings (.inr habove)
    rw [hkept, hkept, hkept]
  | some upper =>
    cases hbetween : between.entries? with
    | none =>
      -- what is between hides what is below, which must be no mapping
      have hover : laidOver (some between) above = above := laidOver_of_not_mappings (.inl hbetween)
      rw [laidOver_of_not_mappings (.inr hbetween), hover]
      rcases laidOver_cases below above with ⟨lower, upper, hlower, hupper, -⟩ | ⟨-, hkept⟩
      · exact absurd hbetween (hseen lower upper hlower hupper)
      · exact hkept.symm
    | some middle =>
      obtain rfl := entries?_eq_some_iff.mp habove
      obtain rfl := entries?_eq_some_iff.mp hbetween
      cases hbelow : below.bind entries? with
      | none =>
        rw [laidOver_of_not_mappings (.inl hbelow), laidOver_of_not_mappings (.inl hbelow)]
      | some lower =>
        obtain ⟨v, rfl, hv⟩ := Option.bind_eq_some_iff.mp hbelow
        obtain rfl := entries?_eq_some_iff.mp hv
        simp only [laidOver_mapping, hmappings lower middle upper rfl rfl rfl]

/-- Three layers may be merged in any grouping if the middle one hides no mapping from a mapping. -/
theorem merge_assoc (ha : Layer a) (hb : Layer b) (hc : Layer c) (hseen : ¬ Hides a b c) :
    merge (merge a b) c = merge a (merge b c) := by
  induction hb generalizing a c with
  | @intro middle distinct inside ih =>
    have hupper := distinct_merge distinct c
    apply (distinct_merge (distinct_merge ha.distinct middle) c).ext
    · rw [map_fst_merge hc.distinct, map_fst_merge distinct, map_fst_merge hupper,
        map_fst_merge hc.distinct, List.filter_append, filter_new_of_merge distinct,
        List.append_assoc]
    · intro key
      rw [get?_merge key hc.distinct, get?_merge key distinct, get?_merge key hupper,
        get?_merge key hc.distinct]
      cases hab : middle.get? key with
      | none => cases c.get? key <;> rfl
      | some between =>
        cases hac : c.get? key with
        | none => rfl
        | some above =>
          refine congrArg some (laidOver_assoc ?_ ?_)
          · rintro lower inner upper hlower rfl rfl
            -- what is hidden further down is hidden from the top too
            refine ih key inner hab (ha.inside hlower) (hc.inside hac) fun hhides => ?_
            exact hseen (hhides.under hlower hab hac)
          · rintro lower upper hlower rfl hnone
            apply hseen
            refine ⟨[key], lower, between, upper, ?_, ?_, hnone, ?_⟩
            · rw [at?_mapping, hlower]
              rfl
            · rw [at?_mapping, hab]
              rfl
            · rw [at?_mapping, hac]
              rfl

/-- The laws of layers, for the entries as they are and in their order: nothing is neutral on both
sides, a layer over itself is itself, and over or below another it need be there only once; and the
grouping of three does not matter if the middle one hides no mapping from a mapping. -/
theorem merge_laws (ha : Layer a) (hb : Layer b) (hc : Layer c) :
    merge a [] = a ∧ merge [] a = a ∧ merge a a = a ∧
      merge (merge a b) b = merge a b ∧ merge a (merge a b) = merge a b ∧
      (¬ Hides a b c → merge (merge a b) c = merge a (merge b c)) :=
  ⟨by rw [merge], merge_nil_left ha.distinct, merge_self ha, merge_merge_self ha hb,
    merge_self_merge ha hb, merge_assoc ha hb hc⟩

/-- In a mapping with one entry every path leads through that entry. -/
theorem at?_singleton {key first : Key} {rest : List Key} {v found : Value}
    (h : (mapping [(key, v)]).at? (first :: rest) = some found) :
    (key == first) = true ∧ v.at? rest = some found := by
  rw [at?_mapping, Ledger.get?] at h
  split at h
  · next hkey => exact ⟨hkey, h⟩
  · contradiction

/-- A layer between the two of the other example: it holds a text at one path, where the lower one
holds a text too. -/
def middleSample : Mapping := [(.text "a", mapping [(.scalar (.int 2), text "deux")])]

theorem merge_laws_sample :
    Layer lowerSample ∧ Layer middleSample ∧ Layer upperSample ∧
      ¬ Hides lowerSample middleSample upperSample ∧
      merge (merge lowerSample middleSample) upperSample =
        merge lowerSample (merge middleSample upperSample) := by
  have htext : ∀ s, Layered (text s) := fun s entries h => by contradiction
  have hlower : Layer lowerSample := by
    have hnumbers : Layer lowerNumbers :=
      (Layer.nil.cons (by decide +kernel) (htext _)).cons (by decide +kernel) (htext _)
    have hdeep : Layer [(.text "c", text "deep")] := Layer.nil.cons (by decide) (htext _)
    exact (Layer.nil.cons (by decide) (layered_mapping hdeep)).cons (by decide +kernel)
      (layered_mapping hnumbers)
  have hmiddle : Layer middleSample :=
    Layer.nil.cons (by decide) (layered_mapping (Layer.nil.cons (by decide) (htext _)))
  have hseen : ¬ Hides lowerSample middleSample upperSample := by
    rintro ⟨path, below, between, above, hbelow, hbetween, hnone, -⟩
    -- the only path at which the middle layer holds no mapping leads to a text in the lower one
    match path with
    | [] =>
      cases hbetween
      contradiction
    | [_] =>
      cases (at?_singleton hbetween).2
      contradiction
    | [first, second] =>
      obtain ⟨hfirst, hinner⟩ := at?_singleton hbetween
      obtain ⟨hsecond, -⟩ := at?_singleton hinner
      have htwo : (mapping lowerSample).at? [first, second] = some (text "two") := by
        rw [at?_mapping, ← get?_congr hfirst]
        show (lowerNumbers.get? second).bind _ = _
        rw [← get?_congr hsecond]
        rfl
      rw [htwo] at hbelow
      cases hbelow
    | _ :: _ :: _ :: _ =>
      have hinner := (at?_singleton hbetween).2
      cases (at?_singleton hinner).2
  exact ⟨hlower, hmiddle, layer_upperSample, hseen,
    (merge_laws hlower hmiddle layer_upperSample).2.2.2.2.2 hseen⟩

/-- Where a text hides the lower mapping from the upper one, the grouping decides what is left of the
lower one. -/
example :
    let lower : Mapping := [(.text "a", mapping [(.text "x", text "below")])]
    let upper : Mapping := [(.text "a", mapping [(.text "y", text "above")])]
    let middle : Mapping := [(.text "a", text "flat")]
    (mapping (merge (merge lower middle) upper)).at? [.text "a", .text "x"] = none ∧
      (mapping (merge lower (merge middle upper))).at? [.text "a", .text "x"] =
        some (text "below") :=
  ⟨rfl, rfl⟩

end Bindery.Config
