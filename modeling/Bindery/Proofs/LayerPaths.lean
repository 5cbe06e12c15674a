import Bindery.Proofs.Layers

/-!
# What layers hold at a path

A path of keys leads through mappings inside of mappings. What two layers hold at its end depends on
what the upper one has on the way (`merge_at?`): if it has something at the path, that is laid over
what the lower one has there, and otherwise the last thing that it has on the way decides. A mapping
there lets the lower layer through, and any other value hides it.

The one lemma behind this, `at?_laidOver`, is an induction on the path.
-/

namespace Bindery

namespace Value

/-- What a value holds at a path, which leads through nothing but mappings. -/
def at? : List Key → Value → Option Value
  | [], v => some v
  | key :: rest, v => v.entries?.bind fun entries => (entries.get? key).bind (at? rest)

/-- The keys of a mapping in their order. -/
def keysOf (v : Option Value) : List Key :=
  ((v.bind entries?).getD []).map Prod.fst

@[simp] theorem at?_nil (v : Value) : v.at? [] = some v := rfl

@[simp] theorem at?_mapping (entries : Mapping) (key : Key) (rest : List Key) :
    (mapping entries).at? (key :: rest) = (entries.get? key).bind (at? rest) := rfl

/-- Only a mapping holds something behind a key. -/
theorem at?_cons_of_not_mapping {v : Value} (h : v.entries? = none) (key : Key)
    (rest : List Key) : v.at? (key :: rest) = none := by
  rw [at?, h, Option.bind_none]

/-- A path is followed piece by piece. -/
theorem at?_append (path rest : List Key) (v : Value) :
    v.at? (path ++ rest) = (v.at? path).bind (at? rest) := by
  induction path generalizing v with
  | nil => rfl
  | cons key path ih =>
    cases hentries : v.entries? with
    | none =>
      rw [List.cons_append, at?_cons_of_not_mapping hentries, at?_cons_of_not_mapping hentries]
      rfl
    | some entries =>
      obtain rfl := entries?_eq_some_iff.mp hentries
      rw [List.cons_append, at?_mapping, at?_mapping]
      cases entries.get? key with
      | none => rfl
      | some inner => exact ih inner

/-- `way` is the longest beginning of the path at which the value holds anything. -/
structure Reaches (v : Value) (path way : List Key) : Prop where
  isPrefix : way <+: path
  there : (v.at? way).isSome = true
  longest : ∀ other, other <+: path → (v.at? other).isSome = true → other.length ≤ way.length

/-- Some beginning is the longest: at the empty one there is the value itself. -/
theorem exists_reaches (v : Value) (path : List Key) : ∃ way, Reaches v path way := by
  induction path generalizing v with
  | nil =>
    refine ⟨[], List.prefix_rfl, rfl, fun other hother _ => ?_⟩
    rw [List.prefix_nil.mp hother]
  | cons key rest ih =>
    -- a beginning that is not empty goes on from what is under the first key
    by_cases hinner : ∃ inner, v.at? [key] = some inner
    · obtain ⟨inner, hinner⟩ := hinner
      have hstep : ∀ path, v.at? (key :: path) = inner.at? path := by
        intro path
        rw [← List.singleton_append, at?_append, hinner, Option.bind_some]
      obtain ⟨way, hprefix, hthere, hlongest⟩ := ih inner
      refine ⟨key :: way, (List.prefix_cons_inj key).mpr hprefix, by rwa [hstep], ?_⟩
      intro other hother hsome
      cases other with
      | nil => exact Nat.zero_le _
      | cons first other =>
        obtain ⟨rfl, hrest⟩ := List.cons_prefix_cons.mp hother
        rw [hstep] at hsome
        exact Nat.succ_le_succ (hlongest other hrest hsome)
    · refine ⟨[], List.nil_prefix, rfl, ?_⟩
      intro other hother hsome
      cases other with
      | nil => exact Nat.le_refl _
      | cons first other =>
        obtain ⟨rfl, -⟩ := List.cons_prefix_cons.mp hother
        rw [← List.singleton_append, at?_append] at hsome
        obtain ⟨inner, hfirst⟩ := Option.isSome_iff_exists.mp (Option.isSome_of_isSome_bind hsome)
        exact absurd ⟨inner, hfirst⟩ hinner

/-- Where a path leads to nothing, the key behind the longest beginning is missing. -/
theorem Reaches.split {v : Value} {path way : List Key} (h : Reaches v path way)
    (hnone : v.at? path = none) :
    ∃ key rest, path = way ++ key :: rest ∧ v.at? (way ++ [key]) = none := by
  obtain ⟨behind, rfl⟩ := h.isPrefix
  cases behind with
  | nil =>
    have hsome := h.there
    rw [List.append_nil] at hnone
    rw [hnone] at hsome
    contradiction
  | cons key rest =>
    -- with something under the key, the beginning would not be the longest
    refine ⟨key, rest, rfl, ?_⟩
    by_contra hsome
    have hprefix : way ++ [key] <+: way ++ key :: rest :=
      (List.prefix_append_right_inj way).mpr ((List.prefix_cons_inj key).mpr List.nil_prefix)
    have hlength := h.longest _ hprefix (Option.isSome_iff_ne_none.mpr hsome)
    rw [List.length_append, List.length_singleton] at hlength
    omega

end Value

namespace Config

open Value

/-- A mapping laid over a mapping is their merge. -/
theorem laidOver_mapping (lower upper : Mapping) :
    laidOver (some (.mapping lower)) (.mapping upper) = .mapping (merge lower upper) :=
  overlay_eq (.mapping lower) (.mapping upper)

/-- A value is kept as it is laid on if one of the two is no mapping. -/
theorem laidOver_of_not_mappings {below : Option Value} {above : Value}
    (h : below.bind entries? = none ∨ above.entries? = none) : laidOver below above = above := by
  cases below with
  | none => rfl
  | some below =>
    rw [Option.bind_some] at h
    rw [laidOver, overlay_eq]
    rcases h with h | h
    · rw [h]
    · rw [h]
      cases below.entries? <;> rfl

/-- Two values laid over each other, in cases. -/
theorem laidOver_eq (below : Option Value) (above : Value) :
    laidOver below above =
      match below, above with
      | some (.mapping lower), .mapping upper => .mapping (merge lower upper)
      | _, _ => above := by
  cases below with
  | none => rfl
  | some below =>
    rw [laidOver, overlay_eq]
    cases below <;> cases above <;> rfl

theorem Layered.of_at? {path : List Key} {v found : Value} (h : Layered v)
    (hfound : v.at? path = some found) : Layered found := by
  induction path generalizing v with
  | nil =>
    obtain rfl := Option.some.inj hfound
    exact h
  | cons key rest ih =>
    obtain ⟨entries, hentries, hrest⟩ := Option.bind_eq_some_iff.mp hfound
    obtain ⟨inner, hinner, hfound⟩ := Option.bind_eq_some_iff.mp hrest
    refine ih (fun within hwithin => ?_) hfound
    rw [entries?_eq_some_iff.mp hwithin] at hinner
    exact (h entries hentries).inside hinner

/-- Only a mapping below holds something behind a key. -/
theorem bind_at?_of_not_mapping {below : Option Value} (h : below.bind entries? = none)
    (key : Key) (rest : List Key) : below.bind (Value.at? (key :: rest)) = none := by
  cases below with
  | none => rfl
  | some below => exact at?_cons_of_not_mapping h key rest

/-- What is at a path of the value on top is laid over what is there below. -/
theorem at?_laidOver {path : List Key} {above found : Value} (habove : Layered above)
    (hfound : above.at? path = some found) (below : Option Value) :
    (laidOver below above).at? path = some (laidOver (below.bind (Value.at? path)) found) := by
  -- below and above both go one key down with each step
  induction path generalizing above below with
  | nil =>
    obtain rfl := Option.some.inj hfound
    cases below <;> rfl
  | cons key rest ih =>
    obtain ⟨upper, hupper, hrest⟩ := Option.bind_eq_some_iff.mp hfound
    obtain ⟨inner, hinner, hrest⟩ := Option.bind_eq_some_iff.mp hrest
    have hkey : above.at? [key] = some inner := by
      rw [Value.at?, hupper, Option.bind_some, hinner]
      rfl
    have hlayered := habove.of_at? hkey
    have hdistinct := (habove upper hupper).distinct
    obtain rfl := entries?_eq_some_iff.mp hupper
    cases hlower : below.bind entries? with
    | none =>
      rw [laidOver_of_not_mappings (.inl hlower), bind_at?_of_not_mapping hlower]
      exact hfound
    | some lower =>
      obtain ⟨v, rfl, hv⟩ := Option.bind_eq_some_iff.mp hlower
      obtain rfl := entries?_eq_some_iff.mp hv
      rw [laidOver_mapping, at?_mapping, get?_merge key hdistinct, hinner]
      exact ih hlayered hrest (lower.get? key)

/-- Behind a key that the value on top does not have, a mapping lets the value below through, and any
other value hides it. -/
theorem at?_laidOver_of_missing {key : Key} {above : Value} (habove : Layered above)
    (hmissing : above.at? [key] = none) (below : Option Value) (rest : List Key) :
    (laidOver below above).at? (key :: rest) =
      if above.entries?.isSome then below.bind (Value.at? (key :: rest)) else none := by
  cases hupper : above.entries? with
  | none =>
    rw [laidOver_of_not_mappings (.inr hupper), at?_cons_of_not_mapping hupper]
    rfl
  | some upper =>
    have hdistinct := (habove upper hupper).distinct
    obtain rfl := entries?_eq_some_iff.mp hupper
    have hkey : upper.get? key = none := by
      rw [at?_mapping] at hmissing
      cases hget : upper.get? key with
      | none => rfl
      | some inner =>
        rw [hget] at hmissing
        contradiction
    cases hlower : below.bind entries? with
    | none =>
      rw [laidOver_of_not_mappings (.inl hlower), bind_at?_of_not_mapping hlower, at?_mapping, hkey]
      rfl
    | some lower =>
      obtain ⟨v, rfl, hv⟩ := Option.bind_eq_some_iff.mp hlower
      obtain rfl := entries?_eq_some_iff.mp hv
      rw [laidOver_mapping, at?_mapping, get?_merge key hdistinct, hkey]
      rfl

/-- Where the value on top holds nothing at a path, what it holds last on the way decides. -/
theorem at?_laidOver_of_none {path way : List Key} {above last : Value} (habove : Layered above)
    (hreaches : Reaches above path way) (hlast : above.at? way = some last)
    (hnone : above.at? path = none) (below : Option Value) :
    (laidOver below above).at? path =
      if last.entries?.isSome then below.bind (Value.at? path) else none := by
  -- behind the longest beginning the path goes on with a key that is missing there
  obtain ⟨key, rest, rfl, hmissing⟩ := hreaches.split hnone
  have hbelow : below.bind (Value.at? (way ++ key :: rest)) =
      (below.bind (Value.at? way)).bind (Value.at? (key :: rest)) := by
    cases below with
    | none => rfl
    | some below => exact at?_append way (key :: rest) below
  rw [at?_append, hlast, Option.bind_some] at hmissing
  rw [at?_append, at?_laidOver habove hlast, Option.bind_some, hbelow]
  exact at?_laidOver_of_missing (habove.of_at? hlast) hmissing _ rest

/-- The keys of a mapping that results from laying one value over another. -/
theorem map_fst_laidOver {below : Option Value} {above : Value} (habove : Layered above)
    {entries : Mapping} (h : laidOver below above = .mapping entries) :
    entries.map Prod.fst = keysOf below ++
      (keysOf (some above)).filter fun key => !(keysOf below).any (· == key) := by
  unfold keysOf
  rw [Option.bind_some]
  cases hlower : below.bind entries? with
  | none =>
    rw [laidOver_of_not_mappings (.inl hlower)] at h
    subst h
    simp [entries?]
  | some lower =>
    obtain ⟨v, rfl, hv⟩ := Option.bind_eq_some_iff.mp hlower
    obtain rfl := entries?_eq_some_iff.mp hv
    cases hupper : above.entries? with
    | none =>
      rw [laidOver_of_not_mappings (.inr hupper)] at h
      rw [h] at hupper
      contradiction
    | some upper =>
      have hdistinct := (habove upper hupper).distinct
      obtain rfl := entries?_eq_some_iff.mp hupper
      rw [laidOver_mapping, Value.mapping.injEq] at h
      rw [← h, map_fst_merge hdistinct]
      simp only [Ledger.contains_eq_any, Option.getD_some]

/-! ## Two layers at a path -/

/-- What two layers hold at a path. If the upper one holds something there, it is laid over what the
lower one holds: two mappings are merged, and any other value is kept. If not, the last thing that it
holds on the way decides: a mapping lets the lower layer through, and any other value hides it. The
keys of each mapping that results are the ones of the lower layer there, as they are and in their
order, and then those that the upper one adds, in their order. -/
theorem merge_at? {upper : Mapping} (hupper : Layer upper) (base : Mapping) :
    (∀ path above, (mapping upper).at? path = some above →
      (mapping (merge base upper)).at? path =
        some (match (mapping base).at? path, above with
          | some (.mapping lower), .mapping inner => .mapping (merge lower inner)
          | _, _ => above)) ∧
    (∀ path, (mapping upper).at? path = none →
      ∃ way last, Reaches (mapping upper) path way ∧ (mapping upper).at? way = some last ∧
        (mapping (merge base upper)).at? path =
          if last.entries?.isSome then (mapping base).at? path else none) ∧
    (∀ path entries, (mapping (merge base upper)).at? path = some (.mapping entries) →
      entries.map Prod.fst = keysOf ((mapping base).at? path) ++
        (keysOf ((mapping upper).at? path)).filter fun key =>
          !(keysOf ((mapping base).at? path)).any (· == key)) := by
  have hlayered := layered_mapping hupper
  have hthere : ∀ path above, (mapping upper).at? path = some above →
      (mapping (merge base upper)).at? path =
        some (laidOver ((mapping base).at? path) above) := by
    intro path above habove
    rw [← laidOver_mapping]
    exact at?_laidOver hlayered habove (some (mapping base))
  have hmissing : ∀ path, (mapping upper).at? path = none →
      ∃ way last, Reaches (mapping upper) path way ∧ (mapping upper).at? way = some last ∧
        (mapping (merge base upper)).at? path =
          if last.entries?.isSome then (mapping base).at? path else none := by
    intro path hnone
    obtain ⟨way, hreaches⟩ := exists_reaches (mapping upper) path
    obtain ⟨last, hlast⟩ := Option.isSome_iff_exists.mp hreaches.there
    refine ⟨way, last, hreaches, hlast, ?_⟩
    rw [← laidOver_mapping]
    exact at?_laidOver_of_none hlayered hreaches hlast hnone (some (mapping base))
  refine ⟨?_, hmissing, ?_⟩
  · intro path above habove
    rw [hthere path above habove, laidOver_eq]
  · intro path entries hentries
    cases hupper : (mapping upper).at? path with
    | some above =>
      rw [hthere path above hupper, Option.some_inj] at hentries
      exact map_fst_laidOver (hlayered.of_at? hupper) hentries
    | none =>
      -- the mapping is the one of the lower layer
      obtain ⟨way, last, -, -, hlower⟩ := hmissing path hupper
      rw [hlower] at hentries
      split at hentries
      · rw [hentries]
        simp [keysOf, entries?]
      · contradiction

/-- Numbers with their names, one of them a fraction. -/
def lowerNumbers : Mapping :=
  [(.scalar (.int 1), text "one"), (.scalar (.int 2), text "two")]

def upperNumbers : Mapping :=
  [(.scalar (.int 3), text "three"), (.scalar (.float (.ofInt 1)), text "uno")]

/-- The upper layer has a text where the lower one has a mapping. -/
def lowerSample : Mapping :=
  [(.text "a", mapping lowerNumbers), (.text "b", mapping [(.text "c", text "deep")])]

def upperSample : Mapping :=
  [(.text "b", text "flat"), (.text "a", mapping upperNumbers)]

theorem layer_upperSample : Layer upperSample := by
  have htext : ∀ s, Layered (text s) := fun s entries h => by contradiction
  have hnumbers : Layer upperNumbers :=
    (Layer.nil.cons (by decide +kernel) (htext _)).cons (by decide +kernel) (htext _)
  exact (Layer.nil.cons (by decide +kernel) (layered_mapping hnumbers)).cons (by decide +kernel)
    (htext _)

/-- A number is found by the truth value that equals it, the text hides the mapping below it, and
the keys keep the forms and the places that they have in the lower layer. -/
theorem merge_at?_sample :
    let below := mapping lowerSample
    let both := mapping (merge lowerSample upperSample)
    Layer upperSample ∧ below.at? [.text "a", .scalar (.bool true)] = some (text "one") ∧
      both.at? [.text "a", .scalar (.bool true)] = some (text "uno") ∧
      below.at? [.text "b", .text "c"] = some (text "deep") ∧
      both.at? [.text "b", .text "c"] = none ∧
      both.at? [.text "a"] = some (mapping (merge lowerNumbers upperNumbers)) ∧
      (merge lowerNumbers upperNumbers).map Prod.fst =
        [.scalar (.int 1), .scalar (.int 2), .scalar (.int 3)] := by
  intro below both
  obtain ⟨hthere, hmissing, hkeys⟩ := merge_at? layer_upperSample lowerSample
  have hnumbers : both.at? [.text "a"] = some (mapping (merge lowerNumbers upperNumbers)) :=
    hthere [.text "a"] (mapping upperNumbers) rfl
  refine ⟨layer_upperSample, rfl, ?_, rfl, ?_, hnumbers, hkeys _ _ hnumbers⟩
  · exact hthere [.text "a", .scalar (.bool true)] (text "uno") rfl
  · obtain ⟨way, last, hreaches, hlast, hvalue⟩ := hmissing [.text "b", .text "c"] rfl
    -- the way ends at the text
    have hlength := hreaches.longest [.text "b"] ⟨_, rfl⟩ rfl
    have hway := (List.mem_inits _ _).mpr hreaches.isPrefix
    have htext : last = text "flat" := by
      simp only [List.inits, List.map_cons, List.map_nil, List.mem_cons, List.not_mem_nil] at hway
      rcases hway with rfl | rfl | rfl | hway
      · contradiction
      · exact (Option.some.inj hlast).symm
      · contradiction
      · contradiction
    rw [hvalue, htext]
    rfl

end Config

end Bindery
