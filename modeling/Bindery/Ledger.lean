/-!
# Ledgers: entries in the order in which their keys first came

A ledger is a list of keys with their values. Writing under a key that is there already, by the
equality of the key type, replaces the value and leaves the key as it was first written
(`Ledger.put`); a new key goes to the end. `Ledger.get?_put` is what a reader sees of a write.
Entries that are written one after another never repeat a key (`Ledger.distinct_ofEntries`).
-/

namespace Bindery

/-- Keys with their values, in the order in which the keys first came. -/
abbrev Ledger (κ ν : Type) := List (κ × ν)

namespace Ledger

variable {κ ν : Type} [BEq κ]

/-- The value under a key. -/
def get? (key : κ) : Ledger κ ν → Option ν
  | [] => none
  | (k, v) :: rest => if k == key then some v else get? key rest

/-- Whether the key is there. -/
def contains (key : κ) (entries : Ledger κ ν) : Bool :=
  (get? key entries).isSome

/-- The ledger with `value` under `key`. -/
def put (key : κ) (value : ν) : Ledger κ ν → Ledger κ ν
  | [] => [(key, value)]
  | (k, v) :: rest => if k == key then (k, value) :: rest else (k, v) :: put key value rest

/-- The ledger of entries written one after another. -/
def ofEntries (entries : List (κ × ν)) : Ledger κ ν :=
  entries.foldl (fun ledger entry => put entry.1 entry.2 ledger) []

/-- No key equals a later one. -/
def Distinct (entries : Ledger κ ν) : Prop :=
  entries.Pairwise fun a b => (a.1 == b.1) = false

@[simp] theorem get?_nil (key : κ) : get? key ([] : Ledger κ ν) = none := rfl

/-- A write is seen under the keys that equal the one written, and nowhere else. -/
theorem get?_put [PartialEquivBEq κ] (key other : κ) (value : ν) (entries : Ledger κ ν) :
    get? other (put key value entries) =
      if key == other then some value else get? other entries := by
  induction entries with
  | nil => simp [put, get?]
  | cons entry rest ih =>
    obtain ⟨k, v⟩ := entry
    by_cases h : k == key
    · simp only [put, h, if_true, get?, BEq.congr_left h]
      split <;> rfl
    · have step : get? other (put key value ((k, v) :: rest)) =
          if k == other then some v else get? other (put key value rest) := by
        simp [put, h, get?]
      rw [step, ih]
      by_cases ho : k == other
      · have hk : (key == other) = false := by
          cases hko : key == other with
          | false => rfl
          | true => exact absurd (BEq.trans ho (BEq.symm hko)) h
        simp [get?, ho, hk]
      · simp [get?, ho]

/-- What is read after a write is what was written, or was there under another key. -/
theorem get?_put_cases [LawfulBEq κ] {key other : κ} {value found : ν} {entries : Ledger κ ν}
    (h : get? other (put key value entries) = some found) :
    (key = other ∧ value = found) ∨ (key ≠ other ∧ get? other entries = some found) := by
  rw [get?_put] at h
  by_cases hkey : key = other
  · rw [if_pos (beq_iff_eq.mpr hkey)] at h
    exact .inl ⟨hkey, Option.some.inj h⟩
  · rw [if_neg (mt beq_iff_eq.mp hkey)] at h
    exact .inr ⟨hkey, h⟩

/-- Of two writes under one key the second one counts. -/
theorem put_put [ReflBEq κ] (key : κ) (first second : ν) (entries : Ledger κ ν) :
    put key second (put key first entries) = put key second entries := by
  induction entries with
  | nil => simp [put]
  | cons entry rest ih =>
    by_cases h : entry.1 == key
    · simp [put, h]
    · simp [put, h, ih]

/-- A key is missing if it equals none of the keys. -/
theorem get?_eq_none_iff {key : κ} {entries : Ledger κ ν} :
    get? key entries = none ↔ ∀ entry ∈ entries, (entry.1 == key) = false := by
  induction entries with
  | nil => simp
  | cons entry rest ih =>
    by_cases h : entry.1 == key
    · simp [get?, h]
    · simp [get?, h, ih]

theorem contains_eq_any (key : κ) (entries : Ledger κ ν) :
    contains key entries = (entries.map Prod.fst).any (· == key) := by
  induction entries with
  | nil => rfl
  | cons entry rest ih =>
    simp only [contains] at ih
    by_cases h : entry.1 == key
    · simp [contains, get?, h]
    · simp [contains, get?, h, ih]

theorem contains_iff_mem [LawfulBEq κ] {key : κ} {entries : Ledger κ ν} :
    contains key entries = true ↔ key ∈ entries.map Prod.fst := by
  rw [contains, ← Option.isNone_eq_false_iff, ← Bool.not_eq_true, Option.isNone_iff_eq_none,
    get?_eq_none_iff]
  simp

/-- Of two ledgers on end, the first one that has a key gives its value. -/
theorem get?_append (key : κ) (first second : Ledger κ ν) :
    get? key (first ++ second) = (get? key first).or (get? key second) := by
  induction first with
  | nil => rfl
  | cons entry rest ih =>
    by_cases h : entry.1 == key
    · simp [get?, h]
    · simp [get?, h, ih]

/-- What is read under a key is read under every key that equals it. -/
theorem get?_congr [PartialEquivBEq κ] {key other : κ} (h : key == other)
    (entries : Ledger κ ν) : get? key entries = get? other entries := by
  induction entries with
  | nil => rfl
  | cons entry rest ih => rw [get?, get?, ih, BEq.congr_right h]

/-- What is read under a key is an entry with an equal key. -/
theorem exists_mem_of_get? {key : κ} {value : ν} {entries : Ledger κ ν}
    (h : get? key entries = some value) : ∃ k, (k == key) = true ∧ (k, value) ∈ entries := by
  induction entries with
  | nil => contradiction
  | cons entry rest ih =>
    rw [get?] at h
    split at h
    · next hkey =>
      rw [← Option.some.inj h]
      exact ⟨entry.1, hkey, List.mem_cons_self ..⟩
    · obtain ⟨k, hkey, hmem⟩ := ih h
      exact ⟨k, hkey, List.mem_cons_of_mem _ hmem⟩

theorem mem_of_get? [LawfulBEq κ] {key : κ} {value : ν} {entries : Ledger κ ν}
    (h : get? key entries = some value) : (key, value) ∈ entries := by
  obtain ⟨k, hkey, hmem⟩ := exists_mem_of_get? h
  rwa [eq_of_beq hkey] at hmem

/-- An entry of a ledger with distinct keys is what is read under its key. -/
theorem Distinct.get?_of_mem [ReflBEq κ] {entries : Ledger κ ν} (h : Distinct entries) {key : κ}
    {value : ν} (mem : (key, value) ∈ entries) : get? key entries = some value := by
  induction entries with
  | nil => cases mem
  | cons entry rest ih =>
    obtain ⟨first, others⟩ := List.pairwise_cons.1 h
    rcases List.mem_cons.1 mem with rfl | mem
    · simp [get?]
    · have hne : (entry.1 == key) = false := first _ mem
      rw [get?, hne]
      exact ih others mem

/-- Ledgers with the same distinct keys in the same order are equal if they read alike. -/
theorem Distinct.ext [EquivBEq κ] {entries others : Ledger κ ν} (h : Distinct entries)
    (hkeys : entries.map Prod.fst = others.map Prod.fst)
    (hget : ∀ key, get? key entries = get? key others) : entries = others := by
  induction entries generalizing others with
  | nil => exact (List.map_eq_nil_iff.1 hkeys.symm).symm
  | cons entry rest ih =>
    match others with
    | [] => contradiction
    | other :: others =>
      obtain ⟨hfirst, hrest⟩ := List.pairwise_cons.1 h
      rw [List.map_cons, List.map_cons, List.cons_eq_cons] at hkeys
      obtain ⟨hkey, htail⟩ := hkeys
      have hvalue : entry.2 = other.2 := by
        simpa [get?, ← hkey] using hget entry.1
      refine List.cons_eq_cons.2 ⟨Prod.ext hkey hvalue, ih hrest htail fun key => ?_⟩
      by_cases hsame : entry.1 == key
      · -- the first key does not come again, in either of the two
        have hgone : ∀ k ∈ rest.map Prod.fst, (k == key) = false := by
          intro k hk
          obtain ⟨later, hlater, rfl⟩ := List.mem_map.1 hk
          rw [← BEq.congr_right hsame, BEq.comm]
          exact hfirst later hlater
        rw [get?_eq_none_iff.2 (List.forall_mem_map.1 hgone)]
        rw [htail] at hgone
        exact (get?_eq_none_iff.2 (List.forall_mem_map.1 hgone)).symm
      · have hread := hget key
        rwa [get?, get?, ← hkey, if_neg hsame, if_neg hsame] at hread

/-- In a ledger with distinct keys at most one entry has a given key. -/
theorem Distinct.countP [EquivBEq κ] {entries : Ledger κ ν} (h : Distinct entries) (key : κ) :
    entries.countP (·.1 == key) = if contains key entries then 1 else 0 := by
  induction entries with
  | nil => rfl
  | cons entry rest ih =>
    obtain ⟨first, others⟩ := List.pairwise_cons.1 h
    by_cases hk : entry.1 == key
    · -- a second entry with the key would have that of the first one
      have hrest : rest.countP (·.1 == key) = 0 := by
        refine List.countP_eq_zero.2 fun other mem hother => ?_
        have hsame : entry.1 == other.1 := BEq.trans hk (BEq.symm hother)
        rw [first other mem] at hsame
        cases hsame
      simp [hk, hrest, contains, get?]
    · have hcontains : contains key (entry :: rest) = contains key rest := by
        simp [contains, get?, hk]
      rw [hcontains, ← ih others]
      exact List.countP_cons_of_neg (by simpa using hk)

/-- A new key is written at the end. -/
theorem put_of_get?_eq_none {key : κ} {entries : Ledger κ ν} (h : get? key entries = none)
    (value : ν) : put key value entries = entries ++ [(key, value)] := by
  induction entries with
  | nil => rfl
  | cons entry rest ih =>
    have hne : (entry.1 == key) = false := get?_eq_none_iff.1 h entry (List.mem_cons_self ..)
    rw [get?, hne] at h
    simp only [put, hne, Bool.false_eq_true, if_false, ih h, List.cons_append]

/-- Writing adds a key at the end if it is new, and changes no key that is there. -/
theorem map_fst_put (key : κ) (value : ν) (entries : Ledger κ ν) :
    (put key value entries).map Prod.fst =
      if contains key entries then entries.map Prod.fst else entries.map Prod.fst ++ [key] := by
  induction entries with
  | nil => rfl
  | cons entry rest ih =>
    by_cases h : entry.1 == key
    · simp [put, contains, get?, h]
    · simp only [contains] at ih ⊢
      simp only [put, h, get?, List.map_cons, Bool.false_eq_true, if_false, ih]
      by_cases hc : (get? key rest).isSome = true
      · simp [hc]
      · simp [hc]

/-- A write keeps the keys distinct: it replaces in place, or adds a key that equals none before. -/
theorem Distinct.put {entries : Ledger κ ν} (h : Distinct entries) (key : κ) (value : ν) :
    Distinct (Ledger.put key value entries) := by
  induction entries with
  | nil => simp [Ledger.put, Distinct]
  | cons entry rest ih =>
    obtain ⟨k, v⟩ := entry
    obtain ⟨first, others⟩ := List.pairwise_cons.1 h
    by_cases hk : k == key
    · simp only [Ledger.put, hk, if_true]
      exact List.pairwise_cons.2 ⟨first, others⟩
    · have hput : Ledger.put key value ((k, v) :: rest) = (k, v) :: Ledger.put key value rest := by
        simp [Ledger.put, hk]
      rw [hput]
      refine List.pairwise_cons.2 ⟨fun b hb => ?_, ih others⟩
      -- the keys behind are the old ones and perhaps the new one
      have keys : b.1 ∈ rest.map Prod.fst ∨ b.1 = key := by
        have mem := List.mem_map_of_mem (f := Prod.fst) hb
        rw [map_fst_put] at mem
        split at mem
        · exact Or.inl mem
        · simpa using mem
      rcases keys with old | new
      · obtain ⟨a, ha, hab⟩ := List.mem_map.1 old
        rw [← hab]
        exact first a ha
      · rw [new]
        simpa using hk

/-- Entries written one after another have distinct keys. -/
theorem distinct_ofEntries (entries : List (κ × ν)) : Distinct (ofEntries entries) := by
  have step : ∀ (rest : List (κ × ν)) (ledger : Ledger κ ν), Distinct ledger →
      Distinct (rest.foldl (fun ledger entry => Ledger.put entry.1 entry.2 ledger) ledger) := by
    intro rest
    induction rest with
    | nil => exact fun _ h => h
    | cons entry rest ih => exact fun ledger h => ih _ (h.put entry.1 entry.2)
  exact step entries [] List.Pairwise.nil

end Ledger

end Bindery
