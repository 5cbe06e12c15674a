import Bindery.Memo
import Bindery.Proofs.KeyEquality

/-!
# What the history of a memo table says about its entries

A request may start computations inside computations, and each of them may fail. What one request
adds to the history is a `Closed` part: every computation that is started in it ends in it, by an
answer or by a failure. If moreover no key is asked for while it is being computed (`undisturbed`),
the request adds to the entries exactly the answers of its part, at the end and in their order
(`Advances`, `get_advances`).

A key is then answered at most once, since the first answer makes it present for good
(`get_computes_once`).
-/

namespace Bindery.Memo

variable {σ κ ν ε : Type}

/-! ## Parts of a history -/

/-- The answers of a history with their keys, oldest first. -/
def answersOf : List (Event κ ν) → Ledger κ ν
  | [] => []
  | .answered key value :: rest => (key, value) :: answersOf rest
  | .started _ :: rest | .failed _ :: rest | .noted _ :: rest => answersOf rest

/-- The keys whose computation was started, oldest first. -/
def startsOf : List (Event κ ν) → List κ
  | [] => []
  | .started key :: rest => key :: startsOf rest
  | .answered _ _ :: rest | .failed _ :: rest | .noted _ :: rest => startsOf rest

/-- The keys whose computation failed, oldest first. -/
def failuresOf : List (Event κ ν) → List κ
  | [] => []
  | .failed key :: rest => key :: failuresOf rest
  | .started _ :: rest | .answered _ _ :: rest | .noted _ :: rest => failuresOf rest

/-- The records that the computations wrote, oldest first. -/
def notesOf : List (Event κ ν) → List Record
  | [] => []
  | .noted record :: rest => record :: notesOf rest
  | .started _ :: rest | .answered _ _ :: rest | .failed _ :: rest => notesOf rest

/-- Whether no computation is started for a key while one for the same key is in progress. `busy`
are the keys in progress at the beginning, the innermost first. -/
def undisturbed [BEq κ] : List κ → List (Event κ ν) → Bool
  | _, [] => true
  | busy, .started key :: rest => !busy.any (· == key) && undisturbed (key :: busy) rest
  | busy, .answered _ _ :: rest => undisturbed busy.tail rest
  | busy, .failed _ :: rest => undisturbed busy.tail rest
  | busy, .noted _ :: rest => undisturbed busy rest

/-- A part of a history in which every computation that is started also ends. -/
inductive Closed : List (Event κ ν) → Prop
  | nil : Closed []
  | noted (record : Record) {rest : List (Event κ ν)} : Closed rest → Closed (.noted record :: rest)
  | answered (key : κ) (value : ν) {inner rest : List (Event κ ν)} : Closed inner → Closed rest →
      Closed (.started key :: (inner ++ .answered key value :: rest))
  | failed (key : κ) {inner rest : List (Event κ ν)} : Closed inner → Closed rest →
      Closed (.started key :: (inner ++ .failed key :: rest))

@[simp] theorem answersOf_append (a b : List (Event κ ν)) :
    answersOf (a ++ b) = answersOf a ++ answersOf b := by
  induction a with
  | nil => rfl
  | cons event rest ih => cases event <;> simp [answersOf, ih]

@[simp] theorem startsOf_append (a b : List (Event κ ν)) :
    startsOf (a ++ b) = startsOf a ++ startsOf b := by
  induction a with
  | nil => rfl
  | cons event rest ih => cases event <;> simp [startsOf, ih]

@[simp] theorem failuresOf_append (a b : List (Event κ ν)) :
    failuresOf (a ++ b) = failuresOf a ++ failuresOf b := by
  induction a with
  | nil => rfl
  | cons event rest ih => cases event <;> simp [failuresOf, ih]

/-- An answer in a history is one of its answers. -/
theorem mem_answersOf {history : List (Event κ ν)} {key : κ} {value : ν} :
    (key, value) ∈ answersOf history ↔ .answered key value ∈ history := by
  induction history with
  | nil => simp [answersOf]
  | cons event rest ih => cases event <;> simp [answersOf, ih]

theorem Closed.append {a b : List (Event κ ν)} (ha : Closed a) (hb : Closed b) :
    Closed (a ++ b) := by
  induction ha with
  | nil => exact hb
  | noted record _ ih => exact .noted record ih
  | answered key value hinner _ _ ih =>
    simpa only [List.cons_append, List.append_assoc] using .answered key value hinner ih
  | failed key hinner _ _ ih =>
    simpa only [List.cons_append, List.append_assoc] using .failed key hinner ih

/-- After a closed part the same keys are in progress as before it. -/
theorem undisturbed_append [BEq κ] {a : List (Event κ ν)} (ha : Closed a) (busy : List κ)
    (b : List (Event κ ν)) :
    undisturbed busy (a ++ b) = (undisturbed busy a && undisturbed busy b) := by
  -- an inner part is followed by the end of its computation, so what is behind is left open too
  induction ha generalizing busy b with
  | nil => simp [undisturbed]
  | noted record _ ih => simp only [List.cons_append, undisturbed, ih]
  | answered key value _ _ ihinner ihrest =>
    simp only [List.cons_append, List.append_assoc, undisturbed, ihinner, List.tail_cons, ihrest,
      Bool.and_assoc]
  | failed key _ _ ihinner ihrest =>
    simp only [List.cons_append, List.append_assoc, undisturbed, ihinner, List.tail_cons, ihrest,
      Bool.and_assoc]

/-- A computation that is started behind a closed history runs undisturbed if the whole is, with its
own key in progress. -/
theorem undisturbed_inner [BEq κ] {history inner rest : List (Event κ ν)} {key : κ}
    (hhistory : Closed history) (hinner : Closed inner)
    (hu : undisturbed [] (history ++ .started key :: (inner ++ rest)) = true) :
    undisturbed [key] inner = true := by
  rw [undisturbed_append hhistory, Bool.and_eq_true] at hu
  simp only [undisturbed, undisturbed_append hinner, Bool.and_eq_true] at hu
  exact hu.2.2.1

/-- What is answered in a closed part was started in it. -/
theorem Closed.mem_startsOf {part : List (Event κ ν)} (h : Closed part) {entry : κ × ν}
    (hentry : entry ∈ answersOf part) : entry.1 ∈ startsOf part := by
  induction h with
  | nil => cases hentry
  | noted record _ ih => exact ih hentry
  | answered key value _ _ ihinner ihrest =>
    simp only [answersOf, answersOf_append, List.mem_append, List.mem_cons] at hentry
    simp only [startsOf, startsOf_append, List.mem_append, List.mem_cons]
    rcases hentry with hin | rfl | hin
    · exact .inr (.inl (ihinner hin))
    · exact .inl rfl
    · exact .inr (.inr (ihrest hin))
  | failed key _ _ ihinner ihrest =>
    simp only [answersOf, answersOf_append, List.mem_append] at hentry
    simp only [startsOf, startsOf_append, List.mem_append, List.mem_cons]
    exact .inr (hentry.imp ihinner ihrest)

/-- In an undisturbed part no computation is started for a key that was in progress before. -/
theorem ne_of_mem_startsOf [BEq κ] {part : List (Event κ ν)} (h : Closed part) {busy : List κ}
    (hu : undisturbed busy part = true) {started : κ} (hstarted : started ∈ startsOf part) {key : κ}
    (hkey : key ∈ busy) : (key == started) = false := by
  induction h generalizing busy with
  | nil => cases hstarted
  | noted record _ ih => exact ih hu hstarted hkey
  | @answered k value inner rest hinner _ ihinner ihrest =>
    simp only [undisturbed, undisturbed_append hinner, List.tail_cons, Bool.and_eq_true,
      Bool.not_eq_true', List.any_eq_false] at hu
    have hmem : started = k ∨ started ∈ startsOf inner ∨ started ∈ startsOf rest := by
      simpa [startsOf] using hstarted
    rcases hmem with rfl | hin | hin
    · simpa using hu.1 key hkey
    · exact ihinner hu.2.1 hin (List.mem_cons_of_mem _ hkey)
    · exact ihrest hu.2.2 hin hkey
  | @failed k inner rest hinner _ ihinner ihrest =>
    simp only [undisturbed, undisturbed_append hinner, List.tail_cons, Bool.and_eq_true,
      Bool.not_eq_true', List.any_eq_false] at hu
    have hmem : started = k ∨ started ∈ startsOf inner ∨ started ∈ startsOf rest := by
      simpa [startsOf] using hstarted
    rcases hmem with rfl | hin | hin
    · simpa using hu.1 key hkey
    · exact ihinner hu.2.1 hin (List.mem_cons_of_mem _ hkey)
    · exact ihrest hu.2.2 hin hkey

theorem ne_of_mem_answersOf [BEq κ] {part : List (Event κ ν)} (h : Closed part) {busy : List κ}
    (hu : undisturbed busy part = true) {entry : κ × ν} (hentry : entry ∈ answersOf part) {key : κ}
    (hkey : key ∈ busy) : (key == entry.1) = false :=
  ne_of_mem_startsOf h hu (h.mem_startsOf hentry) hkey

/-- What is undisturbed among some keys in progress is undisturbed among fewer of them. -/
theorem undisturbed_of_append [BEq κ] {part : List (Event κ ν)} (h : Closed part)
    {inside outside : List κ} (hu : undisturbed (inside ++ outside) part = true) :
    undisturbed inside part = true := by
  induction h generalizing inside with
  | nil => rfl
  | noted record _ ih => exact ih hu
  | answered key value hinner _ ihinner ihrest =>
    simp only [undisturbed, undisturbed_append hinner, List.tail_cons, Bool.and_eq_true,
      List.any_append, Bool.not_or] at hu ⊢
    exact ⟨hu.1.1, ihinner hu.2.1, ihrest hu.2.2⟩
  | failed key hinner _ ihinner ihrest =>
    simp only [undisturbed, undisturbed_append hinner, List.tail_cons, Bool.and_eq_true,
      List.any_append, Bool.not_or] at hu ⊢
    exact ⟨hu.1.1, ihinner hu.2.1, ihrest hu.2.2⟩

/-- A closed part of an undisturbed history is undisturbed by itself. -/
theorem undisturbed_of_infix [BEq κ] {part history : List (Event κ ν)} (h : Closed part)
    (hpart : part <:+: history) (hu : undisturbed [] history = true) :
    undisturbed [] part = true := by
  -- whatever comes before leaves some keys in progress
  have hdrop : ∀ (before rest : List (Event κ ν)) (busy : List κ),
      undisturbed busy (before ++ rest) = true → ∃ busy', undisturbed busy' rest = true := by
    intro before rest
    induction before with
    | nil => exact fun busy hu => ⟨busy, hu⟩
    | cons event before ih =>
      intro busy hu
      cases event with
      | started key =>
        simp only [List.cons_append, undisturbed, Bool.and_eq_true] at hu
        exact ih _ hu.2
      | answered key value => exact ih _ hu
      | failed key => exact ih _ hu
      | noted record => exact ih _ hu
  obtain ⟨before, after, rfl⟩ := hpart
  rw [List.append_assoc] at hu
  obtain ⟨busy, hu⟩ := hdrop before _ [] hu
  rw [undisturbed_append h, Bool.and_eq_true] at hu
  exact undisturbed_of_append h hu.1

/-- Each computation of a closed part answered or failed, whichever of the keys are counted. -/
theorem Closed.countP_startsOf {part : List (Event κ ν)} (h : Closed part) (p : κ → Bool) :
    (startsOf part).countP p =
      (answersOf part).countP (fun entry => p entry.1) + (failuresOf part).countP p := by
  induction h with
  | nil => rfl
  | noted record _ ih => exact ih
  | answered key value _ _ ihinner ihrest =>
    simp only [startsOf, answersOf, failuresOf, startsOf_append, answersOf_append,
      failuresOf_append, List.countP_cons, List.countP_append]
    omega
  | failed key _ _ ihinner ihrest =>
    simp only [startsOf, answersOf, failuresOf, startsOf_append, answersOf_append,
      failuresOf_append, List.countP_cons, List.countP_append]
    omega

theorem Closed.length_startsOf {part : List (Event κ ν)} (h : Closed part) :
    (startsOf part).length = (answersOf part).length + (failuresOf part).length := by
  simpa using h.countP_startsOf fun _ => true

/-! ## What is read off a history -/

theorem Table.calls_eq (t : Table σ κ ν) : t.calls = startsOf t.history := by
  rw [Table.calls]
  induction t.history with
  | nil => rfl
  | cons event rest ih => cases event <;> simp [startsOf, ih]

/-- The memo writes one record for each computation that it starts, and no other. -/
theorem Table.countP_journal (display : κ → List Char) (t : Table σ κ ν) :
    (t.journal display).countP (·.part == .memo) =
      t.calls.length + (notesOf t.history).countP (·.part == .memo) := by
  rw [Table.calls_eq, Table.journal]
  induction t.history with
  | nil => rfl
  | cons event rest ih =>
    cases event <;>
      simp only [List.filterMap_cons, Event.record?, startsOf, notesOf, List.countP_cons, ih,
        List.length_cons, beq_self_eq_true, if_true] <;>
      omega

/-! ## Entries added at the end -/

/-- `new` is `old` with `added` at the end, where no key of `added` was there before or comes
twice. -/
structure Appends [BEq κ] (old added new : Ledger κ ν) : Prop where
  eq : new = old ++ added
  absent : ∀ entry ∈ added, old.get? entry.1 = none
  distinct : added.Distinct

namespace Appends

variable [BEq κ]

theorem refl (entries : Ledger κ ν) : Appends entries [] entries :=
  ⟨(List.append_nil entries).symm, fun _ h => absurd h List.not_mem_nil, List.Pairwise.nil⟩

theorem trans {a b c x y : Ledger κ ν} (first : Appends a x b) (second : Appends b y c) :
    Appends a (x ++ y) c := by
  have habsent : ∀ entry ∈ y, a.get? entry.1 = none ∧ x.get? entry.1 = none := by
    intro entry hentry
    have h := second.absent entry hentry
    rwa [first.eq, Ledger.get?_append, Option.or_eq_none_iff] at h
  refine ⟨?_, ?_, ?_⟩
  · rw [second.eq, first.eq, List.append_assoc]
  · intro entry hentry
    rcases List.mem_append.1 hentry with h | h
    · exact first.absent entry h
    · exact (habsent entry h).1
  · refine List.pairwise_append.2 ⟨first.distinct, second.distinct, fun p hp q hq => ?_⟩
    exact Ledger.get?_eq_none_iff.1 (habsent q hq).2 p hp

/-- A write under a new key. -/
theorem put {entries : Ledger κ ν} {key : κ} (h : entries.get? key = none) (value : ν) :
    Appends entries [(key, value)] (entries.put key value) := by
  refine ⟨Ledger.put_of_get?_eq_none h value, ?_, List.pairwise_singleton _ _⟩
  intro entry hentry
  rw [List.mem_singleton.1 hentry]
  exact h

/-- A key that was there before is not among those added. -/
theorem contains_added [PartialEquivBEq κ] {old added new : Ledger κ ν}
    (h : Appends old added new) {key : κ} (hthere : old.contains key = true) :
    added.contains key = false := by
  rw [Ledger.contains, Option.isSome_eq_false_iff, Option.isNone_iff_eq_none,
    Ledger.get?_eq_none_iff]
  intro entry hentry
  rw [Bool.eq_false_iff]
  intro hsame
  have habsent := h.absent entry hentry
  rw [Ledger.get?_congr hsame] at habsent
  rw [Ledger.contains, habsent] at hthere
  contradiction

end Appends

/-! ## What recipes keep -/

/-- A relation between tables that the steps of a recipe keep, its questions left aside. -/
structure Carried (R : Table σ κ ν → Table σ κ ν → Prop) : Prop where
  refl : ∀ t, R t t
  trans : ∀ {t u v}, R t u → R u v → R t v
  note : ∀ t record, R t (t.log (.noted record))
  save : ∀ t own, R t { t with own := own }

/-- What the questions keep too, a recipe keeps. -/
theorem Carried.perform {R : Table σ κ ν → Table σ κ ν → Prop} (h : Carried R)
    {ask : Request σ κ ν ε} (hask : ∀ key t, R t (ask key t).2) (recipe : Recipe σ κ ν ε)
    (t : Table σ κ ν) : R t (perform ask recipe t).2 := by
  induction recipe generalizing t with
  | answer value => exact h.refl t
  | fail error => exact h.refl t
  | ask key next ih => exact h.trans (hask key t) (ih (ask key t).1 (ask key t).2)
  | look next ih => exact ih t.own t
  | save own next ih => exact h.trans (h.save t own) (ih { t with own := own })
  | note record next ih => exact h.trans (h.note t record) (ih (t.log (.noted record)))

/-- The computation behind a request that follows recipes to a depth. -/
def computation [BEq κ] (recipe : κ → Recipe σ κ ν ε) (tooDeep : ε) : Nat → Request σ κ ν ε
  | 0 => fun _ t => (.error tooDeep, t)
  | depth + 1 => fun key t => perform (get recipe tooDeep depth) (recipe key) t

theorem get_eq_fetch [BEq κ] (recipe : κ → Recipe σ κ ν ε) (tooDeep : ε) (depth : Nat) :
    get recipe tooDeep depth = fetch (computation recipe tooDeep depth) := by
  cases depth <;> rfl

/-- What a request keeps whenever the computation behind it does, every computation keeps. -/
theorem Carried.computation [BEq κ] {R : Table σ κ ν → Table σ κ ν → Prop} (h : Carried R)
    {recipe : κ → Recipe σ κ ν ε} {tooDeep : ε}
    (hfetch : ∀ depth, (∀ key t, R t (computation recipe tooDeep depth key t).2) →
      ∀ key t, R t (fetch (computation recipe tooDeep depth) key t).2)
    (depth : Nat) (key : κ) (t : Table σ κ ν) : R t (computation recipe tooDeep depth key t).2 := by
  induction depth generalizing key t with
  | zero => exact h.refl t
  | succ depth ih =>
    apply h.perform
    rw [get_eq_fetch]
    exact hfetch depth ih

/-! ## What a request does to a table -/

/-- `t'` is the table `t` after work that added `part` to the history. If the part is undisturbed,
the work added to the entries just the answers of the part. -/
structure Advances [BEq κ] (t t' : Table σ κ ν) (part : List (Event κ ν)) : Prop where
  history : t'.history = t.history ++ part
  closed : Closed part
  entries : ∀ busy, undisturbed busy part = true → Appends t.entries (answersOf part) t'.entries

/-- A request that takes every table forward. -/
def Steady [BEq κ] (request : Request σ κ ν ε) : Prop :=
  ∀ key t, ∃ part, Advances t (request key t).2 part

section

variable [BEq κ]

theorem Advances.refl (t : Table σ κ ν) : Advances t t [] :=
  ⟨(List.append_nil _).symm, .nil, fun _ _ => .refl _⟩

theorem Advances.trans {t u v : Table σ κ ν} {a b : List (Event κ ν)} (first : Advances t u a)
    (second : Advances u v b) : Advances t v (a ++ b) := by
  refine ⟨?_, first.closed.append second.closed, fun busy hu => ?_⟩
  · rw [second.history, first.history, List.append_assoc]
  · rw [undisturbed_append first.closed, Bool.and_eq_true] at hu
    rw [answersOf_append]
    exact (first.entries busy hu.1).trans (second.entries busy hu.2)

/-- A record that a computation writes is no answer. -/
theorem Advances.note (t : Table σ κ ν) (record : Record) :
    Advances t (t.log (.noted record)) [.noted record] :=
  ⟨rfl, .noted record .nil, fun _ _ => .refl _⟩

/-- The steps of a recipe that are no questions take the table forward. -/
theorem carried_advances : Carried fun t t' : Table σ κ ν => ∃ part, Advances t t' part where
  refl t := ⟨[], .refl t⟩
  trans := fun ⟨a, ha⟩ ⟨b, hb⟩ => ⟨a ++ b, ha.trans hb⟩
  note t record := ⟨_, .note t record⟩
  save t _ := ⟨[], (Advances.refl t).history, .nil, (Advances.refl t).entries⟩

/-- The three ways in which a request ends: the value is there, or it is computed and stored, or the
computation fails and nothing is stored. -/
theorem fetch_cases (compute : Request σ κ ν ε) (key : κ) (t : Table σ κ ν) :
    (∃ value, t.entries.get? key = some value ∧ fetch compute key t = (.ok value, t)) ∨
    (∃ value u, t.entries.get? key = none ∧ compute key (t.log (.started key)) = (.ok value, u) ∧
      fetch compute key t = (.ok value, (u.store key value).log (.answered key value))) ∨
    (∃ error u, t.entries.get? key = none ∧
      compute key (t.log (.started key)) = (.error error, u) ∧
      fetch compute key t = (.error error, u.log (.failed key))) := by
  cases hget : t.entries.get? key with
  | some value => exact .inl ⟨value, rfl, by simp only [fetch, hget]⟩
  | none =>
    rcases hcompute : compute key (t.log (.started key)) with ⟨error | value, u⟩
    · exact .inr (.inr ⟨error, u, rfl, rfl, by simp only [fetch, hget, hcompute]⟩)
    · exact .inr (.inl ⟨value, u, rfl, rfl, by simp only [fetch, hget, hcompute]⟩)

/-- What was added to the history of a table between two moments. -/
def Table.since (before after : Table σ κ ν) : List (Event κ ν) :=
  after.history.drop before.history.length

theorem Advances.since_eq {t t' : Table σ κ ν} {part : List (Event κ ν)} (h : Advances t t' part) :
    t.since t' = part := by
  rw [Table.since, h.history, List.drop_left]

/-- A computation that fails adds only the answers of the computations inside. -/
theorem Advances.failed {t u : Table σ κ ν} {key : κ} {inner : List (Event κ ν)}
    (h : Advances (t.log (.started key)) u inner) : Advances t (u.log (.failed key))
      (.started key :: (inner ++ [.failed key])) := by
  refine ⟨?_, .failed key h.closed .nil, fun busy hu => ?_⟩
  · simp [h.history]
  · simp only [undisturbed, undisturbed_append h.closed, Bool.and_eq_true] at hu
    simpa [answersOf] using h.entries _ hu.2.1

variable [EquivBEq κ]

/-- While a key is being computed undisturbed, nothing is stored for it. -/
theorem Advances.absent {t u : Table σ κ ν} {key : κ} {inner : List (Event κ ν)} {busy : List κ}
    (h : Advances (t.log (.started key)) u inner) (habsent : t.entries.get? key = none)
    (hu : undisturbed (key :: busy) inner = true) : u.entries.get? key = none := by
  -- the key is in progress, so no computation inside is for it
  have hadded : (answersOf inner).get? key = none := by
    refine Ledger.get?_eq_none_iff.2 fun entry hentry => ?_
    rw [BEq.comm]
    exact ne_of_mem_answersOf h.closed hu hentry (List.mem_cons_self ..)
  have hold : (t.log (.started key)).entries.get? key = none := habsent
  rw [(h.entries _ hu).eq, Ledger.get?_append, hold, hadded]
  rfl

/-- A computation that answers adds its answer behind those of the computations inside. -/
theorem Advances.answered {t u : Table σ κ ν} {key : κ} {inner : List (Event κ ν)}
    (h : Advances (t.log (.started key)) u inner) (habsent : t.entries.get? key = none)
    (value : ν) : Advances t ((u.store key value).log (.answered key value))
      (.started key :: (inner ++ [.answered key value])) := by
  refine ⟨?_, .answered key value h.closed .nil, fun busy hu => ?_⟩
  · simp [h.history]
  · simp only [undisturbed, undisturbed_append h.closed, Bool.and_eq_true] at hu
    have hlast := Appends.put (h.absent habsent hu.2.1) value
    simpa [answersOf] using (h.entries _ hu.2.1).trans hlast

/-- A request takes the table forward if its computation does. -/
theorem fetch_advances {compute : Request σ κ ν ε} (hcompute : Steady compute) :
    Steady (fetch compute) := by
  intro key t
  obtain ⟨inner, hinner⟩ := hcompute key (t.log (.started key))
  rcases fetch_cases compute key t with ⟨value, -, hfetch⟩ | ⟨value, u, habsent, hu, hfetch⟩ |
    ⟨error, u, -, hu, hfetch⟩
  · exact ⟨[], by rw [hfetch]; exact .refl t⟩
  · rw [hu] at hinner
    exact ⟨_, by rw [hfetch]; exact hinner.answered habsent value⟩
  · rw [hu] at hinner
    exact ⟨_, by rw [hfetch]; exact hinner.failed⟩

/-- Whatever the recipes are, a computation takes the table forward. -/
theorem computation_advances (recipe : κ → Recipe σ κ ν ε) (tooDeep : ε) (depth : Nat) :
    Steady (computation recipe tooDeep depth) :=
  carried_advances.computation (fun _ h => fetch_advances h) depth

theorem get_advances (recipe : κ → Recipe σ κ ν ε) (tooDeep : ε) (depth : Nat) :
    Steady (get recipe tooDeep depth) := by
  rw [get_eq_fetch]
  exact fetch_advances (computation_advances recipe tooDeep depth)

end

/-! ## Runs -/

/-- The table after requests made one after another. A failure does not keep the next one from
being made. -/
def requests (request : Request σ κ ν ε) (keys : List κ) (t : Table σ κ ν) : Table σ κ ν :=
  keys.foldl (fun t key => (request key t).2) t

theorem requests_append (request : Request σ κ ν ε) (a b : List κ) (t : Table σ κ ν) :
    requests request (a ++ b) t = requests request b (requests request a t) :=
  List.foldl_append ..

theorem requests_advances [BEq κ] {request : Request σ κ ν ε} (h : Steady request) (keys : List κ)
    (t : Table σ κ ν) : ∃ part, Advances t (requests request keys t) part := by
  induction keys generalizing t with
  | nil => exact ⟨[], .refl t⟩
  | cons key rest ih =>
    obtain ⟨a, ha⟩ := h key t
    obtain ⟨b, hb⟩ := ih (request key t).2
    exact ⟨a ++ b, ha.trans hb⟩

section

variable [BEq κ]

/-- The entries after an undisturbed run are the answers in its history. -/
theorem requests_entries {request : Request σ κ ν ε} (h : Steady request) (keys : List κ) (own : σ)
    (hu : undisturbed [] (requests request keys (.empty own)).history = true) :
    Appends [] (answersOf (requests request keys (.empty own)).history)
      (requests request keys (.empty own)).entries := by
  obtain ⟨part, hpart⟩ := requests_advances h keys (.empty own)
  have hhistory : (requests request keys (.empty own)).history = part := hpart.history
  rw [hhistory] at hu ⊢
  exact hpart.entries [] hu

/-- The entries of an earlier moment of an undisturbed run are there at its end, in the same
places. -/
theorem requests_kept {request : Request σ κ ν ε} (h : Steady request) (earlier later : List κ)
    (own : σ)
    (hu : undisturbed [] (requests request (earlier ++ later) (.empty own)).history = true) :
    (requests request earlier (.empty own)).entries <+:
      (requests request (earlier ++ later) (.empty own)).entries := by
  obtain ⟨first, hfirst⟩ := requests_advances h earlier (.empty own)
  obtain ⟨rest, hrest⟩ := requests_advances h later (requests request earlier (.empty own))
  rw [requests_append] at hu ⊢
  have hhistory := (hfirst.trans hrest).history
  rw [hhistory, show (Table.empty own : Table σ κ ν).history = [] from rfl, List.nil_append,
    undisturbed_append hfirst.closed, Bool.and_eq_true] at hu
  rw [(hrest.entries [] hu.2).eq]
  exact List.prefix_append ..

/-- What a request for `key` that failed by `error` leaves behind: `t` is the table before it and
`t'` the one after it. -/
structure CleanFailure (request compute : Request σ κ ν ε) (key : κ) (t t' : Table σ κ ν)
    (error : ε) : Prop where
  /-- The error is the one by which the computation of the key failed. -/
  raised : (compute key (t.log (.started key))).1 = .error error
  /-- Nothing is stored for the key. -/
  absent : t'.entries.contains key = false
  /-- No entry is lost or changed. -/
  kept : t.entries <+: t'.entries
  /-- What was answered inside of the computation is stored. -/
  nested : ∀ k value, .answered k value ∈ t.since t' → t'.entries.get? k = some value
  /-- The next request for the key starts its computation again: if the key has not been answered
  since, by other requests or inside of them. -/
  again : ∀ others other, key == other →
    undisturbed [] (t'.since (requests request others t')) = true →
    (∀ k value, .answered k value ∈ t'.since (requests request others t') → (k == key) = false) →
    ∃ rest, (requests request others t').since
      (request other (requests request others t')).2 = .started other :: rest

variable [EquivBEq κ]

/-- A request for a key that is not there starts its computation. -/
theorem fetch_starts {compute : Request σ κ ν ε} (hcompute : Steady compute) {key : κ}
    {t : Table σ κ ν} (habsent : t.entries.get? key = none) :
    ∃ rest, t.since (fetch compute key t).2 = .started key :: rest := by
  obtain ⟨inner, hinner⟩ := hcompute key (t.log (.started key))
  rcases fetch_cases compute key t with ⟨value, hvalue, -⟩ | ⟨value, u, -, hu, hfetch⟩ |
    ⟨error, u, -, hu, hfetch⟩
  · rw [habsent] at hvalue
    cases hvalue
  · rw [hu] at hinner
    rw [hfetch, (hinner.answered habsent value).since_eq]
    exact ⟨_, rfl⟩
  · rw [hu] at hinner
    rw [hfetch, hinner.failed.since_eq]
    exact ⟨_, rfl⟩

/-- A request that fails undisturbed fails cleanly. -/
theorem fetch_failed {compute : Request σ κ ν ε} (hcompute : Steady compute) {key : κ}
    {t t' : Table σ κ ν} {error : ε} (hfetch : fetch compute key t = (.error error, t'))
    (hu : undisturbed [] (t.since t') = true) :
    CleanFailure (fetch compute) compute key t t' error := by
  obtain ⟨inner, hinner⟩ := hcompute key (t.log (.started key))
  obtain ⟨u, habsent, hraised, rfl⟩ : ∃ u, t.entries.get? key = none ∧
      compute key (t.log (.started key)) = (.error error, u) ∧ t' = u.log (.failed key) := by
    rcases fetch_cases compute key t with ⟨_, -, h⟩ | ⟨_, _, -, -, h⟩ | ⟨_, u, ha, hc, h⟩ <;>
      rw [hfetch] at h <;> cases h
    exact ⟨u, ha, hc, rfl⟩
  rw [hraised] at hinner
  have hadv := hinner.failed
  rw [hadv.since_eq] at hu
  have happ := hadv.entries [] hu
  have hgone : u.entries.get? key = none := by
    simp only [undisturbed, undisturbed_append hinner.closed, Bool.and_eq_true] at hu
    exact hinner.absent habsent hu.2.1
  refine ⟨by rw [hraised], ?_, ?_, ?_, ?_⟩
  · simp [Ledger.contains, hgone]
  · rw [happ.eq]
    exact List.prefix_append ..
  · intro k value hmem
    rw [hadv.since_eq, ← mem_answersOf] at hmem
    rw [happ.eq, Ledger.get?_append, happ.absent _ hmem, Option.none_or]
    exact happ.distinct.get?_of_mem hmem
  · -- the key is still missing after the other requests, since none of them answered it
    intro others other hsame hothers hbetween
    obtain ⟨part, hpart⟩ := requests_advances (fetch_advances hcompute) others (u.log (.failed key))
    rw [hpart.since_eq] at hothers hbetween
    refine fetch_starts hcompute ?_
    rw [← Ledger.get?_congr hsame, (hpart.entries [] hothers).eq, Ledger.get?_append,
      Table.log_entries, hgone, Option.none_or]
    exact Ledger.get?_eq_none_iff.2 fun entry hentry => hbetween _ _ (mem_answersOf.1 hentry)

/-- Computations that keep a state, fail and ask for other keys are carried out at most once for each
key, unless one of them asks for a key that is still being computed. After any such run:

* a key was answered by one computation if it is there, and by none if it is not;
* the size is the number of keys that were answered, all of them different;
* no entry of an earlier moment has been lost or changed;
* every request of the run that failed, from outside or inside of a computation, failed cleanly;
* the memo wrote one record for each computation that was started, besides what the computations
  themselves wrote in its name, and each computation either answered or failed. -/
theorem get_computes_once (recipe : κ → Recipe σ κ ν ε) (tooDeep : ε) (depth : Nat) (own : σ)
    (keys : List κ)
    (hu : undisturbed [] (requests (get recipe tooDeep depth) keys (.empty own)).history = true) :
    let after := fun keys => requests (get recipe tooDeep depth) keys (.empty own)
    let history := (after keys).history
    (∀ key, (answersOf history).countP (·.1 == key) =
      if (after keys).entries.contains key then 1 else 0) ∧
    ((after keys).size = (answersOf history).length ∧ (answersOf history).Distinct) ∧
    (∀ earlier later, keys = earlier ++ later → (after earlier).entries <+: (after keys).entries) ∧
    (∀ depth key t t' error, get recipe tooDeep depth key t = (.error error, t') →
      t.since t' <:+: history →
      CleanFailure (get recipe tooDeep depth) (computation recipe tooDeep depth) key t t' error) ∧
    (∀ display, ((after keys).journal display).countP (·.part == .memo) =
      (after keys).calls.length + (notesOf history).countP (·.part == .memo)) ∧
    (after keys).calls.length = (answersOf history).length + (failuresOf history).length := by
  intro after history
  have hsteady := get_advances recipe tooDeep depth
  have hentries : Appends [] (answersOf history) (after keys).entries :=
    requests_entries hsteady keys own hu
  have heq : (after keys).entries = answersOf history := hentries.eq
  refine ⟨?_, ⟨?_, hentries.distinct⟩, ?_, ?_, ?_, ?_⟩
  · intro key
    rw [heq]
    exact hentries.distinct.countP key
  · rw [Table.size, heq]
  · rintro earlier later rfl
    exact requests_kept hsteady earlier later own hu
  · intro depth key t t' error hget hpart
    obtain ⟨part, hadv⟩ := get_advances recipe tooDeep depth key t
    rw [hget] at hadv
    rw [hadv.since_eq] at hpart
    -- what a request adds is closed, so it is undisturbed as the whole run is
    have hpartu := undisturbed_of_infix hadv.closed hpart hu
    rw [get_eq_fetch] at hget ⊢
    apply fetch_failed (computation_advances recipe tooDeep depth) hget
    rwa [hadv.since_eq]
  · exact fun display => Table.countP_journal display (after keys)
  · obtain ⟨part, hadv⟩ := requests_advances hsteady keys (.empty own)
    have hhistory : history = part := hadv.history
    rw [Table.calls_eq, show (after keys).history = part from hadv.history, hhistory]
    exact hadv.closed.length_startsOf

end

/-- The computations of an example: each counts itself, and two asks for one, written as a fraction,
and fails if nothing was computed before. -/
def sampleRecipe (key : Key) : Recipe Nat Key Nat String :=
  .look fun count => .save (count + 1) <|
    if key == .scalar (.int 2) then
      .ask (.scalar (.float (.ofInt 1))) fun _ =>
        if count = 0 then .fail "too early" else .answer count
    else .answer count

/-- Two fails, after one has been computed inside of it; a truth value finds that one, and two is
computed again. -/
theorem get_computes_once_sample :
    let keys : List Key := [.scalar (.int 2), .scalar (.bool true), .scalar (.int 2)]
    let t := requests (get sampleRecipe "too deep" 3) keys (.empty 0)
    undisturbed [] t.history = true ∧
      (answersOf t.history).countP (·.1 == .scalar (.int 1)) = 1 ∧ t.size = 2 ∧
      t.calls.length = 3 := by
  intro keys t
  have hu : undisturbed [] t.history = true := by decide +kernel
  obtain ⟨honce, ⟨hsize, -⟩, -, -, -, hcalls⟩ :=
    get_computes_once sampleRecipe "too deep" 3 0 keys hu
  refine ⟨hu, ?_, ?_, ?_⟩
  · rw [honce]
    decide +kernel
  · rw [hsize]
    decide +kernel
  · rw [hcalls]
    decide +kernel

end Bindery.Memo
