import Bindery.Proofs.MemoHistory

/-!
# What a memo table holds once a request has returned

While a key is being computed its entry may be written several times: a computation that asks for
its own key stores a value below the one that is still pending. None of this is seen from outside.
`get_preserves` says that no request changes an entry that it finds, and `get_settles` that the value
which a request from outside returned is the value of its key from then on, at every moment of every
later request (`Involves`).

Nothing is assumed about the computations, and of the equality of keys only that it is symmetric and
transitive: a key need not equal itself.
-/

namespace Bindery.Memo

variable {σ κ ν ε : Type} [BEq κ]

/-! ## Entries that stay -/

/-- What is read in `t` is read in `t'` too. -/
def Preserves (t t' : Table σ κ ν) : Prop :=
  ∀ key value, t.entries.get? key = some value → t'.entries.get? key = some value

theorem Preserves.refl (t : Table σ κ ν) : Preserves t t := fun _ _ h => h

theorem Preserves.trans {t u v : Table σ κ ν} (first : Preserves t u) (second : Preserves u v) :
    Preserves t v := fun key value h => second key value (first key value h)

/-- A request that changes no entry of any table. -/
def Preserving (request : Request σ κ ν ε) : Prop :=
  ∀ key t, Preserves t (request key t).2

/-- The steps of a recipe that are no questions change no entry. -/
theorem carried_preserves : Carried (Preserves : Table σ κ ν → Table σ κ ν → Prop) where
  refl := .refl
  trans := .trans
  note t _ := .refl t
  save t _ := .refl t

theorem requests_preserves {request : Request σ κ ν ε} (h : Preserving request) (keys : List κ)
    (t : Table σ κ ν) : Preserves t (requests request keys t) := by
  induction keys generalizing t with
  | nil => exact .refl t
  | cons key rest ih => exact (h key t).trans (ih (request key t).2)

/-- A request for a key that is there answers with its value and does nothing else. -/
theorem get_of_get? (recipe : κ → Recipe σ κ ν ε) (tooDeep : ε) (depth : Nat) {key : κ}
    {t : Table σ κ ν} {value : ν} (h : t.entries.get? key = some value) :
    get recipe tooDeep depth key t = (.ok value, t) := by
  rw [get_eq_fetch]
  unfold fetch
  rw [h]

section

variable [PartialEquivBEq κ]

/-- A value that is stored under an absent key covers no other entry. -/
theorem preserves_store {t u : Table σ κ ν} {key : κ} (h : Preserves t u)
    (habsent : t.entries.get? key = none) (value : ν) : Preserves t (u.store key value) := by
  intro other found hfound
  -- what was found is under another key, since nothing was under this one
  have hne : ¬ (key == other) = true := by
    intro hsame
    rw [Ledger.get?_congr hsame, hfound] at habsent
    contradiction
  rw [Table.store_entries, Ledger.get?_put, if_neg hne]
  exact h other found hfound

/-- A request changes no entry if its computation changes none. -/
theorem fetch_preserves {compute : Request σ κ ν ε} (hcompute : Preserving compute) :
    Preserving (fetch compute) := by
  intro key t
  have hinner : Preserves t (compute key (t.log (.started key))).2 :=
    hcompute key (t.log (.started key))
  rcases fetch_cases compute key t with ⟨value, -, hfetch⟩ | ⟨value, u, habsent, hu, hfetch⟩ |
    ⟨error, u, -, hu, hfetch⟩
  · rw [hfetch]
    exact .refl t
  · rw [hu] at hinner
    rw [hfetch]
    exact preserves_store hinner habsent value
  · rw [hu] at hinner
    rw [hfetch]
    exact hinner

theorem get_preserves (recipe : κ → Recipe σ κ ν ε) (tooDeep : ε) (depth : Nat) :
    Preserving (get recipe tooDeep depth) := by
  rw [get_eq_fetch]
  apply fetch_preserves
  exact carried_preserves.computation (fun _ h => fetch_preserves h) depth

/-- What a request returned is what its key, if equal to itself, has in the table afterwards. -/
theorem get?_of_fetch {compute : Request σ κ ν ε} {key : κ} {t t' : Table σ κ ν} {value : ν}
    (hself : key == key) (h : fetch compute key t = (.ok value, t')) :
    t'.entries.get? key = some value := by
  rcases fetch_cases compute key t with ⟨found, hfound, hfetch⟩ | ⟨found, u, -, -, hfetch⟩ |
    ⟨error, u, -, -, hfetch⟩
  · rw [h] at hfetch
    cases hfetch
    exact hfound
  · -- the last write is that of the request itself, whatever was stored below it
    rw [h] at hfetch
    cases hfetch
    rw [Table.log_entries, Table.store_entries, Ledger.get?_put, if_pos hself]
  · rw [h] at hfetch
    cases hfetch

end

/-! ## The requests inside a request -/

/-- In the course of a recipe that is started with the table `t`, a question for `key` is put when the
table is `u`. -/
inductive Puts (ask : Request σ κ ν ε) :
    Recipe σ κ ν ε → Table σ κ ν → κ → Table σ κ ν → Prop
  | now {next : Except ε ν → Recipe σ κ ν ε} {t : Table σ κ ν} {key : κ} :
      Puts ask (.ask key next) t key t
  | afterAsk {next : Except ε ν → Recipe σ κ ν ε} {t u : Table σ κ ν} {asked key : κ} :
      Puts ask (next (ask asked t).1) (ask asked t).2 key u → Puts ask (.ask asked next) t key u
  | afterLook {next : σ → Recipe σ κ ν ε} {t u : Table σ κ ν} {key : κ} :
      Puts ask (next t.own) t key u → Puts ask (.look next) t key u
  | afterSave {next : Recipe σ κ ν ε} {t u : Table σ κ ν} {own : σ} {key : κ} :
      Puts ask next { t with own := own } key u → Puts ask (.save own next) t key u
  | afterNote {next : Recipe σ κ ν ε} {t u : Table σ κ ν} {record : Record} {key : κ} :
      Puts ask next (t.log (.noted record)) key u → Puts ask (.note record next) t key u

/-- `Involves recipe tooDeep depth key t level asked u`: a request for `key` to the table `t` is, or
comes to at any level of nesting, a request for `asked` to the table `u`, with `level` levels left. -/
inductive Involves (recipe : κ → Recipe σ κ ν ε) (tooDeep : ε) :
    Nat → κ → Table σ κ ν → Nat → κ → Table σ κ ν → Prop
  | itself {depth : Nat} {key : κ} {t : Table σ κ ν} :
      Involves recipe tooDeep depth key t depth key t
  | inside {depth level : Nat} {key asked inner : κ} {t u v : Table σ κ ν} :
      t.entries.get? key = none →
      Puts (get recipe tooDeep depth) (recipe key) (t.log (.started key)) asked u →
      Involves recipe tooDeep depth asked u level inner v →
      Involves recipe tooDeep (depth + 1) key t level inner v

theorem Puts.preserves {ask : Request σ κ ν ε} (hask : Preserving ask) {recipe : Recipe σ κ ν ε}
    {t u : Table σ κ ν} {key : κ} (h : Puts ask recipe t key u) : Preserves t u := by
  induction h with
  | now => exact .refl _
  | afterAsk _ ih => exact (hask _ _).trans ih
  | afterLook _ ih => exact ih
  | afterSave _ ih => exact ih
  | afterNote _ ih => exact ih

section

variable [PartialEquivBEq κ]

/-- At no moment of a request an entry is gone or changed that was there before it. -/
theorem Involves.preserves {recipe : κ → Recipe σ κ ν ε} {tooDeep : ε} {depth level : Nat}
    {key asked : κ} {t u : Table σ κ ν}
    (h : Involves recipe tooDeep depth key t level asked u) : Preserves t u := by
  induction h with
  | itself => exact .refl _
  -- the question is put to a later table, and its own request goes on from there
  | inside _ hputs _ ih =>
    have hbefore := hputs.preserves (get_preserves recipe tooDeep _)
    exact hbefore.trans ih

/-- Once a request from outside has returned a value, that value is settled, whatever the
computations do and however often the key was asked for again while it was computed. After any
further requests from outside it is what every equal key has; and whenever a key is asked for in the
course of a later one, from outside or at any level inside of a computation, the entry is in place,
and if the key is an equal one the answer is the settled value and the table stays as it is: nothing
is computed, stored or noted. -/
theorem get_settles (recipe : κ → Recipe σ κ ν ε) (tooDeep : ε) {depth : Nat} {key : κ}
    {t t' : Table σ κ ν} {value : ν} (hself : key == key)
    (hget : get recipe tooDeep depth key t = (.ok value, t')) (later : List κ) :
    let after := requests (get recipe tooDeep depth) later t'
    (∀ other, key == other → after.entries.get? other = some value) ∧
    ∀ depth' next level asked u, Involves recipe tooDeep depth' next after level asked u →
      u.entries.get? key = some value ∧
      (key == asked → get recipe tooDeep level asked u = (.ok value, u)) := by
  intro after
  have hreturned : t'.entries.get? key = some value := by
    rw [get_eq_fetch] at hget
    exact get?_of_fetch hself hget
  have hafter : after.entries.get? key = some value :=
    requests_preserves (get_preserves recipe tooDeep depth) later t' key value hreturned
  constructor
  · intro other hsame
    rw [← Ledger.get?_congr hsame]
    exact hafter
  · intro depth' next level asked u hinvolves
    have hthere : u.entries.get? key = some value := hinvolves.preserves key value hafter
    refine ⟨hthere, ?_⟩
    intro hsame
    apply get_of_get?
    rw [← Ledger.get?_congr hsame]
    exact hthere

end

/-- The computations of an example: each counts itself. The first two ask for their own key before
they answer, the third does not, and later ones ask for one, written as a truth value. -/
def reentrantRecipe (key : Key) : Recipe Nat Key Nat String :=
  .look fun count => .save (count + 1) <|
    if count = 2 then .answer count
    else .ask (if count < 2 then key else .scalar (.bool true)) fun _ => .answer count

/-- One is computed three times over, and the value of the outermost computation remains. The
computation of two, later on, asks for it and finds that value. -/
theorem get_settles_sample :
    let one : Key := .scalar (.int 1)
    let two : Key := .scalar (.int 2)
    let request := get reentrantRecipe "too deep" 3
    let t := (request one (.empty 0)).2
    (request one (.empty 0)).1 = .ok 0 ∧ (answersOf t.history).map Prod.snd = [2, 1, 0] ∧
      (requests request [two] t).entries.get? (.scalar (.float (.ofInt 1))) = some 0 ∧
      ∃ u, Involves reentrantRecipe "too deep" 3 two t 2 (.scalar (.bool true)) u ∧
        get reentrantRecipe "too deep" 2 (.scalar (.bool true)) u = (.ok 0, u) := by
  intro one two request t
  have hvalue : (request one (.empty 0)).1 = .ok 0 := by decide +kernel
  have hget : request one (.empty 0) = (.ok 0, t) := Prod.ext hvalue rfl
  have hsettled := get_settles reentrantRecipe "too deep" (by decide +kernel) hget
  have hcount : t.own = 3 := by decide +kernel
  have hinvolves : Involves reentrantRecipe "too deep" 3 two t 2 (.scalar (.bool true))
      { t.log (.started two) with own := 4 } := by
    refine .inside (by decide +kernel) ?_ .itself
    apply Puts.afterLook
    rw [Table.log, hcount]
    exact .afterSave .now
  refine ⟨hvalue, by decide +kernel, ?_, _, hinvolves, ?_⟩
  · exact (hsettled [two]).1 _ (by decide +kernel)
  · exact ((hsettled []).2 _ _ _ _ _ hinvolves).2 (by decide +kernel)

end Bindery.Memo
