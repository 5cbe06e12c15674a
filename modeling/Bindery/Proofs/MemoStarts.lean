import Bindery.Proofs.MemoStability

/-!
# When a memo table starts a computation

A computation is started only for a key that is not there, and a key that was answered is there from
then on, whatever the computations do. So no computation is started for a key after its first
answer, and every one before failed: `Accounts` says what one request adds to the history,
`get_accounts` that every request adds only this, and `Tracked` is what follows for one key of a
table, kept by every request that leaves the history undisturbed (`Tracked.get`).

Only a key in progress could be started again while it is computed, which an undisturbed history
excludes: a request for a missing key starts its computation exactly once (`Tracked.get_missing`).
-/

namespace Bindery.Memo

variable {σ κ ν ε : Type}

/-! ## Undisturbed histories -/

/-- While a key is computed undisturbed, no computation for it fails below. -/
theorem countP_failuresOf_busy [BEq κ] [PartialEquivBEq κ] {part : List (Event κ ν)}
    (h : Closed part) {key : κ} {busy : List κ}
    (hu : undisturbed (key :: busy) part = true) : (failuresOf part).countP (· == key) = 0 := by
  have hstarts : (startsOf part).countP (· == key) = 0 := by
    refine List.countP_eq_zero.2 fun started hstarted => ?_
    rw [BEq.comm, ne_of_mem_startsOf h hu hstarted (List.mem_cons_self ..)]
    exact Bool.false_ne_true
  have hcount := h.countP_startsOf (· == key)
  omega

/-- The beginning of an undisturbed history is undisturbed. -/
theorem undisturbed_of_leading [BEq κ] {before history : List (Event κ ν)}
    (h : before <+: history) {busy : List κ} (hu : undisturbed busy history = true) :
    undisturbed busy before = true := by
  obtain ⟨rest, rfl⟩ := h
  induction before generalizing busy with
  | nil => rfl
  | cons event before ih =>
    cases event with
    | started key =>
      simp only [List.cons_append, undisturbed, Bool.and_eq_true] at hu ⊢
      exact ⟨hu.1, ih hu.2⟩
    | answered key value => exact ih hu
    | failed key => exact ih hu
    | noted record => exact ih hu

/-! ## What one request adds -/

/-- A place in two lists on end is a place in the second one or in the first one. -/
theorem split_append {α : Type} {a b before rest : List α} {x : α}
    (h : a ++ b = before ++ x :: rest) :
    (∃ mid, before = a ++ mid ∧ b = mid ++ x :: rest) ∨ ∃ mid, a = before ++ x :: mid := by
  rcases List.append_eq_append_iff.1 h with ⟨mid, hbefore, hb⟩ | ⟨mid, ha, hmid⟩
  · exact .inl ⟨mid, hbefore, hb⟩
  · cases mid with
    | nil => exact .inl ⟨[], by simpa using ha.symm, hmid.symm⟩
    | cons y mid =>
      rw [List.cons_append, List.cons_eq_cons] at hmid
      exact .inr ⟨mid, by rw [ha, hmid.1]⟩

/-- In the history stands a computation of the key that came to the value. -/
def Yields [BEq κ] (recipe : κ → Recipe σ κ ν ε) (tooDeep : ε) (history : List (Event κ ν))
    (key : κ) (value : ν) : Prop :=
  ∃ (depth : Nat) (t u : Table σ κ ν),
    computation recipe tooDeep depth key (t.log (.started key)) = (.ok value, u) ∧
    u.history ++ [.answered key value] <+: history

/-- `t'` is the table `t` after work that followed recipes and added `part` to the history. -/
structure Accounts [BEq κ] (recipe : κ → Recipe σ κ ν ε) (tooDeep : ε) (t t' : Table σ κ ν)
    (part : List (Event κ ν)) : Prop where
  history : t'.history = t.history ++ part
  /-- What was there, or was answered, is there. -/
  there : ∀ key, t.entries.contains key = true ∨ (answersOf part).contains key = true →
    t'.entries.contains key = true
  /-- A computation is started for a key that was not there and has not been answered since. -/
  missing : ∀ before key rest, part = before ++ .started key :: rest →
    t.entries.contains key = false ∧ (answersOf before).contains key = false
  /-- An answer is what a computation of its key came to. -/
  answers : ∀ key value, (key, value) ∈ answersOf part →
    Yields recipe tooDeep t'.history key value

/-- A request after which the history accounts for the computations. -/
def Accountable [BEq κ] (recipe : κ → Recipe σ κ ν ε) (tooDeep : ε) (request : Request σ κ ν ε) :
    Prop :=
  ∀ key t, ∃ part, Accounts recipe tooDeep t (request key t).2 part

section

variable [BEq κ] {recipe : κ → Recipe σ κ ν ε} {tooDeep : ε}

theorem Yields.mono {before history : List (Event κ ν)} {key : κ} {value : ν}
    (h : Yields recipe tooDeep before key value) (hleads : before <+: history) :
    Yields recipe tooDeep history key value := by
  obtain ⟨depth, t, u, hcompute, hbefore⟩ := h
  exact ⟨depth, t, u, hcompute, hbefore.trans hleads⟩

theorem Accounts.refl (t : Table σ κ ν) : Accounts recipe tooDeep t t [] where
  history := (List.append_nil _).symm
  there key h := by simpa [answersOf, Ledger.contains] using h
  missing before key rest h := by simp at h
  answers key value h := by cases h

theorem contains_answersOf_append (a b : List (Event κ ν)) (key : κ) :
    (answersOf (a ++ b)).contains key =
      ((answersOf a).contains key || (answersOf b).contains key) := by
  rw [answersOf_append, Ledger.contains, Ledger.get?_append, Option.isSome_or]
  rfl

theorem Accounts.trans {t u v : Table σ κ ν} {a b : List (Event κ ν)}
    (first : Accounts recipe tooDeep t u a) (second : Accounts recipe tooDeep u v b) :
    Accounts recipe tooDeep t v (a ++ b) where
  history := by rw [second.history, first.history, List.append_assoc]
  there key h := by
    rw [contains_answersOf_append, Bool.or_eq_true, ← or_assoc] at h
    rcases h with h | h
    · exact second.there key (.inl (first.there key h))
    · exact second.there key (.inr h)
  missing before key rest h := by
    rcases split_append h with ⟨mid, rfl, hb⟩ | ⟨mid, ha⟩
    · -- the computation is started in the second part, where a key of the first one is there
      obtain ⟨hu, hmissing⟩ := second.missing mid key rest hb
      have hfirst := mt (first.there key) (Bool.eq_false_iff.1 hu)
      rw [not_or, Bool.not_eq_true, Bool.not_eq_true] at hfirst
      rw [contains_answersOf_append, hfirst.2, hmissing]
      exact ⟨hfirst.1, rfl⟩
    · exact first.missing before key mid ha
  answers key value h := by
    rw [answersOf_append] at h
    rcases List.mem_append.1 h with h | h
    · exact (first.answers key value h).mono ⟨b, second.history.symm⟩
    · exact second.answers key value h

/-- An event that neither starts nor answers anything. -/
theorem Accounts.log (t : Table σ κ ν) {event : Event κ ν} (hstart : ∀ key, event ≠ .started key)
    (hanswer : answersOf [event] = []) : Accounts recipe tooDeep t (t.log event) [event] where
  history := rfl
  there key h := by simpa [hanswer, Ledger.contains] using h
  missing before key rest h := by
    cases before with
    | nil => exact absurd (List.cons_eq_cons.1 h).1 (hstart key)
    | cons event before => simp at h
  answers key value h := by simp [hanswer] at h

/-- The steps of a recipe that are no questions account for themselves. -/
theorem carried_accounts :
    Carried fun t t' : Table σ κ ν => ∃ part, Accounts recipe tooDeep t t' part where
  refl t := ⟨[], .refl t⟩
  trans := fun ⟨a, ha⟩ ⟨b, hb⟩ => ⟨a ++ b, ha.trans hb⟩
  note t _ := ⟨_, .log t (fun _ h => by cases h) rfl⟩
  save t _ :=
    have h := Accounts.refl t
    ⟨[], h.history, h.there, h.missing, h.answers⟩

/-- The start of a computation for a missing key. -/
theorem Accounts.start {t : Table σ κ ν} {key : κ} (h : t.entries.get? key = none) :
    Accounts recipe tooDeep t (t.log (.started key)) [.started key] where
  history := rfl
  there other h := by simpa [answersOf, Ledger.contains] using h
  missing before other rest hpart := by
    cases before with
    | nil =>
      cases hpart
      exact ⟨by rw [Ledger.contains, h]; rfl, rfl⟩
    | cons event before => simp at hpart
  answers other value h := by cases h

variable [PartialEquivBEq κ]

/-- The answer of a computation. -/
theorem Accounts.answer {t u : Table σ κ ν} {depth : Nat} {key : κ} {value : ν}
    (h : computation recipe tooDeep depth key (t.log (.started key)) = (.ok value, u)) :
    Accounts recipe tooDeep u ((u.store key value).log (.answered key value))
      [.answered key value] where
  history := rfl
  there other h := by
    rw [Table.log_entries, Table.store_entries, Ledger.contains, Ledger.get?_put]
    split
    · rfl
    · next hne => simpa [answersOf, Ledger.contains, Ledger.get?, hne] using h
  missing before other rest hpart := by
    cases before with
    | nil => simp at hpart
    | cons event before => simp at hpart
  answers other found hfound := by
    cases List.mem_singleton.1 hfound
    exact ⟨depth, t, u, h, List.prefix_rfl⟩

/-- A request accounts for the computations if the computation behind it does. -/
theorem fetch_accounts {depth : Nat}
    (hcompute : Accountable recipe tooDeep (computation recipe tooDeep depth)) :
    Accountable recipe tooDeep (fetch (computation recipe tooDeep depth)) := by
  intro key t
  obtain ⟨inner, hinner⟩ := hcompute key (t.log (.started key))
  rcases fetch_cases (computation recipe tooDeep depth) key t with
    ⟨value, -, hfetch⟩ | ⟨value, u, habsent, hu, hfetch⟩ | ⟨error, u, habsent, hu, hfetch⟩
  · exact ⟨[], by rw [hfetch]; exact .refl t⟩
  · rw [hu] at hinner
    have hanswer := Accounts.answer hu
    exact ⟨_, by rw [hfetch]; exact ((Accounts.start habsent).trans hinner).trans hanswer⟩
  · rw [hu] at hinner
    have hfail : Accounts recipe tooDeep u (u.log (.failed key)) [.failed key] :=
      .log u (fun _ h => by cases h) rfl
    exact ⟨_, by rw [hfetch]; exact ((Accounts.start habsent).trans hinner).trans hfail⟩

theorem computation_accounts (recipe : κ → Recipe σ κ ν ε) (tooDeep : ε) (depth : Nat) :
    Accountable recipe tooDeep (computation recipe tooDeep depth) :=
  carried_accounts.computation (fun _ h => fetch_accounts h) depth

theorem get_accounts (recipe : κ → Recipe σ κ ν ε) (tooDeep : ε) (depth : Nat) :
    Accountable recipe tooDeep (get recipe tooDeep depth) := by
  rw [get_eq_fetch]
  exact fetch_accounts (computation_accounts recipe tooDeep depth)

end

/-! ## One key of a table -/

/-- Between two histories the computation of a key ran once, with this outcome: it answered for
good, or it failed. -/
def RunOnce [BEq κ] (key : κ) (before after : List (Event κ ν)) : Except ε ν → Prop
  | .ok value =>
    (startsOf after).countP (· == key) = (startsOf before).countP (· == key) + 1 ∧
    (failuresOf after).countP (· == key) = (failuresOf before).countP (· == key) ∧
    (answersOf after).get? key = some value
  | .error _ =>
    (startsOf after).countP (· == key) = (startsOf before).countP (· == key) + 1 ∧
    (failuresOf after).countP (· == key) = (failuresOf before).countP (· == key) + 1 ∧
    (answersOf after).get? key = none

/-- The history of a table accounts for the entry of a key. -/
structure Tracked [BEq κ] (recipe : κ → Recipe σ κ ν ε) (tooDeep : ε) (key : κ)
    (t : Table σ κ ν) : Prop where
  closed : Closed t.history
  /-- The entry is the first answer for the key. -/
  entry : t.entries.get? key = (answersOf t.history).get? key
  /-- There is no second answer. -/
  once : (answersOf t.history).countP (·.1 == key) =
    if (answersOf t.history).contains key then 1 else 0
  /-- No computation for the key is started after the answer. -/
  missing : ∀ before other rest, t.history = before ++ .started other :: rest → other == key →
    (answersOf before).contains key = false
  /-- Every answer is what a computation came to. -/
  answers : ∀ other value, (other, value) ∈ answersOf t.history →
    Yields recipe tooDeep t.history other value

namespace Tracked

variable [BEq κ] {recipe : κ → Recipe σ κ ν ε} {tooDeep : ε} {key : κ} {t : Table σ κ ν}

theorem empty (own : σ) : Tracked recipe tooDeep key (.empty own) where
  closed := .nil
  entry := rfl
  once := rfl
  missing before other rest h := by cases before <;> cases h
  answers other value h := by cases h

/-- The computations of the key failed, up to one that answered. -/
theorem countP_startsOf (h : Tracked recipe tooDeep key t) :
    (startsOf t.history).countP (· == key) = (failuresOf t.history).countP (· == key) +
      if (answersOf t.history).contains key then 1 else 0 := by
  rw [h.closed.countP_startsOf, h.once, Nat.add_comm]

/-- Only the entry of the key itself matters. -/
theorem congr {u : Table σ κ ν} (h : Tracked recipe tooDeep key t)
    (hhistory : u.history = t.history) (hentry : u.entries.get? key = t.entries.get? key) :
    Tracked recipe tooDeep key u where
  closed := hhistory ▸ h.closed
  entry := by rw [hentry, hhistory, h.entry]
  once := hhistory ▸ h.once
  missing := hhistory ▸ h.missing
  answers := hhistory ▸ h.answers

/-- Between two moments the computation of a key ran once if it has failed once more and there is no
entry, or has failed no more and its value is the entry: the starts are counted by the failures and
the answer. -/
theorem runOnce {t' : Table σ κ ν} (h : Tracked recipe tooDeep key t)
    (h' : Tracked recipe tooDeep key t') (hmissing : (answersOf t.history).get? key = none)
    {outcome : Except ε ν} (hentry : t'.entries.get? key = outcome.toOption)
    (hfailures : (failuresOf t'.history).countP (· == key) =
      (failuresOf t.history).countP (· == key) + if outcome.isOk then 0 else 1) :
    RunOnce key t.history t'.history outcome := by
  have hstarts := h.countP_startsOf
  have hstarts' := h'.countP_startsOf
  rw [Ledger.contains, hmissing] at hstarts
  rw [Ledger.contains, ← h'.entry, hentry, hfailures] at hstarts'
  rw [h'.entry] at hentry
  cases outcome with
  | ok value => exact ⟨by rw [hstarts', hstarts]; rfl, hfailures, hentry⟩
  | error error => exact ⟨by rw [hstarts', hstarts]; rfl, hfailures, hentry⟩

variable [EquivBEq κ]

/-- A request keeps track of every key, its own and all others. -/
theorem get (h : Tracked recipe tooDeep key t) (depth : Nat) (asked : κ)
    (hu : undisturbed [] (get recipe tooDeep depth asked t).2.history = true) :
    Tracked recipe tooDeep key (get recipe tooDeep depth asked t).2 := by
  obtain ⟨part, hadv⟩ := get_advances recipe tooDeep depth asked t
  obtain ⟨part', hacc⟩ := get_accounts recipe tooDeep depth asked t
  generalize (Memo.get recipe tooDeep depth asked t).2 = t' at hu hadv hacc ⊢
  -- both speak of what the request added to the history
  obtain rfl : part' = part :=
    List.append_cancel_left (hacc.history.symm.trans hadv.history)
  rw [hadv.history, undisturbed_append h.closed, Bool.and_eq_true] at hu
  have happends := hadv.entries [] hu.2
  refine ⟨?_, ?_, ?_, ?_, ?_⟩
  · rw [hadv.history]
    exact h.closed.append hadv.closed
  · rw [hadv.history, happends.eq, answersOf_append, Ledger.get?_append, Ledger.get?_append,
      h.entry]
  · rw [hadv.history, contains_answersOf_append, answersOf_append, List.countP_append, h.once,
      happends.distinct.countP]
    by_cases hthere : (answersOf t.history).contains key = true
    · -- an answer for the key in the new part would have found the old one
      have hold : Ledger.contains key t.entries = true := by
        rw [Ledger.contains, h.entry]
        exact hthere
      simp [hthere, happends.contains_added hold]
    · simp [hthere]
  · intro before other rest heq hsame
    rw [hadv.history] at heq
    rcases split_append heq with ⟨mid, rfl, hpart⟩ | ⟨mid, hold⟩
    · -- started by this request: the key was not there, so it had not been answered either
      obtain ⟨hthere, hmissing⟩ := hacc.missing mid other rest hpart
      rw [Ledger.contains, Ledger.get?_congr hsame] at hthere hmissing
      rw [contains_answersOf_append, Ledger.contains, ← h.entry, hthere, Ledger.contains, hmissing]
      rfl
    · exact h.missing before other mid hold hsame
  · intro other value hanswer
    have hsplit := hanswer
    rw [hadv.history, answersOf_append] at hsplit
    rcases List.mem_append.1 hsplit with hold | hnew
    · exact (h.answers other value hold).mono ⟨part', hadv.history.symm⟩
    · exact hacc.answers other value hnew

/-- A request for a key that was not answered yet runs its computation once. -/
theorem get_missing (h : Tracked recipe tooDeep key t) (depth : Nat)
    (hmissing : (answersOf t.history).get? key = none) {outcome : Except ε ν} {t' : Table σ κ ν}
    (hget : Memo.get recipe tooDeep depth key t = (outcome, t'))
    (hu : undisturbed [] t'.history = true) : RunOnce key t.history t'.history outcome := by
  have h' : Tracked recipe tooDeep key t' := by
    have hkept := h.get depth key
    rw [hget] at hkept
    exact hkept hu
  rw [get_eq_fetch] at hget
  obtain ⟨inner, hinner⟩ := computation_advances recipe tooDeep depth key (t.log (.started key))
  rcases fetch_cases (computation recipe tooDeep depth) key t with
    ⟨value, hfound, -⟩ | ⟨value, u, habsent, hcompute, hfetch⟩ |
    ⟨error, u, habsent, hcompute, hfetch⟩
  · rw [h.entry, hmissing] at hfound
    cases hfound
  · rw [hcompute] at hinner
    rw [hfetch] at hget
    obtain ⟨rfl, rfl⟩ := Prod.mk.inj hget
    have hadv := hinner.answered habsent value
    rw [hadv.history] at hu
    -- none of the computations inside was for the key, so the failures are those from before
    have hbelow := countP_failuresOf_busy hinner.closed (undisturbed_inner h.closed hinner.closed hu)
    have hentry : ((u.store key value).log (.answered key value)).entries.get? key =
        (Except.ok value : Except ε ν).toOption := get?_of_fetch (BEq.refl key) hfetch
    apply h.runOnce h' hmissing hentry
    rw [hadv.history]
    simp [failuresOf, hbelow, Except.isOk, Except.toBool]
  · rw [hcompute] at hinner
    rw [hfetch] at hget
    obtain ⟨rfl, rfl⟩ := Prod.mk.inj hget
    have hadv := hinner.failed
    rw [hadv.history] at hu
    have hquiet := undisturbed_inner h.closed hinner.closed hu
    have hbelow := countP_failuresOf_busy hinner.closed hquiet
    have hentry : (u.log (.failed key)).entries.get? key =
        (Except.error error : Except ε ν).toOption := hinner.absent habsent hquiet
    apply h.runOnce h' hmissing hentry
    rw [hadv.history]
    simp [failuresOf, hbelow, Except.isOk, Except.toBool]

end Tracked

end Bindery.Memo
