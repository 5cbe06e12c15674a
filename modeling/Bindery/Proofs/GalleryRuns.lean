import Bindery.Attribute
import Bindery.Proofs.MemoStarts

/-!
# Reading attributes over a run

Objects are made, renamed, read and assigned to, in any order, and attributes are attached to
classes meanwhile. `reads_agree` says what reads come to over such a run: an attribute is computed
for an object until a computation succeeds, and has the value that this one gave from then on.

What an attribute is stored under depends on its index and, among objects that are the same by
identity, on the serial number of the object alone: neither the name of the attribute nor that of
the object matters (`Slot.beq_iff`, `Slot.rename_beq`). Among objects that are the same by name the
name of the object matters instead, so those must keep it.
-/

namespace Bindery

open Memo

/-- Whether two objects are one, in the sense of the sameness. -/
def Sameness.Relates (sameness : Sameness) (a b : Thing) : Prop :=
  match sameness with
  | .byIdentity => a.serial = b.serial
  | .byName => a.name = b.name

namespace Slot

/-- What is seen of the owner of a slot. -/
def ownerSeen (slot : Slot) : Nat ⊕ (String × String) :=
  match slot.owner.sameness with
  | .byIdentity => .inl slot.owner.serial
  | .byName => .inr (slot.filed, slot.owner.name)

theorem beq_iff {a b : Slot} :
    (a == b) = true ↔ a.index = b.index ∧ a.ownerSeen = b.ownerSeen := by
  change a.same b = true ↔ _
  unfold same ownerSeen
  cases a.owner.sameness <;> cases b.owner.sameness <;> simp

instance : EquivBEq Slot where
  rfl := beq_iff.2 ⟨rfl, rfl⟩
  symm h := beq_iff.2 ⟨(beq_iff.1 h).1.symm, (beq_iff.1 h).2.symm⟩
  trans h h' := beq_iff.2
    ⟨(beq_iff.1 h).1.trans (beq_iff.1 h').1, (beq_iff.1 h).2.trans (beq_iff.1 h').2⟩

/-- The slots of two objects now are one if the attribute is the same one and the objects are. -/
theorem of_beq_of {sameness : Sameness} {a b : Thing} (ha : a.sameness = sameness)
    (hb : b.sameness = sameness) (i j : Nat) :
    (Slot.of i a == Slot.of j b) = true ↔ i = j ∧ sameness.Relates a b := by
  rw [beq_iff]
  cases sameness <;> simp [Slot.of, ownerSeen, ha, hb, Sameness.Relates]

/-- A slot that is one with that of an object now is for the same attribute and object. -/
theorem of_beq {slot : Slot} {index : Nat} {thing : Thing} (h : (slot == .of index thing) = true) :
    slot.index = index ∧ slot.owner.sameness = thing.sameness ∧
      thing.sameness.Relates slot.owner thing := by
  obtain ⟨hindex, hseen⟩ := beq_iff.1 h
  refine ⟨hindex, ?_⟩
  unfold ownerSeen of at hseen
  cases hslot : slot.owner.sameness <;> cases hthing : thing.sameness <;>
    simp_all [Sameness.Relates]

/-- A new name of an owner is not seen by identity. -/
theorem rename_beq {q : Slot} (hq : q.owner.sameness = .byIdentity) (serial : Nat) (name : String)
    (slot : Slot) : (slot.rename serial name == q) = (slot == q) := by
  rw [Bool.eq_iff_iff, beq_iff, beq_iff]
  unfold rename ownerSeen
  rw [hq]
  split
  · cases slot.owner.sameness <;> simp
  · rfl

/-- What is stored by identity is found again after its owner, or any other object, is renamed. -/
theorem get?_map_rename {ν : Type} {q : Slot} (hq : q.owner.sameness = .byIdentity) (serial : Nat)
    (name : String) (entries : Ledger Slot ν) :
    Ledger.get? q (entries.map fun (slot, value) => (slot.rename serial name, value)) =
      entries.get? q := by
  induction entries with
  | nil => rfl
  | cons entry rest ih => rw [List.map_cons, Ledger.get?, Ledger.get?, rename_beq hq, ih]

end Slot

/-- Attaches an attribute to a class under one more name. -/
def Catalog.attach (shape name : String) (index : Nat) (c : Catalog) : Catalog :=
  { c with shapes := c.shapes.put shape (((c.shapes.get? shape).getD []).put name index) }

/-- What a class gets besides its body is attached to it afterwards, one after another. -/
theorem Catalog.declare_concat (shape : String) (body late : List (String × Nat))
    (entry : String × Nat) (c : Catalog) :
    c.declare shape body (late ++ [entry]) =
      (c.declare shape body late).attach shape entry.1 entry.2 := by
  simp [declare, attach, Ledger.get?_put, Ledger.put_put, List.foldl_append]

namespace Gallery

variable {σ ν ε : Type}

/-! ## Runs -/

/-- What is done with objects, which are given by their labels. -/
inductive Act where
  | attach (shape name : String) (index : Nat)
  | create (label shape name : String)
  | rename (label name : String)
  | read (label name : String)
  | assign (label name : String)
  deriving DecidableEq, Repr

namespace Act

/-- The label of the object that the act makes. -/
def makes? : Act → Option String
  | create label _ _ => some label
  | attach .. | rename .. | read .. | assign .. => none

/-- Whether the act tries to assign an attribute. -/
def assigns : Act → Bool
  | assign .. => true
  | attach .. | create .. | rename .. | read .. => false

/-- Does the act; a read ends with a value. An act on a label without object is idle. -/
def perform (compute : Computation σ ν ε) (tooDeep : ε) (depth : Nat) (g : Gallery σ ν) :
    Act → Except (ReadError ε) (Option ν) × Gallery σ ν
  | attach shape name index => (.ok none, { g with catalog := g.catalog.attach shape name index })
  | create label shape name => (.ok none, g.create label shape name)
  | rename label name => (.ok none, g.rename label name)
  | read label name =>
    match g.things.get? label with
    | none => (.ok none, g)
    | some thing =>
      let (outcome, g') := g.read compute tooDeep depth thing name
      (outcome.map some, g')
  | assign label name =>
    match g.things.get? label with
    | none => (.ok none, g)
    | some thing => (.error (.fault (g.refusal thing name)), g)

end Act

/-- The gallery after acts done one after another. -/
def after (compute : Computation σ ν ε) (tooDeep : ε) (depth : Nat) (acts : List Act)
    (g : Gallery σ ν) : Gallery σ ν :=
  acts.foldl (fun g act => (act.perform compute tooDeep depth g).2) g

section

variable (compute : Computation σ ν ε) (tooDeep : ε) (depth : Nat)

theorem after_concat (acts : List Act) (act : Act) (g : Gallery σ ν) :
    after compute tooDeep depth (acts ++ [act]) g =
      (act.perform compute tooDeep depth (after compute tooDeep depth acts g)).2 :=
  List.foldl_append ..

theorem after_append (earlier later : List Act) (g : Gallery σ ν) :
    after compute tooDeep depth (earlier ++ later) g =
      after compute tooDeep depth later (after compute tooDeep depth earlier g) :=
  List.foldl_append ..

/-! ## Where objects come from -/

/-- The object under a label after some acts: the last act that made one for the label made it, its
serial number counts the objects made before, and it has its first name if it was never renamed. -/
structure Origin (sameness : Sameness) (acts : List Act) (label : String) (thing : Thing) :
    Prop where
  made : ∃ earlier name later, acts = earlier ++ .create label thing.shape name :: later ∧
    (∀ act ∈ later, act.makes? ≠ some label) ∧
    thing.serial = earlier.countP (·.makes?.isSome) ∧
    ((∀ new, .rename label new ∉ later) → thing.name = name)
  label_eq : thing.label = label
  sameness_eq : thing.sameness = sameness

namespace Origin

variable {sameness : Sameness} {acts : List Act} {label : String} {thing : Thing}

/-- An object keeps its origin as long as no other one is made for its label. -/
theorem concat (h : Origin sameness acts label thing) {act : Act}
    (hmakes : act.makes? ≠ some label) : Origin sameness (acts ++ [act]) label thing := by
  obtain ⟨earlier, name, later, hacts, hlast, hserial, hname⟩ := h.made
  refine ⟨⟨earlier, name, later ++ [act], by rw [hacts]; simp, ?_, hserial, fun hnever => ?_⟩,
    h.label_eq, h.sameness_eq⟩
  · intro other hother
    rcases List.mem_append.1 hother with hother | hother
    · exact hlast other hother
    · rw [List.mem_singleton.1 hother]
      exact hmakes
  · exact hname fun new hnew => hnever new (List.mem_append_left _ hnew)

/-- An object keeps its origin under a new name. -/
theorem rename (h : Origin sameness acts label thing) (new : String) :
    Origin sameness (acts ++ [.rename label new]) label { thing with name := new } := by
  obtain ⟨earlier, name, later, hacts, hlast, hserial, -⟩ := h.made
  refine ⟨⟨earlier, name, later ++ [.rename label new], by rw [hacts]; simp, ?_, hserial,
    fun hnever => ?_⟩, h.label_eq, h.sameness_eq⟩
  · intro other hother
    rcases List.mem_append.1 hother with hother | hother
    · exact hlast other hother
    · rw [List.mem_singleton.1 hother]
      nofun
  · exact absurd (List.mem_append_right _ (List.mem_singleton_self _)) (hnever new)

end Origin

/-- The computation of a slot is that of its attribute for its owner. -/
abbrev recipeOf (slot : Slot) : Recipe σ Slot ν ε := compute slot.index slot.owner

/-- A read of an attribute that is there is a request for the slot of now. -/
theorem read_of_find? {thing : Thing} {name : String} {g : Gallery σ ν} {index : Nat}
    (h : g.catalog.find? thing.shape name = some index) {outcome : Except ε ν}
    {table : Table σ Slot ν}
    (hget : get (recipeOf compute) tooDeep depth (.of index thing) g.table = (outcome, table)) :
    g.read compute tooDeep depth thing name =
      (outcome.mapError .raised, { g with table := table }) := by
  rw [read, h]
  dsimp only
  rw [hget]
  cases outcome <;> rfl

/-- A read makes one request to the table, or none, and changes nothing else. -/
theorem perform_read_snd (label name : String) (g : Gallery σ ν) :
    ∃ table, ((Act.read label name).perform compute tooDeep depth g).2 =
        { g with table := table } ∧
      (table = g.table ∨
        ∃ slot, table = (get (recipeOf compute) tooDeep depth slot g.table).2) := by
  rw [Act.perform]
  split
  · exact ⟨g.table, rfl, .inl rfl⟩
  · next thing hthing =>
    cases hindex : g.catalog.find? thing.shape name with
    | none =>
      have hread : g.read compute tooDeep depth thing name =
          (.error (.fault (.missing thing.shape name)), g) := by rw [read, hindex]
      rw [hread]
      exact ⟨g.table, rfl, .inl rfl⟩
    | some index =>
      rw [read_of_find? compute tooDeep depth hindex rfl]
      exact ⟨_, rfl, .inr ⟨_, rfl⟩⟩

/-- An attempt to assign changes nothing. -/
theorem perform_assign_snd (label name : String) (g : Gallery σ ν) :
    ((Act.assign label name).perform compute tooDeep depth g).2 = g := by
  rw [Act.perform]
  split <;> rfl

/-- The number of the objects ever made, and what makes them the same. -/
theorem counts_after (catalog : Catalog) (sameness : Sameness) (own : σ) (acts : List Act) :
    (after compute tooDeep depth acts (.empty catalog sameness own)).made =
      acts.countP (·.makes?.isSome) ∧
    (after compute tooDeep depth acts (.empty catalog sameness own)).sameness = sameness := by
  induction acts using List.reverseRecOn with
  | nil => exact ⟨rfl, rfl⟩
  | append_singleton acts act ih =>
    rw [after_concat, List.countP_append, ← ih.1]
    generalize after compute tooDeep depth acts (.empty catalog sameness own) = g at ih ⊢
    cases act with
    | attach shape name index => exact ⟨rfl, ih.2⟩
    | create label shape name => exact ⟨rfl, ih.2⟩
    | rename label name =>
      rw [Act.perform, Gallery.rename]
      split <;> exact ⟨rfl, ih.2⟩
    | read label name =>
      obtain ⟨table, htable, -⟩ := perform_read_snd compute tooDeep depth label name g
      rw [htable]
      exact ⟨rfl, ih.2⟩
    | assign label name =>
      rw [perform_assign_snd]
      exact ⟨rfl, ih.2⟩

/-- An object is under its label what it was before another name was given, or has that name now. -/
theorem get?_rename {renamed name label : String} {g : Gallery σ ν} {thing : Thing}
    (h : (g.rename renamed name).things.get? label = some thing) :
    g.things.get? label = some thing ∨
      ∃ found, renamed = label ∧ g.things.get? label = some found ∧
        thing = { found with name := name } := by
  unfold Gallery.rename at h
  split at h
  · exact .inl h
  · next found hfound =>
    rcases Ledger.get?_put_cases h with ⟨rfl, rfl⟩ | ⟨-, hold⟩
    · exact .inr ⟨found, rfl, hfound, rfl⟩
    · exact .inl hold

theorem origin_after (catalog : Catalog) (sameness : Sameness) (own : σ) (acts : List Act)
    {label : String} {thing : Thing}
    (h : (after compute tooDeep depth acts (.empty catalog sameness own)).things.get? label =
      some thing) : Origin sameness acts label thing := by
  induction acts using List.reverseRecOn generalizing label thing with
  | nil => cases h
  | append_singleton acts act ih =>
    obtain ⟨hmade, hsameness⟩ := counts_after compute tooDeep depth catalog sameness own acts
    rw [after_concat] at h
    generalize after compute tooDeep depth acts (.empty catalog sameness own) = g
      at h ih hmade hsameness
    cases act with
    | attach shape name index => exact (ih h).concat nofun
    | create made shape name =>
      have hput : (g.things.put made ⟨g.made, made, shape, name, g.sameness⟩).get? label =
          some thing := h
      rcases Ledger.get?_put_cases hput with ⟨rfl, rfl⟩ | ⟨hother, hold⟩
      · -- the act itself made the object
        exact ⟨⟨acts, name, [], rfl, nofun, hmade, fun _ => rfl⟩, rfl, hsameness⟩
      · refine (ih hold).concat ?_
        simpa [Act.makes?] using hother
    | rename renamed name =>
      rcases get?_rename h with hold | ⟨found, rfl, hfound, rfl⟩
      · exact (ih hold).concat nofun
      · exact (ih hfound).rename name
    | read label' name =>
      obtain ⟨table, htable, -⟩ := perform_read_snd compute tooDeep depth label' name g
      rw [htable] at h
      exact (ih h).concat nofun
    | assign label' name =>
      rw [perform_assign_snd] at h
      exact (ih h).concat nofun

/-! ## What is stored -/

/-- The history is only added to. -/
theorem perform_history (act : Act) (g : Gallery σ ν) :
    g.table.history <+: (act.perform compute tooDeep depth g).2.table.history := by
  cases act with
  | attach | create => exact List.prefix_rfl
  | rename label name =>
    rw [Act.perform, Gallery.rename]
    split <;> exact List.prefix_rfl
  | read label name =>
    obtain ⟨table, htable, hsame | ⟨slot, hget⟩⟩ :=
      perform_read_snd compute tooDeep depth label name g
    · rw [htable, hsame]
    · obtain ⟨part, hpart⟩ := get_advances (recipeOf compute) tooDeep depth slot g.table
      rw [htable, hget]
      exact ⟨part, hpart.history.symm⟩
  | assign label name => rw [perform_assign_snd]

theorem history_after (earlier later : List Act) (g : Gallery σ ν) :
    (after compute tooDeep depth earlier g).table.history <+:
      (after compute tooDeep depth (earlier ++ later) g).table.history := by
  induction later using List.reverseRecOn with
  | nil => rw [List.append_nil]
  | append_singleton later act ih =>
    rw [← List.append_assoc, after_concat]
    exact ih.trans (perform_history compute tooDeep depth act _)

/-- An act keeps track of a slot, if it does not rename objects that are the same by name. -/
theorem tracked_perform {q : Slot} {g : Gallery σ ν} {act : Act}
    (h : Tracked (recipeOf compute) tooDeep q g.table)
    (hq : q.owner.sameness = .byIdentity ∨ ∀ label name, act ≠ .rename label name)
    (hu : undisturbed [] (act.perform compute tooDeep depth g).2.table.history = true) :
    Tracked (recipeOf compute) tooDeep q (act.perform compute tooDeep depth g).2.table := by
  cases act with
  | attach | create => exact h
  | rename label name =>
    rw [Act.perform, Gallery.rename]
    cases hfound : g.things.get? label with
    | none => exact h
    | some thing =>
      -- only by identity is the slot found again under the new names
      have hidentity := hq.resolve_right fun hnever => hnever label name rfl
      exact h.congr rfl (Slot.get?_map_rename hidentity thing.serial name g.table.entries)
  | read label name =>
    obtain ⟨table, htable, hsame | ⟨slot, hget⟩⟩ :=
      perform_read_snd compute tooDeep depth label name g
    · rw [htable, hsame]
      exact h
    · rw [htable, hget] at hu ⊢
      exact h.get depth slot hu
  | assign label name =>
    rw [perform_assign_snd]
    exact h

theorem tracked_after (catalog : Catalog) (sameness : Sameness) (own : σ) (acts : List Act)
    {q : Slot} (hq : q.owner.sameness = .byIdentity ∨ ∀ label name, .rename label name ∉ acts)
    (hu : undisturbed []
      (after compute tooDeep depth acts (.empty catalog sameness own)).table.history = true) :
    Tracked (recipeOf compute) tooDeep q
      (after compute tooDeep depth acts (.empty catalog sameness own)).table := by
  induction acts using List.reverseRecOn with
  | nil => exact .empty own
  | append_singleton acts act ih =>
    have hbefore := undisturbed_of_leading
      (history_after compute tooDeep depth acts [act] (.empty catalog sameness own)) hu
    have hold := ih (hq.imp_right fun hnever label name hmem =>
      hnever label name (List.mem_append_left _ hmem)) hbefore
    rw [after_concat] at hu ⊢
    refine tracked_perform compute tooDeep depth hold (hq.imp_right ?_) hu
    rintro hnever label name rfl
    exact hnever label name (List.mem_append_right _ (List.mem_singleton_self _))

/-- A run comes to the same without its attempts to assign. -/
theorem after_filter_assigns (acts : List Act) (g : Gallery σ ν) :
    after compute tooDeep depth (acts.filter (!·.assigns)) g =
      after compute tooDeep depth acts g := by
  induction acts using List.reverseRecOn with
  | nil => rfl
  | append_singleton acts act ih =>
    rw [List.filter_append, after_append, ih, after_concat]
    cases act with
    | assign label name => exact (perform_assign_snd compute tooDeep depth label name _).symm
    | attach | create | rename | read => rfl

/-! ## Reads -/

/-- What a read of a slot comes to that takes the gallery from `g` to `g'`, in a run that ends with
the history `final`. -/
structure ReadsOnce (slot : Slot) (g g' : Gallery σ ν)
    (outcome : Except (ReadError ε) (Option ν)) (final : List (Event Slot ν)) : Prop where
  /-- A value that was given before is given again, and nothing happens. -/
  again : ∀ value, (answersOf g.table.history).get? slot = some value →
    outcome = .ok (some value) ∧ g' = g
  /-- Otherwise the attribute is computed once, and the read ends as the computation does. -/
  first : (answersOf g.table.history).get? slot = none → ∃ result : Except ε ν,
    outcome = (result.mapError .raised).map some ∧
      RunOnce slot g.table.history g'.table.history result
  /-- The value of the read is the one that the attribute has for the object in the whole run. -/
  lasting : ∀ value, outcome = .ok (some value) → (answersOf final).get? slot = some value

/-- What was answered first stays so. -/
theorem get?_answersOf_of_leading {before history : List (Event Slot ν)}
    (h : before <+: history) {slot : Slot} {value : ν}
    (hvalue : (answersOf before).get? slot = some value) :
    (answersOf history).get? slot = some value := by
  obtain ⟨rest, rfl⟩ := h
  rw [answersOf_append, Ledger.get?_append, hvalue]
  rfl

theorem readsOnce_of_tracked {label name : String} {thing : Thing} {index : Nat}
    {g : Gallery σ ν} {final : List (Event Slot ν)}
    (h : Tracked (recipeOf compute) tooDeep (.of index thing) g.table)
    (hthing : g.things.get? label = some thing)
    (hindex : g.catalog.find? thing.shape name = some index)
    (hfinal : ((Act.read label name).perform compute tooDeep depth g).2.table.history <+: final)
    (hu : undisturbed [] final = true) :
    ReadsOnce (.of index thing) g ((Act.read label name).perform compute tooDeep depth g).2
      ((Act.read label name).perform compute tooDeep depth g).1 final := by
  have hread : ∀ {outcome : Except ε ν} {table : Table σ Slot ν},
      get (recipeOf compute) tooDeep depth (.of index thing) g.table = (outcome, table) →
      (Act.read label name).perform compute tooDeep depth g =
        ((outcome.mapError .raised).map some, { g with table := table }) := by
    intro outcome table hget
    simp only [Act.perform, hthing, read_of_find? compute tooDeep depth hindex hget]
  have hagain : ∀ value, (answersOf g.table.history).get? (Slot.of index thing) = some value →
      (Act.read label name).perform compute tooDeep depth g = (.ok (some value), g) := by
    intro value hvalue
    rw [← h.entry] at hvalue
    exact hread (get_of_get? (recipeOf compute) tooDeep depth hvalue)
  -- what was answered before the read, and by it, is answered at the end of the run
  have hpast := (perform_history compute tooDeep depth (.read label name) g).trans hfinal
  rcases hget : get (recipeOf compute) tooDeep depth (.of index thing) g.table with
    ⟨outcome, table⟩
  have heq := hread hget
  rw [heq] at hfinal ⊢
  have hfirst : (answersOf g.table.history).get? (Slot.of index thing) = none →
      RunOnce (Slot.of index thing) g.table.history table.history outcome :=
    fun hmissing => h.get_missing depth hmissing hget (undisturbed_of_leading hfinal hu)
  refine ⟨fun value hvalue => ?_, fun hmissing => ⟨outcome, rfl, hfirst hmissing⟩,
    fun value hvalue => ?_⟩
  · exact Prod.mk.inj (heq.symm.trans (hagain value hvalue))
  · cases outcome with
    | error error => cases hvalue
    | ok found =>
      cases hvalue
      cases hstored : (answersOf g.table.history).get? (Slot.of index thing) with
      | none => exact get?_answersOf_of_leading hfinal (hfirst hstored).2.2
      | some stored =>
        obtain ⟨hsame, -⟩ := Prod.mk.inj (heq.symm.trans (hagain stored hstored))
        cases hsame
        exact get?_answersOf_of_leading hpast hstored

/-- What a whole run says of one attribute of one object; `table` is the table at the end. -/
structure SlotAccount (sameness : Sameness) (index : Nat) (thing : Thing)
    (table : Table σ Slot ν) : Prop where
  /-- The computations failed, up to one if there is a value. -/
  counted : (startsOf table.history).countP (· == .of index thing) =
    (failuresOf table.history).countP (· == .of index thing) +
      if (answersOf table.history).contains (.of index thing) then 1 else 0
  /-- After the value was given the attribute was not computed again. -/
  ended : ∀ before slot rest, table.history = before ++ .started slot :: rest →
    slot == .of index thing → (answersOf before).contains (.of index thing) = false
  /-- The value is what the run computed for this attribute on this object. -/
  computed : ∀ value, (answersOf table.history).get? (.of index thing) = some value →
    ∃ slot : Slot, slot.index = index ∧ slot.owner.sameness = sameness ∧
      sameness.Relates slot.owner thing ∧
      Yields (recipeOf compute) tooDeep table.history slot value
  /-- Inside of a later computation a read finds the value too, and nothing happens. -/
  inside : ∀ value, (answersOf table.history).get? (.of index thing) = some value →
    ∀ depth asked level slot u,
      Involves (recipeOf compute) tooDeep depth asked table level slot u →
      slot == .of index thing →
      get (recipeOf compute) tooDeep level slot u = (.ok value, u)

theorem slotAccount_of_tracked {sameness : Sameness} {index : Nat} {thing : Thing}
    {table : Table σ Slot ν} (hthing : thing.sameness = sameness)
    (h : Tracked (recipeOf compute) tooDeep (.of index thing) table) :
    SlotAccount compute tooDeep sameness index thing table where
  counted := h.countP_startsOf
  ended := h.missing
  computed value hvalue := by
    obtain ⟨slot, hslot, hmem⟩ := Ledger.exists_mem_of_get? hvalue
    obtain ⟨hindex, hsameness, hrelates⟩ := Slot.of_beq hslot
    exact ⟨slot, hindex, hsameness.trans hthing, hthing ▸ hrelates, h.answers slot value hmem⟩
  inside value hvalue depth asked level slot u hinvolves hslot := by
    apply get_of_get?
    rw [Ledger.get?_congr hslot]
    rw [← h.entry] at hvalue
    exact hinvolves.preserves _ value hvalue

/-- Attributes are computed once for each object and cannot be assigned, in every run of attaching
attributes to classes and making, renaming, reading and assigning to objects, if no attribute is
read on an object while it is computed for it, and objects that are the same by name are not
renamed:

* a read gives the value that was given before, or computes the attribute once (`ReadsOnce`),
  whatever the name is by which it finds the attribute and whatever the object was named meanwhile;
* the attribute is computed once for the value and once for each failure before it, and never
  afterwards, and the value comes from its own computation (`SlotAccount`);
* an object is the one that was made last for its label, and no two have one serial number
  (`Origin`); values are stored apart for different attributes and for different objects;
* an attempt to assign is refused and changes nothing, and the run would come to the same without
  it. -/
theorem reads_agree (catalog : Catalog) (sameness : Sameness) (own : σ) (acts : List Act)
    (hnames : sameness = .byIdentity ∨ ∀ label name, .rename label name ∉ acts)
    (hu : undisturbed []
      (after compute tooDeep depth acts (.empty catalog sameness own)).table.history = true) :
    let moment := fun acts => after compute tooDeep depth acts (.empty catalog sameness own)
    (∀ earlier label name later, acts = earlier ++ .read label name :: later →
      ∀ thing index, (moment earlier).things.get? label = some thing →
        (moment earlier).catalog.find? thing.shape name = some index →
        ReadsOnce (.of index thing) (moment earlier)
          ((Act.read label name).perform compute tooDeep depth (moment earlier)).2
          ((Act.read label name).perform compute tooDeep depth (moment earlier)).1
          (moment acts).table.history) ∧
    (∀ index thing, thing.sameness = sameness →
      SlotAccount compute tooDeep sameness index thing (moment acts).table) ∧
    (∀ earlier, earlier <+: acts → ∀ label thing, (moment earlier).things.get? label = some thing →
      Origin sameness earlier label thing) ∧
    (∀ i j a b, a.sameness = sameness → b.sameness = sameness →
      (Slot.of i a == Slot.of j b ↔ i = j ∧ sameness.Relates a b)) ∧
    (∀ earlier label name later, acts = earlier ++ .assign label name :: later →
      ∀ thing, (moment earlier).things.get? label = some thing → ∃ fault,
        (Act.assign label name).perform compute tooDeep depth (moment earlier) =
          (.error (.fault fault), moment earlier) ∧
        ∀ index a, (moment earlier).catalog.find? thing.shape name = some index →
          (moment earlier).catalog.attributes[index]? = some a →
          fault = .readOnly a.label) ∧
    moment (acts.filter (!·.assigns)) = moment acts := by
  intro moment
  refine ⟨?_, ?_, ?_, ?_, ?_, ?_⟩
  · rintro earlier label name later rfl thing index hthing hindex
    have hsameness := (origin_after compute tooDeep depth catalog sameness own earlier
      hthing).sameness_eq
    have hpast := history_after compute tooDeep depth earlier (.read label name :: later)
      (.empty catalog sameness own)
    have hfinal := history_after compute tooDeep depth (earlier ++ [.read label name]) later
      (.empty catalog sameness own)
    rw [List.append_assoc, List.singleton_append, after_concat] at hfinal
    have htracked := tracked_after compute tooDeep depth catalog sameness own earlier
      (q := .of index thing)
      (hnames.imp hsameness.trans fun hnever label name hmem =>
        hnever label name (List.mem_append_left _ hmem))
      (undisturbed_of_leading hpast hu)
    exact readsOnce_of_tracked compute tooDeep depth htracked hthing hindex hfinal hu
  · intro index thing hthing
    apply slotAccount_of_tracked compute tooDeep hthing
    exact tracked_after compute tooDeep depth catalog sameness own acts
      (hnames.imp hthing.trans id) hu
  · intro earlier _ label thing hthing
    exact origin_after compute tooDeep depth catalog sameness own earlier hthing
  · intro i j a b ha hb
    exact Slot.of_beq_of ha hb i j
  · rintro earlier label name later - thing hthing
    refine ⟨(moment earlier).refusal thing name, ?_, fun index a hindex ha => ?_⟩
    · rw [Act.perform, hthing]
    · rw [refusal, hindex, Option.bind_some, ha]
  · exact after_filter_assigns compute tooDeep depth acts (.empty catalog sameness own)

end

/-- Two attributes of an example: the first one counts its computations and fails the first time,
the second one reads the first one on the same object. -/
def sampleComputation : Computation Nat Nat String
  | 0, _ => .look fun count => .save (count + 1) <|
      if count = 0 then .fail "too early" else .answer count
  | _, owner => .ask (.of 0 owner) fun
      | .ok value => .answer (value + 100)
      | .error error => .fail error

def sampleCatalog : Catalog :=
  (Catalog.mk [⟨"first", none⟩, ⟨"second", none⟩] []).declare "Page" [("count", 0), ("sum", 1)] []

/-- The first attribute is read and fails, is computed for the second one while the object has
another name, and gets one more name itself. -/
def sampleActs : List Act :=
  [.create "o" "Page" "home", .read "o" "count", .rename "o" "start", .read "o" "sum",
    .attach "Page" "again" 0, .assign "o" "again", .rename "o" "home"]

/-- It is read under its new name and has the value from inside of the second one, after two
computations; a new object under the label is a different one, and has none of its values. -/
theorem reads_agree_sample :
    let moment := fun acts => after sampleComputation "too deep" 5 acts
      (.empty sampleCatalog .byIdentity 0)
    let acts := sampleActs ++ [.read "o" "again", .create "o" "Page" "home", .read "o" "count"]
    let old : Thing := ⟨0, "o", "Page", "home", .byIdentity⟩
    let new : Thing := ⟨1, "o", "Page", "home", .byIdentity⟩
    undisturbed [] (moment acts).table.history = true ∧
      (Act.read "o" "again").perform sampleComputation "too deep" 5 (moment sampleActs) =
        (.ok (some 1), moment sampleActs) ∧
      (startsOf (moment acts).table.history).countP (· == .of 0 old) = 2 ∧
      (Slot.of 0 old == Slot.of 0 new) = false ∧
      (answersOf (moment acts).table.history).get? (.of 0 new) = some 2 ∧
      moment (acts.filter (!·.assigns)) = moment acts := by
  intro moment acts old new
  have hu : undisturbed [] (moment acts).table.history = true := by decide +kernel
  obtain ⟨hreads, hslots, -, hapart, -, hassign⟩ := reads_agree sampleComputation "too deep" 5
    sampleCatalog .byIdentity 0 acts (.inl rfl) hu
  have hread := hreads sampleActs "o" "again" _ rfl old 0 (by decide +kernel) (by decide +kernel)
  have hsecond : (answersOf (moment acts).table.history).get? (.of 0 new) = some 2 := by
    decide +kernel
  refine ⟨hu, ?_, ?_, ?_, hsecond, hassign⟩
  · obtain ⟨houtcome, hsame⟩ := hread.again 1 (by decide +kernel)
    exact Prod.ext houtcome hsame
  · rw [(hslots 0 old rfl).counted]
    decide +kernel
  · rw [Bool.eq_false_iff, ne_eq, hapart 0 0 old new rfl rfl]
    rintro ⟨-, hserial⟩
    exact absurd hserial Nat.zero_ne_one

end Gallery

end Bindery
