import Bindery.Layout
import Bindery.Proofs.MemoHistory

/-!
# Names of layouts over a run

Names are asked for in any order, and the suffix of the classes may change in between. What is
remembered after a run follows from the run alone (`Recalls`): a class for each layout that was asked
for, with the suffix that was in force when that happened first (`suffixFor`), and a field for each
reference among the views. Every use keeps this up (`Recalls.step`), and `requests_answered` is what
it means for the answers: they are the ones that would be computed from the run, without any memory.
-/

namespace Bindery

open Bindery.Memo

/-! ## Tables without nested requests -/

namespace Memo

variable {ε : Type}

/-- A computation that asks for nothing, and writes `records key value` with a value. -/
structure Plain (records : String → String → List Record)
    (compute : Request Unit String String ε) : Prop where
  entries : ∀ key t, (compute key t).2.entries = t.entries
  notes : ∀ key t, notesOf (compute key t).2.history =
    notesOf t.history ++ match (compute key t).1 with
      | .ok value => records key value
      | .error _ => []

/-- What a table remembers: an entry for each key that was asked for, in the order in which they were
asked for first, with a value that holds for the key. Records were written once for each entry. -/
structure Remembers (asked : List String) (holds : String → String → Prop)
    (records : String → String → List Record) (t : Table Unit String String) : Prop where
  keys : t.entries.map Prod.fst = asked.eraseDups
  values : ∀ entry ∈ t.entries, holds entry.1 entry.2
  notes : notesOf t.history = t.entries.flatMap fun entry => records entry.1 entry.2

variable {asked : List String} {holds : String → String → Prop}
  {records : String → String → List Record} {t : Table Unit String String} {key : String}

theorem eraseDups_concat_of_mem (h : key ∈ asked) : (asked ++ [key]).eraseDups = asked.eraseDups := by
  rw [List.eraseDups_append, List.removeAll]
  simp [h]

theorem eraseDups_concat_of_not_mem (h : key ∉ asked) :
    (asked ++ [key]).eraseDups = asked.eraseDups ++ [key] := by
  rw [List.eraseDups_append, List.removeAll]
  simp [h, List.eraseDups_cons]

theorem notesOf_append {κ ν : Type} (a b : List (Event κ ν)) :
    notesOf (a ++ b) = notesOf a ++ notesOf b := by
  induction a with
  | nil => rfl
  | cons event rest ih => cases event <;> simp [notesOf, ih]

theorem Remembers.empty (holds : String → String → Prop) (records : String → String → List Record) :
    Remembers [] holds records (.empty ()) where
  keys := rfl
  values _ h := absurd h List.not_mem_nil
  notes := rfl

/-- The values hold in another sense, if they do so for what was asked for. -/
theorem Remembers.mono {others : String → String → Prop} (h : Remembers asked holds records t)
    (hothers : ∀ key ∈ asked, ∀ value, holds key value → others key value) :
    Remembers asked others records t where
  keys := h.keys
  values entry hentry := by
    refine hothers entry.1 ?_ entry.2 (h.values entry hentry)
    rw [← List.mem_eraseDups, ← h.keys]
    exact List.mem_map_of_mem hentry
  notes := h.notes

theorem Remembers.get?_eq_none_iff (h : Remembers asked holds records t) :
    t.entries.get? key = none ↔ key ∉ asked := by
  rw [← List.mem_eraseDups, ← h.keys, ← Ledger.contains_iff_mem, Ledger.contains,
    Option.not_isSome_iff_eq_none]

/-- A table with the same entries and notes remembers the same. -/
theorem Remembers.congr (h : Remembers asked holds records t) {t' : Table Unit String String}
    (hentries : t'.entries = t.entries) (hnotes : notesOf t'.history = notesOf t.history) :
    Remembers asked holds records t' where
  keys := by rw [hentries, h.keys]
  values := by
    rw [hentries]
    exact h.values
  notes := by rw [hnotes, hentries, h.notes]

/-- A key that was asked for before is not remembered a second time. -/
theorem Remembers.ask_again (h : Remembers asked holds records t) (hkey : key ∈ asked) :
    Remembers (asked ++ [key]) holds records t where
  keys := by rw [eraseDups_concat_of_mem hkey, h.keys]
  values := h.values
  notes := h.notes

/-- A value that holds for a new key is remembered behind the others. -/
theorem Remembers.concat (h : Remembers asked holds records t) (hnew : key ∉ asked) {value : String}
    (hholds : holds key value) {t' : Table Unit String String}
    (hentries : t'.entries = t.entries ++ [(key, value)])
    (hnotes : notesOf t'.history = notesOf t.history ++ records key value) :
    Remembers (asked ++ [key]) holds records t' where
  keys := by
    rw [hentries, List.map_append, h.keys, eraseDups_concat_of_not_mem hnew]
    rfl
  values entry hentry := by
    rw [hentries] at hentry
    rcases List.mem_append.mp hentry with hold | hlast
    · exact h.values entry hold
    · rw [List.mem_singleton.mp hlast]
      exact hholds
  notes := by
    rw [hnotes, h.notes, hentries, List.flatMap_append]
    simp

/-- A request is answered by a value that holds for the key, and the key is remembered behind the
others if it is new; or the computation fails, and then nothing is remembered or forgotten. -/
theorem Remembers.fetch (h : Remembers asked holds records t) (key : String)
    {compute : Request Unit String String ε} (hplain : Plain records compute)
    (hvalue : ∀ value, key ∉ asked → (compute key (t.log (.started key))).1 = .ok value →
      holds key value) :
    match Memo.fetch compute key t with
    | (.ok value, t') => holds key value ∧ Remembers (asked ++ [key]) holds records t'
    | (.error error, t') => (compute key (t.log (.started key))).1 = .error error ∧
        t'.entries = t.entries ∧ Remembers asked holds records t' := by
  rcases fetch_cases compute key t with ⟨value, hget, hfetch⟩ | ⟨value, u, hnone, hcompute, hfetch⟩ |
    ⟨error, u, hnone, hcompute, hfetch⟩
  · -- the value is there, so the key was asked for before
    rw [hfetch]
    have hasked : key ∈ asked := by
      by_contra hnew
      rw [h.get?_eq_none_iff.mpr hnew] at hget
      contradiction
    exact ⟨h.values _ (Ledger.mem_of_get? hget), h.ask_again hasked⟩
  · -- the key is new, and stands behind the others in the entries and in what was asked
    have hnew := h.get?_eq_none_iff.mp hnone
    have hholds := hvalue value hnew (congrArg Prod.fst hcompute)
    have hentries := hplain.entries key (t.log (.started key))
    have hnotes := hplain.notes key (t.log (.started key))
    rw [hcompute] at hentries hnotes
    rw [hfetch]
    refine ⟨hholds, h.concat hnew hholds ?_ ?_⟩
    · rw [Table.log_entries, Table.store_entries, hentries, Table.log_entries,
        Ledger.put_of_get?_eq_none hnone]
    · rw [Table.log_history, Table.store_history, notesOf_append, hnotes, Table.log_history,
        notesOf_append]
      simp [notesOf]
  · have hentries := hplain.entries key (t.log (.started key))
    have hnotes := hplain.notes key (t.log (.started key))
    rw [hcompute] at hentries hnotes
    have hsame : (u.log (.failed key)).entries = t.entries := hentries
    rw [hfetch]
    refine ⟨congrArg Prod.fst hcompute, hsame, h.congr hsame ?_⟩
    rw [Table.log_history, notesOf_append, hnotes, Table.log_history, notesOf_append]
    simp [notesOf]

end Memo

namespace LayoutNames

/-! ## Runs -/

/-- What the names of layouts are used for. -/
inductive Use where
  | className (layout : String)
  | qualifiedName (package layout : String)
  | fieldName (view : String)
  | setSuffix (suffix : String)

namespace Use

/-- The names after a use. A view that is no reference does not stop the run. -/
def apply (names : LayoutNames) : Use → LayoutNames
  | className layout => (names.className layout).2
  | qualifiedName package layout => (names.qualifiedName package layout).2
  | fieldName view => (names.fieldName view).2
  | setSuffix suffix => names.setSuffix suffix

/-- The layout whose class is asked for, under a package or not. -/
def layout? : Use → Option String
  | className layout | qualifiedName _ layout => some layout
  | fieldName _ | setSuffix _ => none

/-- The view whose field is asked for, if it is a reference. -/
def reference? : Use → Option String
  | fieldName view => if Naming.referenceSeparator ∈ view.toList then some view else none
  | className _ | qualifiedName _ _ | setSuffix _ => none

/-- The suffix that is in force after a use. -/
def suffix (current : String) : Use → String
  | setSuffix suffix => suffix
  | className _ | qualifiedName _ _ | fieldName _ => current

end Use

/-- The names after a run. -/
def after (names : LayoutNames) (uses : List Use) : LayoutNames :=
  uses.foldl Use.apply names

/-- The layouts whose classes are asked for, in order. -/
def layoutsOf (uses : List Use) : List String := uses.filterMap Use.layout?

/-- The references whose fields are asked for, in order. -/
def referencesOf (uses : List Use) : List String := uses.filterMap Use.reference?

/-- The suffix in force after a run. -/
def suffixAfter (current : String) (uses : List Use) : String :=
  uses.foldl Use.suffix current

/-- The suffix in force when the class of a layout is asked for first: after the run, if it is not
asked for in the run. -/
def suffixFor (layout current : String) : List Use → String
  | [] => current
  | use :: rest =>
    if use.layout? = some layout then current else suffixFor layout (use.suffix current) rest

section

variable {layout current : String} {uses : List Use}

theorem layoutsOf_concat (uses : List Use) (use : Use) :
    layoutsOf (uses ++ [use]) = layoutsOf uses ++ use.layout?.toList := by
  rw [layoutsOf, List.filterMap_append]
  cases use <;> rfl

theorem referencesOf_concat (uses : List Use) (use : Use) :
    referencesOf (uses ++ [use]) = referencesOf uses ++ use.reference?.toList := by
  rw [referencesOf, List.filterMap_append]
  cases h : use.reference? <;> simp [referencesOf, h]

theorem suffixAfter_concat (current : String) (uses : List Use) (use : Use) :
    suffixAfter current (uses ++ [use]) = use.suffix (suffixAfter current uses) :=
  List.foldl_concat ..

/-- A class that was asked for keeps its suffix. -/
theorem suffixFor_append_of_mem (h : layout ∈ layoutsOf uses) (more : List Use) :
    suffixFor layout current (uses ++ more) = suffixFor layout current uses := by
  induction uses generalizing current with
  | nil => contradiction
  | cons use rest ih =>
    rw [List.cons_append, suffixFor, suffixFor]
    split
    · rfl
    · next hother =>
      apply ih
      obtain ⟨first, hfirst, hlayout⟩ := List.mem_filterMap.mp h
      rcases List.mem_cons.mp hfirst with rfl | hrest
      · contradiction
      · exact List.mem_filterMap.mpr ⟨first, hrest, hlayout⟩

/-- A class that was not asked for has the suffix that is in force when it is. -/
theorem suffixFor_append_of_not_mem (h : layout ∉ layoutsOf uses) (more : List Use) :
    suffixFor layout current (uses ++ more) =
      suffixFor layout (suffixAfter current uses) more := by
  induction uses generalizing current with
  | nil => rfl
  | cons use rest ih =>
    have hother : use.layout? ≠ some layout := fun hlayout =>
      h (List.mem_filterMap.mpr ⟨use, List.mem_cons_self, hlayout⟩)
    have hrest : layout ∉ layoutsOf rest := by
      intro hmem
      obtain ⟨first, hfirst, hlayout⟩ := List.mem_filterMap.mp hmem
      exact h (List.mem_filterMap.mpr ⟨first, List.mem_cons_of_mem use hfirst, hlayout⟩)
    rw [List.cons_append, suffixFor, if_neg hother]
    exact ih hrest

theorem suffixFor_of_not_mem (h : layout ∉ layoutsOf uses) :
    suffixFor layout current uses = suffixAfter current uses := by
  have happend : suffixFor layout current (uses ++ []) = _ := suffixFor_append_of_not_mem h []
  rwa [List.append_nil] at happend

/-- Asking for a class does not change its suffix. -/
theorem suffixFor_concat_self {use : Use} (huse : use.layout? = some layout) :
    suffixFor layout current (uses ++ [use]) = suffixFor layout current uses := by
  by_cases hasked : layout ∈ layoutsOf uses
  · exact suffixFor_append_of_mem hasked [use]
  · rw [suffixFor_append_of_not_mem hasked, suffixFor_of_not_mem hasked, suffixFor, if_pos huse]

end

/-! ## Single requests -/

/-- A view has a field exactly if it is a reference. -/
theorem fieldFor_of_reference {view : String} (h : Naming.referenceSeparator ∈ view.toList) :
    ∃ id, Naming.resourceId? view.toList = some id ∧
      fieldFor view = .ok (Naming.variableName (String.ofList id)) := by
  cases hid : Naming.resourceId? view.toList with
  | none => exact absurd h (Naming.resourceId?_eq_none_iff.mp hid)
  | some id => exact ⟨id, rfl, by rw [fieldFor, Naming.resourceId, hid]; rfl⟩

theorem fieldFor_of_not_reference {view : String} (h : Naming.referenceSeparator ∉ view.toList) :
    fieldFor view = .error ⟨view, none⟩ := by
  rw [fieldFor, Naming.resourceId, Naming.resourceId?_eq_none_iff.mpr h]
  rfl

/-- What is written with a field. -/
def fieldRecords (view field : String) : List Record := [boundRecord view field]

theorem plain_computeClass (suffix : String) : Plain (fun _ _ => []) (computeClass suffix) where
  entries _ _ := rfl
  notes _ _ := (List.append_nil _).symm

/-- Asking for a class changes nothing but the table of the classes. -/
theorem className_snd (names : LayoutNames) (layout : String) :
    (names.className layout).2 =
      { names with classes := (fetch (computeClass names.suffix) layout names.classes).2 } := by
  unfold LayoutNames.className
  match fetch (computeClass names.suffix) layout names.classes with
  | (.ok name, classes) => rfl

/-- The field of a view does not depend on the table. -/
theorem computeField_fst (view : String) (t : Table Unit String String) :
    (computeField view t).1 = fieldFor view := by
  unfold computeField
  split <;> next h => rw [h]

theorem plain_computeField : Plain fieldRecords computeField where
  entries view t := by
    unfold computeField
    split <;> rfl
  notes view t := by
    unfold computeField
    cases fieldFor view with
    | ok field => simp [notesOf_append, notesOf, fieldRecords]
    | error e => simp

/-! ## What is remembered -/

/-- What is remembered after a run that was started without any name: a class for each layout and a
field for each reference that was asked for, and what they are. -/
structure Recalls (start : String) (uses : List Use) (names : LayoutNames) : Prop where
  suffix : names.suffix = suffixAfter start uses
  classes : Remembers (layoutsOf uses)
    (fun layout name => name = Naming.className layout ++ suffixFor layout start uses)
    (fun _ _ => []) names.classes
  fields : Remembers (referencesOf uses) (fun view field => fieldFor view = .ok field)
    fieldRecords names.fields

variable {start : String} {uses : List Use} {names : LayoutNames}

theorem recalls_fresh (start : String) : Recalls start [] (fresh start) where
  suffix := rfl
  classes := .empty _ _
  fields := .empty _ _

/-- What is remembered of the classes is still so after another use. -/
theorem Recalls.classes_concat (h : Recalls start uses names) (use : Use) :
    Remembers (layoutsOf uses)
      (fun layout name => name = Naming.className layout ++ suffixFor layout start (uses ++ [use]))
      (fun _ _ => []) names.classes := by
  refine h.classes.mono fun layout hasked name hname => ?_
  rw [suffixFor_append_of_mem hasked]
  exact hname

/-- The class of a layout has the suffix that was in force when it was first asked for. -/
theorem Recalls.className (h : Recalls start uses names) {layout : String} {use : Use}
    (huse : use.layout? = some layout) :
    (names.className layout).1 = Naming.className layout ++ suffixFor layout start uses ∧
      Remembers (layoutsOf (uses ++ [use]))
        (fun layout name => name = Naming.className layout ++ suffixFor layout start (uses ++ [use]))
        (fun _ _ => []) (names.className layout).2.classes := by
  have hfetch := (h.classes_concat use).fetch layout (plain_computeClass names.suffix)
    fun name hnew hname => by
      rw [suffixFor_concat_self huse, suffixFor_of_not_mem hnew, ← h.suffix]
      exact (Except.ok.inj hname).symm
  unfold LayoutNames.className
  rw [layoutsOf_concat, huse]
  match hrun : fetch (computeClass names.suffix) layout names.classes with
  | (.ok name, classes) =>
    rw [hrun] at hfetch
    rw [← suffixFor_concat_self huse]
    exact hfetch

/-- A reference has its field, and any other view is refused. -/
theorem Recalls.fieldName (h : Recalls start uses names) (view : String) :
    (names.fieldName view).1 = fieldFor view ∧
      Remembers (referencesOf (uses ++ [.fieldName view]))
        (fun view field => fieldFor view = .ok field) fieldRecords (names.fieldName view).2.fields ∧
      (Naming.referenceSeparator ∉ view.toList →
        (names.fieldName view).2.fields.entries = names.fields.entries) := by
  have hfetch := h.fields.fetch view plain_computeField fun field _ hfield => by
    rwa [computeField_fst] at hfield
  have hreference : (Use.fieldName view).reference? =
      if Naming.referenceSeparator ∈ view.toList then some view else none := rfl
  unfold LayoutNames.fieldName
  rw [referencesOf_concat, hreference]
  rcases hrun : fetch computeField view names.fields with ⟨error | field, fields⟩
  · simp only [hrun, computeField_fst] at hfetch ⊢
    obtain ⟨herror, hentries, hremembers⟩ := hfetch
    -- a reference would have a field
    have hfree : Naming.referenceSeparator ∉ view.toList := by
      intro hslash
      obtain ⟨id, -, hfield⟩ := fieldFor_of_reference hslash
      rw [hfield] at herror
      contradiction
    rw [if_neg hfree, Option.toList_none, List.append_nil]
    exact ⟨herror.symm, hremembers, fun _ => hentries⟩
  · simp only [hrun] at hfetch ⊢
    obtain ⟨hfield, hremembers⟩ := hfetch
    have hslash : Naming.referenceSeparator ∈ view.toList := by
      by_contra hfree
      rw [fieldFor_of_not_reference hfree] at hfield
      contradiction
    rw [if_pos hslash]
    exact ⟨hfield.symm, hremembers, fun hfree => absurd hslash hfree⟩

/-- What is remembered is kept up by each use. -/
theorem Recalls.step (h : Recalls start uses names) (use : Use) :
    Recalls start (uses ++ [use]) (use.apply names) := by
  have hlayouts : use.layout? = none → layoutsOf (uses ++ [use]) = layoutsOf uses := by
    intro hnone
    rw [layoutsOf_concat, hnone, Option.toList_none, List.append_nil]
  have hreferences : use.reference? = none → referencesOf (uses ++ [use]) = referencesOf uses := by
    intro hnone
    rw [referencesOf_concat, hnone, Option.toList_none, List.append_nil]
  cases use with
  | className layout | qualifiedName package layout =>
    have hsuffix : (names.className layout).2.suffix = names.suffix := by rw [className_snd]
    have hfields : (names.className layout).2.fields = names.fields := by rw [className_snd]
    refine ⟨?_, (h.className rfl).2, ?_⟩
    · rw [suffixAfter_concat, ← h.suffix]
      exact hsuffix
    · rw [hreferences rfl]
      exact hfields ▸ h.fields
  | fieldName view =>
    refine ⟨?_, ?_, (h.fieldName view).2.1⟩
    · rw [suffixAfter_concat, ← h.suffix]
      rfl
    · rw [hlayouts rfl]
      exact h.classes_concat _
  | setSuffix suffix =>
    refine ⟨?_, ?_, ?_⟩
    · rw [suffixAfter_concat]
      rfl
    · rw [hlayouts rfl]
      exact h.classes_concat _
    · rw [hreferences rfl]
      exact h.fields

theorem recalls_after (start : String) (uses : List Use) :
    Recalls start uses (after (fresh start) uses) := by
  induction uses using List.reverseRecOn with
  | nil => exact recalls_fresh start
  | append_singleton uses use ih =>
    rw [after, List.foldl_concat]
    exact ih.step use

/-! ## The answers -/

/-- After a run the class of a layout has the suffix that belongs to it. -/
theorem className_after (start : String) (uses : List Use) (layout : String) :
    ((after (fresh start) uses).className layout).1 =
      Naming.className layout ++ suffixFor layout start uses :=
  ((recalls_after start uses).className (rfl : (Use.className layout).layout? = some layout)).1

/-- The record of a view that gets its field. -/
def recordFor? (view : String) : Option Record :=
  (fieldFor view).toOption.map (boundRecord view)

/-- The records that the layout part left in a table are among the notes of its computations. -/
theorem filter_journal (display : String → List Char) (t : Table Unit String String) :
    (t.journal display).filter (·.part == .layout) =
      (notesOf t.history).filter (·.part == .layout) := by
  rw [Table.journal]
  induction t.history with
  | nil => rfl
  | cons event rest ih =>
    cases event <;>
      simp [List.filterMap_cons, Event.record?, notesOf, List.filter_cons, ih]

/-- The layout part writes one record for each reference, when its field is asked for first. -/
theorem Recalls.records (h : Recalls start uses names) (display : String → List Char) :
    ((names.classes.journal display ++ names.fields.journal display).filter
        (·.part == .layout)).map some =
      (referencesOf uses).eraseDups.map recordFor? := by
  have hclasses : notesOf names.classes.history = [] := by
    rw [h.classes.notes, List.flatMap_eq_nil_iff]
    exact fun _ _ => rfl
  have hfields : notesOf names.fields.history =
      names.fields.entries.map fun entry => boundRecord entry.1 entry.2 := by
    rw [h.fields.notes, List.map_eq_flatMap]
    rfl
  have hlayout : ∀ record ∈ names.fields.entries.map fun entry => boundRecord entry.1 entry.2,
      (record.part == .layout) = true := by
    rw [List.forall_mem_map]
    exact fun _ _ => rfl
  rw [List.filter_append, filter_journal, filter_journal, hclasses, hfields, List.filter_nil,
    List.nil_append, List.filter_eq_self.mpr hlayout, ← h.fields.keys, List.map_map, List.map_map]
  refine List.map_congr_left fun entry hentry => ?_
  simp only [Function.comp_apply, recordFor?, h.fields.values entry hentry]
  rfl

/-- What is answered after any run. A class has the suffix that was in force when it was first asked
for, by itself or under a package; under a package it is the same class, with the package in front.
A view has the field that its identifier gives, or is refused, and then nothing is remembered or
forgotten. The tables have an entry for each layout and each reference that was asked for, in the
order in which that happened first, and there is one record for each of these references. -/
theorem requests_answered (start : String) (uses : List Use) :
    let names := after (fresh start) uses
    (∀ layout, (names.className layout).1 =
      Naming.className layout ++ suffixFor layout start uses) ∧
    (∀ package layout, (names.qualifiedName package layout).1 =
      if package = "" then (names.className layout).1
      else package ++ ".databinding." ++ (names.className layout).1) ∧
    (∀ view, (names.fieldName view).1 = (Naming.resourceId view).map Naming.variableName) ∧
    (∀ view, Naming.referenceSeparator ∉ view.toList →
      (names.fieldName view).1 = .error ⟨view, none⟩ ∧
      (names.fieldName view).2.classes = names.classes ∧
      (names.fieldName view).2.fields.entries = names.fields.entries) ∧
    names.classes.entries.map Prod.fst = (layoutsOf uses).eraseDups ∧
    names.fields.entries.map Prod.fst = (referencesOf uses).eraseDups ∧
    ∀ display, ((names.classes.journal display ++ names.fields.journal display).filter
        (·.part == .layout)).map some =
      (referencesOf uses).eraseDups.map recordFor? := by
  intro names
  have h : Recalls start uses names := recalls_after start uses
  refine ⟨className_after start uses, ?_, ?_, ?_, h.classes.keys, h.fields.keys, h.records⟩
  · intro package layout
    show qualify package (names.className layout).1 = _
    unfold qualify
    by_cases hnone : package = ""
    · rw [if_pos hnone, if_pos (String.isEmpty_iff.mpr hnone)]
    · have hbetween : ".databinding." = "." ++ subpackage ++ "." := rfl
      rw [if_neg hnone, if_neg (mt String.isEmpty_iff.mp hnone), hbetween]
      simp only [String.append_assoc]
  · intro view
    exact (h.fieldName view).1
  · intro view hfree
    obtain ⟨hfield, -, hentries⟩ := h.fieldName view
    rw [fieldFor_of_not_reference hfree] at hfield
    exact ⟨hfield, rfl, hentries hfree⟩

/-- The class of a layout keeps the suffix with which it was asked for first, under a package; a
view without a slash is refused, and a reference is recorded once. -/
theorem requests_answered_sample :
    let uses : List Use :=
      [.qualifiedName "app" "main", .fieldName "title", .setSuffix "View", .fieldName "@+id/user_name",
        .className "main", .fieldName "@+id/user_name"]
    let names := after (fresh "Binding") uses
    (names.className "main").1 = "MainBinding" ∧ (names.className "row").1 = "RowView" ∧
      (names.fieldName "title").1 = .error ⟨"title", none⟩ ∧
      names.fields.entries.map Prod.fst = ["@+id/user_name"] := by
  intro uses names
  obtain ⟨hclass, -, -, hrefused, -, hfields, -⟩ := requests_answered "Binding" uses
  refine ⟨?_, ?_, (hrefused "title" (by decide)).1, ?_⟩
  · rw [hclass]
    decide +kernel
  · rw [hclass]
    decide +kernel
  · rw [hfields]
    decide +kernel

end LayoutNames

end Bindery
