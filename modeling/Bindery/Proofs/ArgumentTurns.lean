import Bindery.CommandLine.Form
import Mathlib.Tactic

/-!
# Command lines, read turn by turn

The arguments of a command are marked one by one, and then read in turns. `Turn` says once what a turn
can do: it takes a switch with all that belongs to it, or the word of the command, or it puts away
what fits nowhere. `Reads` is a whole reading, turn after turn until nothing is left, and
`read_eq_ok_iff` says that the two are all there is to the reading of a form. `Takes` does the same for
the letters that stand one behind the other in one argument (`takeLetters_eq_ok_iff`).

What fits nowhere is never forgotten (`Reads.unknown_prefix`), so a reading in which nothing is
unknown consists of switches and of the word. The value of a switch is then the last one that stands
with it (`Reads.values`).
-/

namespace Bindery.CommandLine.Form

variable {f : Form} {a name : String} {before after : List String} {s : Switch} {m : Mark}
  {attached : Option Attached} {items behind left : List (String × Mark)} {g g' : Given}

/-! ## Marks -/

theorem mem_names_iff : (name, s) ∈ f.names ↔ s ∈ f.switches ∧ name ∈ s.names := by
  unfold names
  rw [List.mem_flatMap]
  constructor
  · rintro ⟨t, ht, hname⟩
    obtain ⟨other, hother, hpair⟩ := List.mem_map.mp hname
    cases hpair
    exact ⟨ht, hother⟩
  · intro h
    obtain ⟨hs, hname⟩ := h
    exact ⟨s, hs, List.mem_map_of_mem hname⟩

theorem mem_names_of_find? (h : f.find? name = some s) : (name, s) ∈ f.names := by
  obtain ⟨front, back, hnames, -⟩ := List.lookup_eq_some_iff.mp h
  rw [hnames]
  simp

theorem mem_names_of_candidate (h : (name, s, attached) ∈ f.candidates a) : (name, s) ∈ f.names := by
  unfold candidates at h
  split at h
  · obtain ⟨⟨other, t⟩, hentry, hsome⟩ := List.mem_filterMap.mp h
    obtain ⟨-, hsame⟩ := Option.ite_none_right_eq_some.mp hsome
    cases hsame
    exact hentry
  · obtain ⟨⟨other, t⟩, hentry, hsome⟩ := List.mem_filterMap.mp h
    dsimp only at hsome
    split_ifs at hsome <;> cases hsome <;> exact hentry
  · contradiction

/-- The switch that an argument is marked as is one of the form, by the name that is marked. -/
theorem mem_names_of_mark (h : f.mark a = .ok (.switch s name attached)) : (name, s) ∈ f.names := by
  unfold mark at h
  split at h
  · unfold markDashed at h
    dsimp only at h
    split at h
    · next hfind =>
      cases h
      exact mem_names_of_find? hfind
    · next hfind =>
      cases h
      obtain ⟨_, -, hname⟩ := Option.bind_eq_some_iff.mp hfind
      exact mem_names_of_find? hname
    · split at h
      · next hcandidates =>
        cases h
        exact mem_names_of_candidate (by rw [hcandidates]; exact List.mem_singleton_self _)
      · split_ifs at h <;> cases h
      · contradiction
  · cases h

/-- Everything but a divider is marked by itself. -/
theorem markAll_cons_eq_ok_iff (h : a ≠ "--") :
    f.markAll (a :: after) = .ok items ↔
      ∃ m back, f.mark a = .ok m ∧ f.markAll after = .ok back ∧ items = (a, m) :: back := by
  rw [markAll.eq_3 f a after h]
  cases f.mark a <;> cases f.markAll after <;> simp [eq_comm]

/-- Without a divider in front, what stands behind is marked as if it stood alone. -/
theorem markAll_append_eq_ok_iff (h : "--" ∉ before) :
    f.markAll (before ++ after) = .ok items ↔
      ∃ front back, f.markAll before = .ok front ∧ f.markAll after = .ok back ∧
        items = front ++ back := by
  induction before generalizing items with
  | nil => simp [markAll]
  | cons a before ih =>
    obtain ⟨hfirst, hrest⟩ := not_or.mp (mt List.mem_cons.mpr h)
    have ha : a ≠ "--" := fun hsame => hfirst hsame.symm
    rw [List.cons_append, markAll_cons_eq_ok_iff ha]
    constructor
    · rintro ⟨m, _, hm, hall, rfl⟩
      obtain ⟨front, back, hfront, hback, rfl⟩ := (ih hrest).mp hall
      exact ⟨(a, m) :: front, back,
        (markAll_cons_eq_ok_iff ha).mpr ⟨m, front, hm, hfront, rfl⟩, hback, rfl⟩
    · rintro ⟨_, back, hall, hback, rfl⟩
      obtain ⟨m, front, hm, hfront, rfl⟩ := (markAll_cons_eq_ok_iff ha).mp hall
      exact ⟨m, front ++ back, hm, (ih hrest).mpr ⟨front, back, hfront, hback, rfl⟩, rfl⟩

/-- Marking keeps the arguments. -/
theorem map_fst_of_markAll (h : f.markAll before = .ok items) : items.map Prod.fst = before := by
  induction before generalizing items with
  | nil =>
    cases h
    rfl
  | cons a before ih =>
    by_cases ha : a = "--"
    · subst ha
      cases h
      simp [Function.comp_def]
    · obtain ⟨m, back, -, hback, rfl⟩ := (markAll_cons_eq_ok_iff ha).mp h
      rw [List.map_cons, ih hback]

/-- Whether an argument is a switch is decided by itself. -/
theorem mark_of_mem_markAll (h : f.markAll before = .ok items)
    (hmem : (a, .switch s name attached) ∈ items) :
    f.mark a = .ok (.switch s name attached) ∧ a ≠ "--" := by
  induction before generalizing items with
  | nil =>
    cases h
    contradiction
  | cons first before ih =>
    by_cases ha : first = "--"
    · subst ha
      cases h
      simp at hmem
    · obtain ⟨m, back, hm, hback, rfl⟩ := (markAll_cons_eq_ok_iff ha).mp h
      rcases List.mem_cons.mp hmem with hhere | hlater
      · cases hhere
        exact ⟨hm, ha⟩
      · exact ih hback hlater

/-! ## What a switch takes -/

/-- How switches of one letter are taken that stand one behind the other, from the one given on. -/
inductive Takes (f : Form) (behind : List (String × Mark)) : Switch → List Char → Taken → Prop
  /-- The last one has its value behind it, if it has one. -/
  | last {s : Switch} {value : String} {left : List (String × Mark)}
      (h : f.takeValue s behind = .ok (value, left)) : Takes f behind s [] ⟨[(s, value)], [], left⟩
  /-- The letters behind a switch with a value are the value. -/
  | value {s : Switch} {c : Char} {cs : List Char} {shown : String} (hkind : s.kind = .value shown) :
    Takes f behind s (c :: cs) ⟨[(s, String.ofList (c :: cs))], [], behind⟩
  /-- From a letter on that is no switch all is unknown. -/
  | unknown {s : Switch} {c : Char} {cs : List Char} (hkind : ∀ shown, s.kind ≠ .value shown)
      (hdash : c ≠ '-') (hfind : f.find? (String.ofList ['-', c]) = none) :
    Takes f behind s (c :: cs) ⟨[(s, "")], ["-" ++ String.ofList (c :: cs)], behind⟩
  /-- The next one has the value behind the sign of equality. -/
  | equals {s next : Switch} {c : Char} {cs : List Char} {shown : String}
      (hkind : ∀ shown, s.kind ≠ .value shown) (hdash : c ≠ '-')
      (hfind : f.find? (String.ofList ['-', c]) = some next) (hnext : next.kind = .value shown) :
    Takes f behind s (c :: '=' :: cs) ⟨[(s, ""), (next, String.ofList cs)], [], behind⟩
  /-- The next one is taken with the letters behind it. -/
  | more {s next : Switch} {c : Char} {cs : List Char} {t : Taken}
      (hkind : ∀ shown, s.kind ≠ .value shown) (hdash : c ≠ '-')
      (hfind : f.find? (String.ofList ['-', c]) = some next) (hcs : ∀ value, cs ≠ '=' :: value)
      (h : Takes f behind next cs t) :
    Takes f behind s (c :: cs) { t with switches := (s, "") :: t.switches }

/-- A switch without a value is taken by itself, and the next letter decides what comes then. -/
theorem takeLetters_cons (hkind : ∀ shown, s.kind ≠ .value shown) (c : Char) (cs : List Char) :
    f.takeLetters s behind (c :: cs) =
      if c = '-' then .error (f.ignored s (String.ofList (c :: cs)))
      else
        match f.find? (String.ofList ['-', c]), cs with
        | none, _ => .ok ⟨[(s, "")], ["-" ++ String.ofList (c :: cs)], behind⟩
        | some next, '=' :: value =>
          match next.kind with
          | .value _ => .ok ⟨[(s, ""), (next, String.ofList value)], [], behind⟩
          | .help | .flag => .error (f.ignored next (String.ofList value))
        | some next, _ =>
          match f.takeLetters next behind cs with
          | .ok t => .ok { t with switches := (s, "") :: t.switches }
          | .error e => .error e := by
  conv_lhs => unfold takeLetters
  cases h : s.kind with
  | value shown => exact absurd h (hkind shown)
  | help | flag => rfl

theorem takes_of_takeLetters {letters : List Char} {t : Taken}
    (h : f.takeLetters s behind letters = .ok t) : Takes f behind s letters t := by
  induction letters generalizing s t with
  | nil =>
    rw [takeLetters] at h
    split at h
    · next hvalue =>
      cases h
      exact .last hvalue
    · contradiction
  | cons c cs ih =>
    by_cases hvalue : ∃ shown, s.kind = .value shown
    · obtain ⟨shown, hkind⟩ := hvalue
      unfold takeLetters at h
      rw [hkind] at h
      cases h
      exact .value hkind
    · have hkind : ∀ shown, s.kind ≠ .value shown := not_exists.mp hvalue
      rw [takeLetters_cons hkind] at h
      -- one case for each way in which the next letter decides
      split_ifs at h with hdash
      split at h
      · next hfind =>
        cases h
        exact .unknown hkind hdash hfind
      · next hfind =>
        split at h
        · next hnext =>
          cases h
          exact .equals hkind hdash hfind hnext
        all_goals contradiction
      · next hfind hcs =>
        split at h
        · next hlater =>
          cases h
          exact .more hkind hdash hfind hcs (ih hlater)
        · contradiction

theorem Takes.takeLetters {letters : List Char} {t : Taken} (h : Takes f behind s letters t) :
    f.takeLetters s behind letters = .ok t := by
  induction h with
  | last h => rw [Form.takeLetters, h]
  | value hkind =>
    unfold Form.takeLetters
    rw [hkind]
  | unknown hkind hdash hfind => rw [takeLetters_cons hkind, if_neg hdash, hfind]
  | equals hkind hdash hfind hnext =>
    rw [takeLetters_cons hkind, if_neg hdash, hfind]
    simp only [hnext]
  | more hkind hdash hfind hcs h ih =>
    rw [takeLetters_cons hkind, if_neg hdash, hfind]
    split
    · contradiction
    · exact absurd rfl (hcs _)
    · next hsome _ => rw [← Option.some.inj hsome, ih]

theorem takeLetters_eq_ok_iff {letters : List Char} {t : Taken} :
    f.takeLetters s behind letters = .ok t ↔ Takes f behind s letters t :=
  ⟨takes_of_takeLetters, Takes.takeLetters⟩

/-- A switch is taken in one of three ways, which do not depend on what is behind it: as the first of
some letters, with the value that is attached to it, or not at all. -/
theorem takeSwitch_cases (f : Form) (s : Switch) (name : String) (attached : Option Attached) :
    (∃ letters, ∀ behind, f.takeSwitch s name attached behind = f.takeLetters s behind letters) ∨
    (∃ value, ∀ behind, f.takeSwitch s name attached behind = .ok ⟨[(s, value)], [], behind⟩) ∨
    ∃ stop, ∀ behind, f.takeSwitch s name attached behind = .error stop := by
  cases attached with
  | none => exact .inl ⟨[], fun _ => rfl⟩
  | some a =>
    unfold takeSwitch
    dsimp only
    split
    · exact .inr (.inl ⟨_, fun _ => rfl⟩)
    all_goals
      split_ifs
      · exact .inl ⟨_, fun _ => rfl⟩
      · exact .inr (.inr ⟨_, fun _ => rfl⟩)

/-! ## Turns -/

/-- The arguments in front of the first switch. -/
def words (items : List (String × Mark)) : List (String × Mark) :=
  items.takeWhile fun i => !isSwitch i.2

/-- The arguments from the first switch on. -/
def fromSwitch (items : List (String × Mark)) : List (String × Mark) :=
  items.dropWhile fun i => !isSwitch i.2

/-- What a turn does to the arguments that are left and to what is given so far. -/
inductive Turn (f : Form) :
    List (String × Mark) → Given → List (String × Mark) → Given → Prop
  /-- A switch is taken with what belongs to it. -/
  | switch {a : String} {s : Switch} {name : String} {attached : Option Attached}
      {behind : List (String × Mark)} {g : Given} (t : Taken)
      (htake : f.takeSwitch s name attached behind = .ok t)
      (hhelp : (t.switches.any fun u => u.1.kind == .help) = false) :
    Turn f ((a, .switch s name attached) :: behind) g t.behind
      { g with switches := g.switches ++ t.switches, unknown := g.unknown ++ t.unknown }
  /-- The word is taken, and all behind it if it names a subcommand. -/
  | word {a : String} {m : Mark} {behind left : List (String × Mark)} {g : Given} {word : String}
      {rest : List String} (hm : isSwitch m = false) (hnone : g.word = none)
      (htake : f.takeWord? ((a, m) :: behind) = .ok (some (word, rest, left))) :
    Turn f ((a, m) :: behind) g left { g with word := some word, rest := rest }
  /-- A switch that the form does not have is put away. -/
  | stranger {a : String} {behind : List (String × Mark)} {g : Given} :
    Turn f ((a, .stranger) :: behind) g behind { g with unknown := g.unknown ++ [a] }
  /-- Words that nothing takes are put away up to the next switch. -/
  | stray {a : String} {m : Mark} {behind : List (String × Mark)} {g : Given}
      (hm : isSwitch m = false)
      (hword : g.word.isSome = true ∨ f.takeWord? ((a, m) :: behind) = .ok none) :
    Turn f ((a, m) :: behind) g (fromSwitch ((a, m) :: behind))
      { g with unknown := g.unknown ++ (words ((a, m) :: behind)).map Prod.fst }

/-- What is no switch is read as the word of the command, or put away. -/
theorem readMarked_of_not_switch (hm : isSwitch m = false) (turns : Nat) :
    f.readMarked (turns + 1) ((a, m) :: behind) g =
      let stray := f.readMarked turns (fromSwitch ((a, m) :: behind))
        { g with unknown := g.unknown ++ (words ((a, m) :: behind)).map Prod.fst }
      if g.word.isSome then stray
      else
        match f.takeWord? ((a, m) :: behind) with
        | .error e => .error e
        | .ok none => stray
        | .ok (some (word, rest, left)) =>
          f.readMarked turns left { g with word := some word, rest := rest } := by
  cases m with
  | word => rfl
  | divider => rfl
  | switch _ _ _ | stranger => contradiction

/-- A reading is a turn, if anything is left, and the reading of what that leaves. -/
theorem readMarked_succ_iff (turns : Nat) :
    f.readMarked (turns + 1) ((a, m) :: behind) g = .ok g' ↔
      ∃ left g₁, Turn f ((a, m) :: behind) g left g₁ ∧ f.readMarked turns left g₁ = .ok g' := by
  constructor
  · intro h
    cases hm : isSwitch m with
    | true =>
      cases m with
      | word | divider => contradiction
      | stranger => exact ⟨_, _, .stranger, h⟩
      | switch s name attached =>
        rw [readMarked] at h
        split at h
        · contradiction
        · next t htake =>
          split_ifs at h with hhelp
          exact ⟨_, _, .switch t htake (by simpa using hhelp), h⟩
    | false =>
      rw [readMarked_of_not_switch hm] at h
      split_ifs at h with hword
      · exact ⟨_, _, .stray hm (.inl hword), h⟩
      · split at h
        · contradiction
        · next htake => exact ⟨_, _, .stray hm (.inr htake), h⟩
        · next htake => exact ⟨_, _, .word hm (by simpa using hword) htake, h⟩
  · rintro ⟨left, g₁, hturn, hread⟩
    cases hturn with
    | switch t htake hhelp => simp [readMarked, htake, hhelp, hread]
    | stranger => exact hread
    | word hm hnone htake => simp [readMarked_of_not_switch hm, hnone, htake, hread]
    | stray hm hword =>
      rw [readMarked_of_not_switch hm]
      rcases hword with hsome | hnone
      · rw [if_pos hsome, hread]
      · rw [hnone, hread, ite_self]

/-! ## What a turn leaves -/

theorem suffix_of_takeValue {value : String} (h : f.takeValue s behind = .ok (value, left)) :
    left <:+ behind := by
  unfold takeValue at h
  split at h
  · cases h
    exact List.suffix_rfl
  · cases h
    exact List.suffix_rfl
  · split at h
    · cases h
      exact List.suffix_cons _ _
    · contradiction

theorem suffix_of_takeLetters {letters : List Char} {t : Taken}
    (h : f.takeLetters s behind letters = .ok t) : t.behind <:+ behind := by
  rw [takeLetters_eq_ok_iff] at h
  induction h with
  | last h => exact suffix_of_takeValue h
  | value | unknown | equals => exact List.suffix_rfl
  | more _ _ _ _ _ ih => exact ih

theorem suffix_of_takeSwitch {t : Taken} (h : f.takeSwitch s name attached behind = .ok t) :
    t.behind <:+ behind := by
  rcases takeSwitch_cases f s name attached with ⟨letters, htake⟩ | ⟨value, htake⟩ | ⟨stop, htake⟩
  · rw [htake] at h
    exact suffix_of_takeLetters h
  · rw [htake] at h
    cases h
    exact List.suffix_rfl
  · rw [htake] at h
    contradiction

/-- A turn leaves an end of the arguments, and takes at least the first of them. -/
theorem Turn.suffix {g₁ : Given} (h : Turn f ((a, m) :: behind) g left g₁) : left <:+ behind := by
  cases h with
  | switch t htake hhelp => exact suffix_of_takeSwitch htake
  | stranger => exact List.suffix_rfl
  | stray hm hword =>
    rw [fromSwitch, List.dropWhile_cons, if_pos (by simp [hm])]
    exact List.dropWhile_suffix _
  | word hm hnone htake =>
    unfold takeWord? at htake
    split at htake
    · next hitems =>
      cases hitems
      cases htake
      exact List.suffix_cons _ _
    · next hitems =>
      cases hitems
      cases htake
      exact List.suffix_cons _ _
    · next hitems =>
      cases hitems
      cases htake
      exact List.suffix_rfl
    · split_ifs at htake
      cases htake
      exact List.nil_suffix
    · contradiction
    · cases htake

/-- What is unknown is never forgotten. -/
theorem Turn.unknown_prefix {g₁ : Given} (h : Turn f items g left g₁) : g.unknown <+: g₁.unknown := by
  cases h with
  | switch t htake hhelp => exact List.prefix_append _ _
  | stranger => exact List.prefix_append _ _
  | stray hm hword => exact List.prefix_append _ _
  | word hm hnone htake => exact List.prefix_rfl

theorem words_ne_nil (hm : isSwitch m = false) : words ((a, m) :: behind) ≠ [] := by
  simp [words, hm]

/-- A turn that puts nothing away: a switch that does not ask for help, or the word. -/
theorem Turn.known {g₁ : Given} (h : Turn f items g left g₁) (hknown : g₁.unknown = []) :
    (∃ a s name attached behind t, items = (a, .switch s name attached) :: behind ∧
      f.takeSwitch s name attached behind = .ok t ∧
      (t.switches.any fun u => u.1.kind == .help) = false ∧ t.unknown = [] ∧ left = t.behind ∧
      g₁ = { g with switches := g.switches ++ t.switches }) ∨
    ∃ word rest, f.takeWord? items = .ok (some (word, rest, left)) ∧
      g₁ = { g with word := some word, rest := rest } := by
  cases h with
  | switch t htake hhelp =>
    obtain ⟨-, hnone⟩ := List.append_eq_nil_iff.mp hknown
    refine .inl ⟨_, _, _, _, _, t, rfl, htake, hhelp, hnone, rfl, ?_⟩
    rw [hnone, List.append_nil]
  | word hm hnone htake => exact .inr ⟨_, _, htake, rfl⟩
  | stranger => simp at hknown
  | stray hm hword =>
    obtain ⟨-, hnone⟩ := List.append_eq_nil_iff.mp hknown
    exact absurd (List.map_eq_nil_iff.mp hnone) (words_ne_nil hm)

/-! ## Readings -/

/-- A reading to the end: turn after turn, until no argument is left. -/
inductive Reads (f : Form) : List (String × Mark) → Given → Given → Prop
  | done (g : Given) : Reads f [] g g
  | turn {items left : List (String × Mark)} {g g₁ g' : Given} (h : Turn f items g left g₁)
    (hrest : Reads f left g₁ g') : Reads f items g g'

theorem Reads.eq_of_nil (h : Reads f [] g g') : g' = g := by
  cases h with
  | done => rfl
  | turn h hrest => cases h

theorem Reads.unknown_prefix (h : Reads f items g g') : g.unknown <+: g'.unknown := by
  induction h with
  | done => exact List.prefix_rfl
  | turn h hrest ih => exact h.unknown_prefix.trans ih

theorem Reads.known (h : Reads f items g g') (hknown : g'.unknown = []) : g.unknown = [] := by
  have hprefix := h.unknown_prefix
  rw [hknown] at hprefix
  exact List.prefix_nil.mp hprefix

/-- With enough turns nothing is left. -/
theorem readMarked_eq_ok_iff {turns : Nat} (h : items.length < turns) :
    f.readMarked turns items g = .ok g' ↔ Reads f items g g' := by
  induction turns generalizing items g with
  | zero => omega
  | succ turns ih =>
    cases items with
    | nil =>
      have hread : f.readMarked (turns + 1) [] g = .ok g := rfl
      rw [hread]
      constructor
      · intro hsame
        cases hsame
        exact .done _
      · intro hreads
        rw [hreads.eq_of_nil]
    | cons i behind =>
      rw [readMarked_succ_iff]
      -- a turn takes at least one argument, so one turn less is enough for the rest
      have hshort : ∀ {left g₁}, Turn f (i :: behind) g left g₁ → left.length < turns := by
        intro left g₁ hturn
        have hle := hturn.suffix.length_le
        simp only [List.length_cons] at h
        omega
      constructor
      · rintro ⟨left, g₁, hturn, hread⟩
        exact .turn hturn ((ih (hshort hturn)).mp hread)
      · intro hread
        cases hread with
        | turn hturn hrest => exact ⟨_, _, hturn, (ih (hshort hturn)).mpr hrest⟩

/-- Reading is marking, a reading to the end, and a look whether the word is there. -/
theorem read_eq_ok_iff {arguments : List String} :
    f.read arguments = .ok g ↔
      ∃ items, f.markAll arguments = .ok items ∧ Reads f items .none g ∧
        f.checkWord g = .ok g := by
  have hcheck : ∀ g', f.checkWord g' = .ok g ↔ g' = g ∧ f.checkWord g = .ok g := by
    intro g'
    unfold checkWord
    split <;> constructor <;> intro h
    · cases h
    · obtain ⟨rfl, h⟩ := h
      simp_all
    · cases h
      simp_all
    · rw [h.1]
  unfold read
  cases hmarks : f.markAll arguments with
  | error e => simp
  | ok items =>
    simp only [Except.ok.injEq, exists_eq_left']
    rw [← readMarked_eq_ok_iff (Nat.lt_succ_self items.length)]
    cases hread : f.readMarked (items.length + 1) items .none with
    | error e => simp
    | ok g' =>
      rw [Except.ok.injEq]
      exact hcheck g'

/-! ## Values of switches -/

/-- The values that are given to a switch of a name. -/
def given (name : String) (g : Given) : List String :=
  (g.switches.filter fun u => u.1.names.contains name).map Prod.snd

theorem value?_eq_getLast? (name : String) (g : Given) : g.value? name = (given name g).getLast? := by
  rw [given, List.getLast?_map, List.getLast?_filter]
  rfl

theorem given_concat (name value : String) (s : Switch) (g : Given) :
    given name { g with switches := g.switches ++ [(s, value)] } =
      given name g ++ if s.names.contains name then [value] else [] := by
  rw [given, given, List.filter_append, List.map_append]
  cases hcontains : s.names.contains name <;>
    simp only [List.filter_cons, List.filter_nil, hcontains, List.map_cons, List.map_nil,
      Bool.false_eq_true, if_true, if_false]

/-- What stands with a switch: the text that is attached to it, or what is next behind it. -/
def standing : Option Attached → List (String × Mark) → List String
  | some a, _ => [a.text]
  | none, (text, _) :: _ => [text]
  | none, [] => []

/-- What stands with the switches of a name. -/
def valuesOf (name : String) : List (String × Mark) → List String
  | [] => []
  | (_, .switch s _ attached) :: behind =>
    (if s.names.contains name then standing attached behind else []) ++ valuesOf name behind
  | (_, .word) :: behind | (_, .divider) :: behind | (_, .stranger) :: behind =>
    valuesOf name behind

/-- Whether help is all that can be asked for by a single letter. -/
def OnlyHelpIsShort (f : Form) : Prop :=
  ∀ entry ∈ f.names, isShort entry.1 = true → entry.2.kind = .help

instance : Decidable f.OnlyHelpIsShort :=
  inferInstanceAs (Decidable (∀ entry ∈ f.names, isShort entry.1 = true → entry.2.kind = .help))

/-- Whether the arguments are marked with switches of the form alone. -/
def Marked (f : Form) (items : List (String × Mark)) : Prop :=
  ∀ a s name attached, (a, .switch s name attached) ∈ items → (name, s) ∈ f.names

theorem marked_of_markAll {arguments : List String} (h : f.markAll arguments = .ok items) :
    Marked f items :=
  fun _ _ _ _ hmem => mem_names_of_mark (mark_of_mem_markAll h hmem).1

/-- What is taken with a switch starts with the switch. -/
theorem exists_cons_of_takeSwitch {t : Taken} (h : f.takeSwitch s name attached behind = .ok t) :
    ∃ value rest, t.switches = (s, value) :: rest := by
  rcases takeSwitch_cases f s name attached with ⟨letters, htake⟩ | ⟨value, htake⟩ | ⟨stop, htake⟩
  · rw [htake, takeLetters_eq_ok_iff] at h
    cases h <;> exact ⟨_, _, rfl⟩
  · rw [htake] at h
    cases h
    exact ⟨_, _, rfl⟩
  · rw [htake] at h
    contradiction

/-- How a switch is taken that does not ask for help, where nothing else is a single letter: alone,
and with the text that is attached to it, with none, or with the word next behind it. -/
theorem takeSwitch_single {t : Taken} (hshort : OnlyHelpIsShort f) (hname : (name, s) ∈ f.names)
    (htake : f.takeSwitch s name attached behind = .ok t)
    (hhelp : (t.switches.any fun u => u.1.kind == .help) = false) :
    ∃ value, t.switches = [(s, value)] ∧
      ((∃ text, attached = some text ∧ value = text.text ∧ t.behind = behind) ∨
        (attached = none ∧ s.kind = .flag ∧ t.behind = behind) ∨
        (attached = none ∧ behind = (value, .word) :: t.behind)) := by
  have hother : s.kind ≠ .help := by
    intro hkind
    obtain ⟨value, rest, hswitches⟩ := exists_cons_of_takeSwitch htake
    simp [hswitches, hkind] at hhelp
  have hlong : isShort name ≠ true := fun h => hother (hshort _ hname h)
  unfold takeSwitch at htake
  cases attached with
  | none =>
    unfold takeLetters takeValue at htake
    cases hkind : s.kind with
    | help => exact absurd hkind hother
    | flag =>
      rw [hkind] at htake
      cases htake
      exact ⟨_, rfl, .inr (.inl ⟨rfl, rfl, rfl⟩)⟩
    | value shown =>
      rw [hkind] at htake
      match behind with
      | (text, .word) :: rest =>
        cases htake
        exact ⟨_, rfl, .inr (.inr ⟨rfl, rfl⟩)⟩
      | [] | (_, .divider) :: _ | (_, .switch _ _ _) :: _ | (_, .stranger) :: _ => contradiction
  | some text =>
    dsimp only at htake
    split at htake
    · cases htake
      exact ⟨_, rfl, .inl ⟨text, rfl, rfl, rfl⟩⟩
    all_goals
      rw [if_neg (by simp [hlong])] at htake
      contradiction

section

variable {word about : String}

/-- The word that a turn takes stands with no switch. -/
theorem valuesOf_of_takeWord? {rest : List String} (hone : f.word = .one word about)
    (h : f.takeWord? items = .ok (some (a, rest, left))) :
    valuesOf name items = valuesOf name left := by
  unfold takeWord? at h
  rw [hone] at h
  split at h
  · cases h
    rfl
  · cases h
    rfl
  · cases h
    rfl
  · contradiction
  · contradiction
  · cases h

/-- A turn that puts nothing away gives to a switch what stands with it. -/
theorem Turn.values {g₁ : Given} (hshort : OnlyHelpIsShort f) (hone : f.word = .one word about)
    (hvalue : ∀ s ∈ f.switches, name ∈ s.names → s.kind ≠ .flag) (hmarks : Marked f items)
    (h : Turn f items g left g₁) (hknown : g₁.unknown = []) :
    given name g₁ ++ valuesOf name left = given name g ++ valuesOf name items := by
  rcases h.known hknown with
    ⟨a, s, n, attached, behind, t, rfl, htake, hhelp, -, rfl, rfl⟩ | ⟨word, rest, htake, rfl⟩
  · have hname : (n, s) ∈ f.names := hmarks a s n attached List.mem_cons_self
    obtain ⟨value, hswitches, htaken⟩ := takeSwitch_single hshort hname htake hhelp
    rw [hswitches, given_concat, List.append_assoc]
    show _ = given name g ++
      ((if s.names.contains name then standing attached behind else []) ++ valuesOf name behind)
    rcases htaken with ⟨text, rfl, rfl, hbehind⟩ | ⟨rfl, hflag, hbehind⟩ | ⟨rfl, hbehind⟩
    · rw [hbehind]
      rfl
    · -- a flag takes no value, so it is none of the switches of the name
      have hnot : s.names.contains name = false := by
        rw [Bool.eq_false_iff]
        intro hcontains
        exact hvalue s (mem_names_iff.mp hname).1 (by simpa using hcontains) hflag
      rw [hnot, hbehind]
      rfl
    · rw [hbehind]
      rfl
  · rw [valuesOf_of_takeWord? hone htake]
    rfl

/-- A reading in which nothing is unknown gives to a switch all that stands with it. -/
theorem Reads.values (hshort : OnlyHelpIsShort f) (hone : f.word = .one word about)
    (hvalue : ∀ s ∈ f.switches, name ∈ s.names → s.kind ≠ .flag) (h : Reads f items g g')
    (hmarks : Marked f items) (hknown : g'.unknown = []) :
    given name g' = given name g ++ valuesOf name items := by
  induction h with
  | done g => exact (List.append_nil _).symm
  | @turn items left g g₁ g' hturn hrest ih =>
    have hleft : Marked f left := by
      cases items with
      | nil => cases hturn
      | cons first behind =>
        intro a s n attached hmem
        exact hmarks a s n attached (List.mem_cons_of_mem _ (hturn.suffix.subset hmem))
    rw [ih hleft hknown, hturn.values hshort hone hvalue hmarks (hrest.known hknown)]

/-- In arguments in which nothing is unknown, the last value that stands with a switch counts. -/
theorem value?_of_read {arguments : List String} (hshort : OnlyHelpIsShort f)
    (hone : f.word = .one word about)
    (hvalue : ∀ s ∈ f.switches, name ∈ s.names → s.kind ≠ .flag)
    (h : f.read arguments = .ok g) (hknown : g.unknown = []) :
    ∃ items, f.markAll arguments = .ok items ∧
      g.value? name = (valuesOf name items).getLast? := by
  obtain ⟨items, hmarks, hreads, -⟩ := read_eq_ok_iff.mp h
  refine ⟨items, hmarks, ?_⟩
  rw [value?_eq_getLast?, hreads.values hshort hone hvalue (marked_of_markAll hmarks) hknown]
  rfl

end

end Bindery.CommandLine.Form
