import Bindery.CommandLine.Program
import Bindery.Proofs.ArgumentTurns

/-!
# What command lines ask for

A command line that asks for a job is made of switches for a verbose run, the name of a subcommand,
and the arguments of that, in this order (`Asks`), and every line that is made so asks for the job
that its subcommand reads from its arguments (`wishOf_eq_ok_iff`).

So a switch more in front of the subcommand makes the run verbose and changes nothing about the job
(`wishOf_insert_verbose`), and the package of a layout is the last one that stands with its switch
(`package_of_wish`).
-/

namespace Bindery.CommandLine

open Form

/-! ## Switches for a verbose run -/

/-- The switch for a verbose run. -/
def verboseSwitch : Switch := ⟨["-v", "--verbose"], .flag, "Enable debug logging"⟩

/-- A mark that is taken for the switch for a verbose run, once or several times, and for nothing
else. -/
def IsVerbose (m : Mark) : Prop :=
  ∃ name attached switches, m = .switch verboseSwitch name attached ∧ switches ≠ [] ∧
    (∀ u ∈ switches, u.1 = verboseSwitch) ∧
    ∀ behind, mainForm.takeSwitch verboseSwitch name attached behind = .ok ⟨switches, [], behind⟩

/-- An argument that asks for a verbose run, and for nothing else. -/
def AsksVerbose (a : String) : Prop := ∃ m, mainForm.mark a = .ok m ∧ IsVerbose m

theorem asksVerbose_short : AsksVerbose "-v" :=
  ⟨_, rfl, _, _, [(verboseSwitch, "")], rfl, by decide, by simp, fun _ => rfl⟩

example : AsksVerbose "-vv" :=
  ⟨_, rfl, _, _, [(verboseSwitch, ""), (verboseSwitch, "")], rfl, by decide, by simp, fun _ => rfl⟩

section

variable {f : Form} {s : Switch} {name a : String} {attached : Option Attached} {m : Mark}
  {behind left : List (String × Mark)} {g g' g₁ : Given} {t : Taken}

theorem mainForm_flags : ∀ s ∈ mainForm.switches, s.kind = .help ∨ s.kind = .flag := by decide

theorem eq_verboseSwitch (hs : s ∈ mainForm.switches) (hkind : s.kind ≠ .help) :
    s = verboseSwitch := by
  rcases List.mem_pair.mp hs with rfl | rfl
  · exact absurd rfl hkind
  · rfl

/-- Where no switch takes a value, letters in a row take nothing from behind them. -/
theorem takes_of_flags (hflags : ∀ s ∈ f.switches, s.kind = .help ∨ s.kind = .flag)
    (hs : s ∈ f.switches) {letters : List Char} (h : Takes f behind s letters t) :
    (∀ other, Takes f other s letters { t with behind := other }) ∧
      ∀ u ∈ t.switches, u.1 ∈ f.switches := by
  have hnovalue : ∀ {s : Switch} {shown}, s ∈ f.switches → s.kind ≠ .value shown := by
    intro s shown hmem
    rcases hflags s hmem with hkind | hkind <;> simp [hkind]
  have hfound : ∀ {name : String} {next}, f.find? name = some next → next ∈ f.switches :=
    fun hfind => (mem_names_iff.mp (mem_names_of_find? hfind)).1
  induction h with
  | @last s value left h =>
    have htake : ∀ other, f.takeValue s other = .ok ("", other) := by
      intro other
      unfold takeValue
      rcases hflags s hs with hkind | hkind <;> rw [hkind]
    rw [htake] at h
    cases h
    exact ⟨fun other => .last (htake other), by simpa using hs⟩
  | value hkind => exact absurd hkind (hnovalue hs)
  | unknown hkind hdash hfind => exact ⟨fun _ => .unknown hkind hdash hfind, by simpa using hs⟩
  | equals hkind hdash hfind hnext => exact absurd hnext (hnovalue (hfound hfind))
  | more hkind hdash hfind hcs h ih =>
    obtain ⟨hothers, hmem⟩ := ih (hfound hfind)
    exact ⟨fun other => .more hkind hdash hfind hcs (hothers other),
      List.forall_mem_cons.mpr ⟨hs, hmem⟩⟩

/-- Where no switch takes a value, a switch takes nothing from behind it. -/
theorem takeSwitch_of_flags (hflags : ∀ s ∈ f.switches, s.kind = .help ∨ s.kind = .flag)
    (hs : s ∈ f.switches) (h : f.takeSwitch s name attached behind = .ok t) :
    (∀ other, f.takeSwitch s name attached other = .ok { t with behind := other }) ∧
      ∀ u ∈ t.switches, u.1 ∈ f.switches := by
  rcases takeSwitch_cases f s name attached with ⟨letters, htake⟩ | ⟨value, htake⟩ | ⟨stop, htake⟩
  · simp only [htake, takeLetters_eq_ok_iff] at h ⊢
    exact takes_of_flags hflags hs h
  · rw [htake] at h
    cases h
    exact ⟨htake, by simpa using hs⟩
  · rw [htake] at h
    contradiction

/-- What the program takes for a switch, if help is not asked for and nothing of it is unknown. -/
theorem isVerbose_of_takeSwitch (hname : (name, s) ∈ mainForm.names)
    (htake : mainForm.takeSwitch s name attached behind = .ok t)
    (hhelp : (t.switches.any fun u => u.1.kind == .help) = false) (hknown : t.unknown = []) :
    IsVerbose (.switch s name attached) ∧ t.behind = behind ∧ t.switches ≠ [] ∧
      ∀ u ∈ t.switches, u.1 = verboseSwitch := by
  have hs := (mem_names_iff.mp hname).1
  obtain ⟨hothers, hmem⟩ := takeSwitch_of_flags mainForm_flags hs htake
  obtain ⟨value, rest, hfirst⟩ := exists_cons_of_takeSwitch htake
  have hverbose : ∀ u ∈ t.switches, u.1 = verboseSwitch := by
    intro u hu
    have hkind : u.1.kind ≠ .help := by simpa using List.any_eq_false.mp hhelp u hu
    exact eq_verboseSwitch (hmem u hu) hkind
  have hne : t.switches ≠ [] := by simp [hfirst]
  obtain rfl : s = verboseSwitch := hverbose (s, value) (by simp [hfirst])
  have hbehind : t.behind = behind := by
    have hsame := (hothers behind).symm.trans htake
    rw [← Except.ok.inj hsame]
  refine ⟨⟨name, attached, t.switches, rfl, hne, hverbose, ?_⟩, hbehind, hne, hverbose⟩
  intro other
  rw [hothers other, ← hknown]

/-! ## The arguments of the program -/

/-- A command is a word of the program's. -/
theorem jobOf_isSome_iff (command : String) :
    (jobOf command).isSome = true ↔ (commands.any fun c => c.1 == command) = true := by
  unfold jobOf
  split
  case h_6 camel source android layout version =>
    simp [commands, Ne.symm camel, Ne.symm source, Ne.symm android, Ne.symm layout,
      Ne.symm version]
  all_goals simp [commands]

/-- A turn of the program that puts nothing away: a switch for a verbose run, or a command and all
that is behind it. -/
theorem turn_of_main (hmarks : Marked mainForm items) (h : Form.Turn mainForm items g left g₁)
    (hknown : g₁.unknown = []) :
    (∃ a m switches, items = (a, m) :: left ∧ IsVerbose m ∧ switches ≠ [] ∧
      (∀ u ∈ switches, u.1 = verboseSwitch) ∧
      g₁ = { g with switches := g.switches ++ switches }) ∨
    ∃ command behind, items = (command, .word) :: behind ∧ (jobOf command).isSome = true ∧
      left = [] ∧ g₁ = { g with word := some command, rest := behind.map Prod.fst } := by
  rcases h.known hknown with
    ⟨a, s, name, attached, behind, t, rfl, htake, hhelp, hnone, rfl, rfl⟩ |
    ⟨word, rest, htake, rfl⟩
  · obtain ⟨hverbose, hbehind, hne, hall⟩ :=
      isVerbose_of_takeSwitch (hmarks _ _ _ _ List.mem_cons_self) htake hhelp hnone
    exact .inl ⟨a, _, t.switches, by rw [hbehind], hverbose, hne, hall, rfl⟩
  · unfold takeWord? at htake
    split at htake
    case h_4 hform =>
      cases hform
      split_ifs at htake with hcommand
      cases htake
      exact .inr ⟨_, _, rfl, (jobOf_isSome_iff _).mpr hcommand, rfl, rfl⟩
    case h_6 => cases htake
    all_goals contradiction

/-- The switches in front of the command, all for a verbose run, and the command itself. -/
theorem reads_of_main (h : Form.Reads mainForm items g g') (hmarks : Marked mainForm items)
    (hword : g.word = none) (hknown : g'.unknown = []) {command : String}
    (hcommand : g'.word = some command) :
    ∃ front behind switches, items = front ++ (command, .word) :: behind ∧
      (∀ i ∈ front, IsVerbose i.2) ∧ (jobOf command).isSome = true ∧
      (∀ u ∈ switches, u.1 = verboseSwitch) ∧ switches.isEmpty = front.isEmpty ∧
      g'.switches = g.switches ++ switches ∧ g'.rest = behind.map Prod.fst := by
  induction h with
  | done => simp [hword] at hcommand
  | @turn items left g g₁ g' hturn hrest ih =>
    -- a switch is one more in front, and the command ends the reading
    rcases turn_of_main hmarks hturn (hrest.known hknown) with
      ⟨a, m, switches, rfl, hm, hne, hall, rfl⟩ | ⟨word, behind, rfl, hjob, rfl, rfl⟩
    · obtain ⟨front, behind, later, rfl, hfront, hjob, hlater, hempty, hswitches, hbehind⟩ :=
        ih (fun _ _ _ _ hmem => hmarks _ _ _ _ (List.mem_cons_of_mem _ hmem)) hword hknown
          hcommand
      refine ⟨(a, m) :: front, behind, switches ++ later, rfl, ?_, hjob, ?_, by simp [hne], ?_,
        hbehind⟩
      · exact List.forall_mem_cons.mpr ⟨hm, hfront⟩
      · exact List.forall_mem_append.mpr ⟨hall, hlater⟩
      · rw [hswitches, List.append_assoc]
    · obtain rfl := hrest.eq_of_nil
      cases hcommand
      exact ⟨[], behind, [], rfl, by simp, hjob, by simp, rfl, (List.append_nil _).symm, rfl⟩

/-- Switches for a verbose run in front of a command are read to the end. -/
theorem exists_reads_of_verbose (behind : List (String × Mark)) {front : List (String × Mark)}
    (hfront : ∀ i ∈ front, IsVerbose i.2) {command : String}
    (hjob : (jobOf command).isSome = true) (hword : g.word = none) :
    ∃ switches, (∀ u ∈ switches, u.1 = verboseSwitch) ∧ switches.isEmpty = front.isEmpty ∧
      Form.Reads mainForm (front ++ (command, .word) :: behind) g
        { g with switches := g.switches ++ switches, word := some command
                 rest := behind.map Prod.fst } := by
  -- what is given grows with every switch, so it is left open
  induction front generalizing g with
  | nil =>
    refine ⟨[], by simp, rfl, ?_⟩
    have htake : mainForm.takeWord? ((command, .word) :: behind) =
        .ok (some (command, behind.map Prod.fst, [])) := by
      rw [jobOf_isSome_iff] at hjob
      exact if_pos hjob
    rw [List.append_nil]
    exact .turn (.word rfl hword htake) (.done _)
  | cons i front ih =>
    obtain ⟨⟨name, attached, switches, hm, hne, hall, htake⟩, hlater⟩ :=
      List.forall_mem_cons.mp hfront
    obtain ⟨a, m⟩ := i
    obtain rfl : m = .switch verboseSwitch name attached := hm
    have hhelp : (switches.any fun u => u.1.kind == .help) = false := by
      rw [List.any_eq_false]
      intro u hu
      rw [hall u hu]
      decide
    obtain ⟨later, hlast, hempty, hreads⟩ :=
      ih (g := { g with switches := g.switches ++ switches, unknown := g.unknown ++ [] }) hlater
        hword
    refine ⟨switches ++ later, List.forall_mem_append.mpr ⟨hall, hlast⟩, by simp [hne], ?_⟩
    refine .turn (.switch ⟨switches, [], front ++ (command, .word) :: behind⟩ (htake _) hhelp) ?_
    simpa only [List.append_nil, List.append_assoc] using hreads

/-- A run is verbose if there is a switch for it. -/
theorem has_verbose {switches : List (Switch × String)}
    (hall : ∀ u ∈ switches, u.1 = verboseSwitch) (hgiven : g.switches = switches) :
    g.has "--verbose" = !switches.isEmpty := by
  unfold Given.has
  rw [hgiven]
  cases switches with
  | nil => rfl
  | cons u later =>
    have hfirst : u.1.names.contains "--verbose" = true := by
      rw [hall u List.mem_cons_self]
      decide
    show (u.1.names.contains "--verbose" || _) = true
    rw [hfirst]
    rfl

end

/-! ## Command lines -/

section

variable {arguments before after flags rest : List String} {a command : String} {job : Job}
  {verbose : Bool}

/-- What a command line that asks for a job is made of: switches for a verbose run, a command, and
the arguments that the command reads its job from. -/
structure Asks (arguments flags : List String) (command : String) (rest : List String) (job : Job) :
    Prop where
  made : arguments = flags ++ command :: rest
  verbose : ∀ a ∈ flags, AsksVerbose a
  marked : ∃ items, mainForm.markAll rest = .ok items
  asked : ∃ form toJob sub, jobOf command = some (form, toJob) ∧ form.read rest = .ok sub ∧
    sub.unknown = [] ∧ toJob sub = job

/-- A divider asks for nothing. -/
theorem AsksVerbose.ne_divider (h : AsksVerbose a) : a ≠ "--" := by
  rintro rfl
  obtain ⟨m, hm, -⟩ := h
  have herror : (mainForm.mark "--").isOk = false := by decide +kernel
  rw [hm] at herror
  contradiction

/-- The name of a command is a word. -/
theorem mark_of_jobOf (h : (jobOf command).isSome = true) :
    mainForm.mark command = .ok .word ∧ command ≠ "--" := by
  unfold jobOf at h
  split at h
  case h_6 => contradiction
  all_goals exact ⟨rfl, by decide⟩

/-- Arguments that ask for a verbose run are marked so. -/
theorem exists_markAll_of_asksVerbose (h : ∀ a ∈ flags, AsksVerbose a) :
    ∃ front, mainForm.markAll flags = .ok front ∧ (∀ i ∈ front, IsVerbose i.2) ∧
      front.isEmpty = flags.isEmpty := by
  induction flags with
  | nil => exact ⟨[], rfl, by simp, rfl⟩
  | cons a flags ih =>
    obtain ⟨ha, hlater⟩ := List.forall_mem_cons.mp h
    obtain ⟨front, hfront, hall, -⟩ := ih hlater
    obtain ⟨m, hm, hverbose⟩ := ha
    refine ⟨(a, m) :: front, ?_, List.forall_mem_cons.mpr ⟨hverbose, hall⟩, rfl⟩
    exact (markAll_cons_eq_ok_iff (AsksVerbose.ne_divider ⟨m, hm, hverbose⟩)).mpr
      ⟨m, front, hm, hfront, rfl⟩

/-- Which command lines the program reads to a command, and what it then has. -/
theorem read_main_iff :
    (∃ g, mainForm.read arguments = .ok g ∧ g.word = some command ∧ g.unknown = [] ∧
      g.rest = rest ∧ g.has "--verbose" = verbose ∧ (jobOf command).isSome = true) ↔
    ∃ flags, arguments = flags ++ command :: rest ∧ (∀ a ∈ flags, AsksVerbose a) ∧
      (∃ items, mainForm.markAll rest = .ok items) ∧ (jobOf command).isSome = true ∧
      verbose = !flags.isEmpty := by
  constructor
  · rintro ⟨g, hread, hcommand, hknown, rfl, rfl, hjob⟩
    obtain ⟨items, hmarks, hreads, -⟩ := read_eq_ok_iff.mp hread
    obtain ⟨front, behind, switches, rfl, hfront, -, hall, hempty, hswitches, hrest⟩ :=
      reads_of_main hreads (marked_of_markAll hmarks) rfl hknown hcommand
    have hmade := map_fst_of_markAll hmarks
    rw [List.map_append, List.map_cons, ← hrest] at hmade
    have hflags : ∀ a ∈ front.map Prod.fst, AsksVerbose a := by
      intro a ha
      obtain ⟨⟨_, m⟩, hi, rfl⟩ := List.mem_map.mp ha
      obtain ⟨_, _, _, rfl, -⟩ := hfront _ hi
      exact ⟨_, (mark_of_mem_markAll hmarks (List.mem_append_left _ hi)).1, hfront _ hi⟩
    refine ⟨front.map Prod.fst, hmade.symm, hflags, ?_, hjob, ?_⟩
    · rw [← hmade, markAll_append_eq_ok_iff fun h => (hflags _ h).ne_divider rfl] at hmarks
      obtain ⟨-, _, -, hback, -⟩ := hmarks
      obtain ⟨-, items, -, hitems, -⟩ :=
        (markAll_cons_eq_ok_iff (mark_of_jobOf hjob).2).mp hback
      exact ⟨items, hitems⟩
    · rw [has_verbose hall hswitches, hempty, List.isEmpty_map]
  · rintro ⟨flags, rfl, hflags, ⟨behind, hbehind⟩, hjob, rfl⟩
    obtain ⟨front, hfront, hall, hempty⟩ := exists_markAll_of_asksVerbose hflags
    obtain ⟨hword, hne⟩ := mark_of_jobOf hjob
    have hmarks : mainForm.markAll (flags ++ command :: rest) =
        .ok (front ++ (command, .word) :: behind) :=
      (markAll_append_eq_ok_iff fun h => (hflags _ h).ne_divider rfl).mpr
        ⟨front, _, hfront, (markAll_cons_eq_ok_iff hne).mpr ⟨_, _, hword, hbehind, rfl⟩, rfl⟩
    obtain ⟨switches, hverbose, hcount, hreads⟩ :=
      exists_reads_of_verbose (g := .none) behind hall hjob rfl
    refine ⟨_, read_eq_ok_iff.mpr ⟨_, hmarks, hreads, rfl⟩, rfl, rfl,
      map_fst_of_markAll hbehind, ?_, hjob⟩
    rw [has_verbose hverbose rfl, hcount, hempty]

/-- A command line asks for a job exactly if it is made so. -/
theorem wishOf_eq_ok_iff :
    wishOf arguments = .ok ⟨verbose, some job⟩ ↔
      ∃ flags command rest, Asks arguments flags command rest job ∧ verbose = !flags.isEmpty := by
  constructor
  · intro h
    unfold wishOf at h
    split at h
    · contradiction
    · next g hread =>
      dsimp only at h
      split at h
      · next hnone =>
        unfold checkUnknown at h
        split_ifs at h
        cases h
      · next form toJob hsome =>
        split at h
        · contradiction
        · next sub hsub =>
          unfold checkUnknown at h
          split_ifs at h with hknown
          cases h
          obtain ⟨hmain, hlater⟩ := List.append_eq_nil_iff.mp (List.isEmpty_iff.mp hknown)
          obtain ⟨command, hcommand, hjob⟩ := Option.bind_eq_some_iff.mp hsome
          obtain ⟨flags, hmade, hflags, hmarked, -, hverbose⟩ := read_main_iff.mp
            ⟨g, hread, hcommand, hmain, rfl, rfl, by rw [hjob]; rfl⟩
          exact ⟨flags, command, g.rest,
            ⟨hmade, hflags, hmarked, form, toJob, sub, hjob, hsub, hlater, rfl⟩, hverbose⟩
  · rintro ⟨flags, command, rest, ⟨hmade, hflags, hmarked, form, toJob, sub, hjob, hsub, hknown,
      rfl⟩, hverbose⟩
    obtain ⟨g, hread, hcommand, hmain, rfl, rfl, -⟩ := read_main_iff.mpr
      ⟨flags, hmade, hflags, hmarked, by rw [hjob]; rfl, hverbose⟩
    have hsome : g.word.bind jobOf = some (form, toJob) := by rw [hcommand]; exact hjob
    unfold wishOf
    simp only [hread, hsome, hsub, hmain, hknown]
    rfl

/-- One switch more in front of the command makes the run verbose, and changes nothing else. -/
theorem wishOf_insert_verbose (h : wishOf (before ++ after) = .ok ⟨verbose, some job⟩)
    (hbefore : ∀ a ∈ before, (jobOf a).isSome = false) :
    wishOf (before ++ "-v" :: after) = .ok ⟨true, some job⟩ := by
  obtain ⟨flags, command, rest, ⟨hmade, hflags, hmarked, hasked⟩, -⟩ := wishOf_eq_ok_iff.mp h
  -- the command is not in front of the switch
  obtain ⟨between, rfl, rfl⟩ :
      ∃ between, flags = before ++ between ∧ after = between ++ command :: rest := by
    rcases List.append_eq_append_iff.mp hmade with ⟨between, rfl, hafter⟩ | ⟨between, rfl, hafter⟩
    · exact ⟨between, rfl, hafter⟩
    · cases between with
      | nil => exact ⟨[], by simp, hafter.symm⟩
      | cons other between =>
        obtain ⟨rfl, -⟩ := List.cons.inj hafter
        obtain ⟨form, toJob, -, hjob, -⟩ := hasked
        have hnone := hbefore command (by simp)
        rw [hjob] at hnone
        contradiction
  obtain ⟨hfront, hback⟩ := List.forall_mem_append.mp hflags
  refine wishOf_eq_ok_iff.mpr ⟨before ++ "-v" :: between, command, rest,
    ⟨by simp, ?_, hmarked, hasked⟩, by simp⟩
  exact List.forall_mem_append.mpr ⟨hfront, List.forall_mem_cons.mpr ⟨asksVerbose_short, hback⟩⟩

/-- The package that a layout is asked for with is the last one that stands with its switch, also if
that is empty, and there is none if nothing stands with it. -/
theorem package_of_wish {name : String} {package config : Option String} {asPath : Bool}
    (h : wishOf arguments = .ok ⟨verbose, some (.layout name package config asPath)⟩) :
    ∃ flags rest items, arguments = flags ++ "layout" :: rest ∧ (∀ a ∈ flags, AsksVerbose a) ∧
      layoutForm.markAll rest = .ok items ∧
      package = (valuesOf "--package" items).getLast? := by
  obtain ⟨flags, command, rest, ⟨hmade, hflags, -, form, toJob, sub, hjob, hsub, hknown, hsame⟩,
    -⟩ := wishOf_eq_ok_iff.mp h
  obtain ⟨rfl, rfl, rfl⟩ : command = "layout" ∧ form = layoutForm ∧
      sub.value? "--package" = package := by
    unfold jobOf at hjob
    split at hjob <;> cases hjob <;> cases hsame
    exact ⟨rfl, rfl, rfl⟩
  have hshort : OnlyHelpIsShort layoutForm := by decide
  have htakes : ∀ s ∈ layoutForm.switches, "--package" ∈ s.names → s.kind ≠ .flag := by decide
  obtain ⟨items, hmarks, hvalue⟩ := value?_of_read hshort rfl htakes hsub hknown
  exact ⟨flags, rest, items, hmade, hflags, hmarks, hvalue⟩

end

end Bindery.CommandLine
