import Mathlib
import RehashReport.Options

/-!
# The grammar of arguments

Which arguments are options for a run.  They are groups, an option and its value if it has one, and
two dashes may stand behind the last of them (`written`).  What stands in the place of a value is
the value, whatever it looks like, so reading from the left finds the groups again: one step of the
reading takes one group off (`readFrom_step`), and a run of it takes all (`readFrom_eq_ok_iff`).
Arguments are accepted just if they are groups in which no path is given twice, in no more than one
way, and then only the groups count and not their order (`parse_eq_ok_iff_written`).
-/

namespace RehashReport.Options

/-! ## Groups -/

/-- An option with its value, and whether its long name is used. -/
inductive Group
  | noDisplay (long : Bool)
  | input (long : Bool) (path : String)
  | output (long : Bool) (path : String)
deriving DecidableEq, Repr

namespace Group

/-- The arguments that a group consists of. -/
def arguments : Group → List String
  | .noDisplay long => [if long then "--no-display" else "-q"]
  | .input long path => [if long then "--input" else "-i", path]
  | .output long path => [if long then "--output" else "-o", path]

/-- The path that a group gives for the input. -/
def input? : Group → Option String
  | .input _ path => some path
  | _ => none

/-- The path that a group gives for the output. -/
def output? : Group → Option String
  | .output _ path => some path
  | _ => none

/-- Whether a group says not to print the table. -/
def isNoDisplay : Group → Bool
  | .noDisplay _ => true
  | _ => false

end Group

/-- Groups one after the other, with two dashes behind them or without. -/
def written (groups : List Group) (ended : Bool) : List String :=
  groups.flatMap Group.arguments ++ if ended then ["--"] else []

/-- Neither path is given twice. -/
def AtMostOnce (groups : List Group) : Prop :=
  (groups.filterMap Group.input?).length ≤ 1 ∧ (groups.filterMap Group.output?).length ≤ 1

instance : DecidablePred AtMostOnce := fun _ => inferInstanceAs (Decidable (_ ∧ _))

/-- The options that groups choose: the path that is given or the default one, and whether any of
the groups says not to print the table. -/
def chosen (groups : List Group) : Options where
  input := (groups.filterMap Group.input?).head?.getD defaultInput
  output := (groups.filterMap Group.output?).head?.getD defaultOutput
  noDisplay := groups.any Group.isNoDisplay

@[simp] theorem written_nil (ended : Bool) : written [] ended = if ended then ["--"] else [] := rfl

@[simp] theorem written_cons (group : Group) (groups : List Group) (ended : Bool) :
    written (group :: groups) ended = group.arguments ++ written groups ended := by
  rw [written, List.flatMap_cons, List.append_assoc, written]

theorem Group.arguments_ne_nil (group : Group) : group.arguments ≠ [] := by
  cases group <;> exact List.cons_ne_nil _ _

/-- The first argument of a group tells which one it is, and how far it goes. -/
theorem Group.arguments_append_inj {group other : Group} {rest more : List String}
    (h : group.arguments ++ rest = other.arguments ++ more) : group = other ∧ rest = more := by
  rcases group with ⟨_ | _⟩ | ⟨_ | _, _⟩ | ⟨_ | _, _⟩ <;>
    rcases other with ⟨_ | _⟩ | ⟨_ | _, _⟩ | ⟨_ | _, _⟩ <;>
    simp_all [Group.arguments]

/-- Two dashes open no group. -/
theorem Group.arguments_append_ne (group : Group) (rest : List String) :
    group.arguments ++ rest ≠ ["--"] := by
  rcases group with ⟨_ | _⟩ | ⟨_ | _, _⟩ | ⟨_ | _, _⟩ <;> simp [Group.arguments]

/-- Arguments are groups in one way only. -/
theorem written_inj {groups others : List Group} {ended ended' : Bool}
    (h : written groups ended = written others ended') : groups = others ∧ ended = ended' := by
  have hend : ∀ (group : Group) (rest : List String) (ended : Bool),
      group.arguments ++ rest ≠ if ended then ["--"] else [] := by
    intro group rest ended
    cases ended
    · exact List.append_ne_nil_of_left_ne_nil group.arguments_ne_nil rest
    · exact group.arguments_append_ne rest
  induction groups generalizing others with
  | nil =>
    cases others with
    | nil => cases ended <;> cases ended' <;> simp_all
    | cons other others =>
      rw [written_nil, written_cons] at h
      exact absurd h.symm (hend _ _ _)
  | cons group groups ih =>
    cases others with
    | nil =>
      rw [written_nil, written_cons] at h
      exact absurd h (hend _ _ _)
    | cons other others =>
      rw [written_cons, written_cons] at h
      obtain ⟨rfl, hrest⟩ := Group.arguments_append_inj h
      obtain ⟨rfl, hended⟩ := ih hrest
      exact ⟨rfl, hended⟩

/-! ## Reading a group -/

/-- What is given after one more group; nothing if the group gives a path again. -/
def Given.enter (g : Given) : Group → Option Given
  | .noDisplay _ => some { g with noDisplay := true }
  | .input _ path => if g.input = .none then some { g with input := some path } else .none
  | .output _ path => if g.output = .none then some { g with output := some path } else .none

/-- Nothing stands in the way of a group: help was not asked for, and two dashes have not been
read. -/
structure Given.IsOpen (g : Given) : Prop where
  help : g.help = false
  ended : g.ended = false

theorem Given.IsOpen.enter {g h : Given} (hg : g.IsOpen) {group : Group}
    (h' : g.enter group = some h) : h.IsOpen := by
  cases group with
  | noDisplay long =>
    cases h'
    exact ⟨hg.help, hg.ended⟩
  | input long path =>
    rw [Given.enter] at h'
    split_ifs at h'
    cases h'
    exact ⟨hg.help, hg.ended⟩
  | output long path =>
    rw [Given.enter] at h'
    split_ifs at h'
    cases h'
    exact ⟨hg.help, hg.ended⟩

/-- The names by which arguments are told apart. -/
theorem name_of_kind (argument : String) :
    match kind argument with
    | .endOfOptions => argument = "--"
    | .noDisplay => argument = "-q" ∨ argument = "--no-display"
    | .input => argument = "-i" ∨ argument = "--input"
    | .output => argument = "-o" ∨ argument = "--output"
    | _ => True := by
  rw [kind]
  split_ifs <;> trivial

/-- A group is taken off the front of the arguments, if it gives no path again. -/
theorem readFrom_arguments_append {g h : Given} (hg : g.IsOpen) (group : Group)
    (rest : List String) :
    readFrom g (group.arguments ++ rest) = .ok h ↔
      ∃ g', g.enter group = some g' ∧ readFrom g' rest = .ok h := by
  cases group with
  | noDisplay long =>
    have hkind : kind (if long then "--no-display" else "-q") = .noDisplay := by
      cases long <;> decide
    rw [Group.arguments, List.singleton_append, readFrom.eq_def]
    simp [hg.help, hg.ended, hkind, Given.enter]
  | input long path =>
    have hkind : kind (if long then "--input" else "-i") = .input := by
      cases long <;> decide
    cases hinput : g.input <;>
      simp [Group.arguments, readFrom, hg.help, hg.ended, hkind, Given.enter, once, hinput]
  | output long path =>
    have hkind : kind (if long then "--output" else "-o") = .output := by
      cases long <;> decide
    cases houtput : g.output <;>
      simp [Group.arguments, readFrom, hg.help, hg.ended, hkind, Given.enter, once, houtput]

/-- Behind two dashes nothing is taken. -/
theorem readFrom_of_ended {g h : Given} (hg : g.ended = true) {arguments : List String} :
    readFrom g arguments = .ok h ↔ arguments = [] ∧ h = g := by
  cases arguments with
  | nil => simp [readFrom, eq_comm]
  | cons argument rest =>
    rw [readFrom.eq_def]
    simp [hg]

/-- Two dashes leave nothing open. -/
theorem readFrom_written_nil {g : Given} (hg : g.IsOpen) (ended : Bool) :
    readFrom g (written [] ended) = .ok { g with ended := ended } := by
  cases ended with
  | false =>
    have hself : g = { g with ended := false } := by rw [← hg.ended]
    rw [← hself]
    rfl
  | true =>
    have hkind : kind "--" = .endOfOptions := by decide
    rw [written_nil, if_pos rfl, readFrom.eq_def]
    simp [hg.ended, hkind, readFrom]

/-- A request for help is not taken back. -/
theorem help_of_readFrom {g h : Given} {arguments : List String} (hg : g.help = true)
    (hread : readFrom g arguments = .ok h) : h.help = true := by
  fun_induction readFrom g arguments <;> simp_all

/-! ## Reading all groups -/

/-- **One step.**  Arguments that are read without a request for help are at their end or open with
a group. -/
theorem readFrom_step {g h : Given} (hg : g.IsOpen) (hh : h.help = false)
    {arguments : List String} (hread : readFrom g arguments = .ok h) :
    (∃ ended, arguments = written [] ended) ∨
      ∃ (group : Group) (rest : List String), arguments = group.arguments ++ rest := by
  cases arguments with
  | nil => exact .inl ⟨false, rfl⟩
  | cons argument rest =>
    have hname := name_of_kind argument
    rw [readFrom.eq_def] at hread
    simp only [hg.ended, hg.help, Bool.false_eq_true, if_false] at hread
    cases hkind : kind argument with
    | help =>
      rw [hkind] at hread
      rw [help_of_readFrom rfl hread] at hh
      cases hh
    | unknown =>
      rw [hkind] at hread
      cases hread
    | plain =>
      rw [hkind] at hread
      cases hread
    | endOfOptions =>
      rw [hkind] at hread hname
      obtain ⟨rfl, -⟩ := (readFrom_of_ended rfl).1 hread
      exact .inl ⟨true, by rw [hname]; rfl⟩
    | noDisplay =>
      rw [hkind] at hname
      rcases hname with rfl | rfl
      · exact .inr ⟨.noDisplay false, rest, rfl⟩
      · exact .inr ⟨.noDisplay true, rest, rfl⟩
    | input =>
      rw [hkind] at hread hname
      cases rest with
      | nil => cases hread
      | cons path rest =>
        rcases hname with rfl | rfl
        · exact .inr ⟨.input false path, rest, rfl⟩
        · exact .inr ⟨.input true path, rest, rfl⟩
    | output =>
      rw [hkind] at hread hname
      cases rest with
      | nil => cases hread
      | cons path rest =>
        rcases hname with rfl | rfl
        · exact .inr ⟨.output false path, rest, rfl⟩
        · exact .inr ⟨.output true path, rest, rfl⟩

/-- **A whole run.**  Arguments are read without a request for help just if they are groups that
can be entered one after the other. -/
theorem readFrom_eq_ok_iff {g h : Given} (hg : g.IsOpen) {arguments : List String} :
    readFrom g arguments = .ok h ∧ h.help = false ↔
      ∃ groups ended g', arguments = written groups ended ∧
        groups.foldlM Given.enter g = some g' ∧ h = { g' with ended := ended } := by
  constructor
  · rintro ⟨hread, hh⟩
    -- every group is at least one argument
    induction hlength : arguments.length using Nat.strong_induction_on generalizing g arguments with
    | h n ih =>
      rcases readFrom_step hg hh hread with ⟨ended, rfl⟩ | ⟨group, rest, rfl⟩
      · rw [readFrom_written_nil hg, Except.ok.injEq] at hread
        exact ⟨[], ended, g, rfl, rfl, hread.symm⟩
      · obtain ⟨g', henter, hrest⟩ := (readFrom_arguments_append hg group rest).1 hread
        have hshorter : rest.length < n := by
          have := List.length_pos_iff_ne_nil.2 group.arguments_ne_nil
          rw [← hlength, List.length_append]
          omega
        obtain ⟨groups, ended, g'', rfl, hgroups, hh'⟩ := ih _ hshorter (hg.enter henter) hrest rfl
        refine ⟨group :: groups, ended, g'', (written_cons group groups ended).symm, ?_, hh'⟩
        rw [List.foldlM_cons, henter]
        exact hgroups
  · rintro ⟨groups, ended, g', rfl, hgroups, rfl⟩
    induction groups generalizing g with
    | nil =>
      cases hgroups
      exact ⟨readFrom_written_nil hg ended, hg.help⟩
    | cons group groups ih =>
      rw [List.foldlM_cons, Option.bind_eq_bind, Option.bind_eq_some_iff] at hgroups
      obtain ⟨next, henter, hgroups⟩ := hgroups
      obtain ⟨hread, hh⟩ := ih (hg.enter henter) hgroups
      rw [written_cons]
      exact ⟨(readFrom_arguments_append hg group _).2 ⟨next, henter, hread⟩, hh⟩

/-! ## What groups give -/

/-- There is no room for a second path. -/
theorem toList_ne_cons_cons (given : Option String) (path other : String) (more : List String) :
    given.toList ≠ path :: other :: more := by
  cases given <;> simp

/-- What is known of a path grows by those that groups give. -/
theorem foldlM_enter_eq_some_iff {groups : List Group} {g h : Given} :
    groups.foldlM Given.enter g = some h ↔
      h.input.toList = g.input.toList ++ groups.filterMap Group.input? ∧
        h.output.toList = g.output.toList ++ groups.filterMap Group.output? ∧
        h.noDisplay = (g.noDisplay || groups.any Group.isNoDisplay) ∧
        h.help = g.help ∧ h.ended = g.ended := by
  induction groups generalizing g with
  | nil =>
    obtain ⟨input, output, noDisplay, help, ended⟩ := g
    obtain ⟨input', output', noDisplay', help', ended'⟩ := h
    have hpath : ∀ path other : Option String, path = other ↔ other.toList = path.toList := by
      intro path other
      cases path <;> cases other <;> simp [eq_comm]
    simp [hpath input, hpath output, eq_comm (a := noDisplay), eq_comm (a := help),
      eq_comm (a := ended)]
  | cons group groups ih =>
    rw [List.foldlM_cons]
    cases group with
    | noDisplay long =>
      simp [Given.enter, ih, List.filterMap_cons, Group.input?, Group.output?, Group.isNoDisplay]
    | input long path =>
      cases hinput : g.input with
      | none =>
        simp [Given.enter, hinput, ih, List.filterMap_cons, Group.input?, Group.output?,
          Group.isNoDisplay]
      | some taken =>
        simp [Given.enter, hinput, List.filterMap_cons, Group.input?, toList_ne_cons_cons]
    | output long path =>
      cases houtput : g.output with
      | none =>
        simp [Given.enter, houtput, ih, List.filterMap_cons, Group.input?, Group.output?,
          Group.isNoDisplay]
      | some taken =>
        simp [Given.enter, houtput, List.filterMap_cons, Group.output?, toList_ne_cons_cons]

theorem Given.isOpen_none : Given.none.IsOpen := ⟨rfl, rfl⟩

/-- Starting from nothing, groups can be entered if no path is given twice, and then they give what
they choose. -/
theorem foldlM_enter_none {groups : List Group} {o : Options} :
    (∃ g, groups.foldlM Given.enter .none = some g ∧ g.options = o) ↔
      AtMostOnce groups ∧ o = chosen groups := by
  have hhead : ∀ {path : Option String} {paths : List String}, path.toList = paths →
      paths.length ≤ 1 ∧ path = paths.head? := by
    rintro path paths rfl
    cases path <;> simp
  have htoList : ∀ {paths : List String}, paths.length ≤ 1 → paths.head?.toList = paths := by
    rintro (_ | ⟨path, _ | ⟨other, more⟩⟩) h <;> simp_all
  simp only [foldlM_enter_eq_some_iff, Given.none, Option.toList_none, List.nil_append,
    Bool.false_or]
  constructor
  · rintro ⟨g, ⟨hinput, houtput, hnoDisplay, -, -⟩, rfl⟩
    obtain ⟨hinputs, hinput⟩ := hhead hinput
    obtain ⟨houtputs, houtput⟩ := hhead houtput
    refine ⟨⟨hinputs, houtputs⟩, ?_⟩
    rw [Given.options, hinput, houtput, hnoDisplay, chosen]
  · rintro ⟨⟨hinputs, houtputs⟩, rfl⟩
    exact ⟨⟨_, _, _, false, false⟩, ⟨htoList hinputs, htoList houtputs, rfl, rfl, rfl⟩, rfl⟩

/-! ## The grammar -/

/-- Arguments are options just if they are groups in which no path is given twice. -/
theorem parse_eq_ok_iff {arguments : List String} {o : Options} :
    parse arguments = .ok o ↔
      ∃ groups ended, arguments = written groups ended ∧ AtMostOnce groups ∧ o = chosen groups := by
  have hparse : parse arguments = .ok o ↔
      ∃ g, (readFrom .none arguments = .ok g ∧ g.help = false) ∧ g.options = o := by
    rw [parse]
    cases readFrom .none arguments with
    | error fault => simp
    | ok g => cases hhelp : g.help <;> simp [hhelp]
  rw [hparse]
  simp only [readFrom_eq_ok_iff Given.isOpen_none, ← foldlM_enter_none]
  constructor
  · rintro ⟨_, ⟨groups, ended, g, rfl, hgroups, rfl⟩, rfl⟩
    exact ⟨groups, ended, rfl, g, hgroups, rfl⟩
  · rintro ⟨groups, ended, rfl, g, hgroups, rfl⟩
    exact ⟨_, ⟨groups, ended, g, rfl, hgroups, rfl⟩, rfl⟩

/-- The order of groups does not count where no path is given twice. -/
theorem atMostOnce_perm {groups others : List Group} (h : groups.Perm others)
    (hgroups : AtMostOnce groups) : AtMostOnce others ∧ chosen others = chosen groups := by
  obtain ⟨hinputs, houtputs⟩ := hgroups
  have hpaths : ∀ path? : Group → Option String, (groups.filterMap path?).length ≤ 1 →
      others.filterMap path? = groups.filterMap path? := by
    intro path? hlength
    have hperm := h.filterMap path?
    cases hpaths : groups.filterMap path? with
    | nil => rwa [hpaths, List.nil_perm] at hperm
    | cons path more =>
      rw [hpaths, List.length_cons] at hlength
      obtain rfl := List.length_eq_zero_iff.1 (show more.length = 0 by omega)
      rwa [hpaths, List.singleton_perm, eq_comm] at hperm
  rw [AtMostOnce, chosen, chosen, hpaths _ hinputs, hpaths _ houtputs]
  refine ⟨⟨hinputs, houtputs⟩, ?_⟩
  congr 1
  exact Bool.eq_iff_iff.2 (by simp [h.mem_iff])

/-- **Which arguments are accepted.**  Arguments are options for a run just if they are groups,
with two dashes behind the last one or without, and no path is given twice; what follows the name
of a path is the path, even if it is a name itself, a request for help or two dashes.  The options
have the paths that are given, or the default ones, and do not want the table if any group says
so.  Arguments are groups in no more than one way.  In another order the same groups are the same
options. -/
theorem parse_eq_ok_iff_written :
    (∀ (arguments : List String) (o : Options), parse arguments = .ok o ↔
      ∃ groups ended, arguments = written groups ended ∧ AtMostOnce groups ∧ o = chosen groups) ∧
    (∀ groups others ended ended', written groups ended = written others ended' →
      groups = others ∧ ended = ended') ∧
    ∀ groups others ended ended' o, groups.Perm others → parse (written groups ended) = .ok o →
      parse (written others ended') = .ok o := by
  refine ⟨fun _ _ => parse_eq_ok_iff, fun _ _ _ _ => written_inj, ?_⟩
  intro groups others ended ended' o hperm hparse
  obtain ⟨groups', ended'', hwritten, hgroups, rfl⟩ := parse_eq_ok_iff.1 hparse
  obtain ⟨rfl, -⟩ := written_inj hwritten
  obtain ⟨hothers, hchosen⟩ := atMostOnce_perm hperm hgroups
  exact parse_eq_ok_iff.2 ⟨others, ended', rfl, hothers, hchosen.symm⟩

/-- Paths that look like options, and the same groups the other way round. -/
theorem parse_eq_ok_iff_written_odd :
    let groups : List Group := [.output false "help", .noDisplay false, .input true "--"]
    written groups true = ["-o", "help", "-q", "--input", "--", "--"] ∧
      parse ["-o", "help", "-q", "--input", "--", "--"] = .ok ⟨"--", "help", true⟩ ∧
      parse ["--input", "--", "-q", "-o", "help"] = .ok ⟨"--", "help", true⟩ := by
  intro groups
  obtain ⟨haccepted, -, horder⟩ := parse_eq_ok_iff_written
  have hwritten : written groups true = ["-o", "help", "-q", "--input", "--", "--"] := by decide
  have hparse : parse (written groups true) = .ok ⟨"--", "help", true⟩ :=
    (haccepted _ _).2 ⟨groups, true, rfl, by decide, by decide⟩
  refine ⟨hwritten, by rwa [hwritten] at hparse, ?_⟩
  exact horder groups groups.reverse true false _ (List.reverse_perm groups).symm hparse

end RehashReport.Options
