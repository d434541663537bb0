import OpenRecord.Proofs.Command.Checking

namespace OpenRecord
namespace Command

/-!
# Runs that end with a code

A task that is carried out ends with one of the codes 0 and 1 or breaks off.  What breaks it off, as
long as everything it writes has somewhere to go, is one of four things: an event that the console
fails to show; a configuration file that is closed to the program or in which something else than a
table stands where the tables of settings are expected, for a task that needs settings; for a task that
expands texts an artifact that cannot be read again; and for an inspection a file that is closed or no
text.  The main statement says that these are all, for every console, every tree of files and every
task.  It says as well that a problem with the input never gives another code than 1: a path at which
nothing is, wrong settings, or a file that cannot be read, is no text or is no module.

The console is arbitrary.  Which events it fails at is not said here, except that it decides about each
of them on its own.

An expansion writes while it reads.  A file is therefore taken with the tree that it is read from,
which for all but the first file is what the files before it have left.
-/

open Files Files.Tree

/-! ## One file -/

section Turns

/-- A source file that comes up in a run, with the tree that it is read from. -/
abbrev Turn := Tree × Path

/-- The text of a source file, if there is one, is expanded: its artifacts can be read again. -/
def Turn.Returns (settings : Settings) (turn : Turn) : Prop :=
  ∀ code, readSource turn.1 turn.2 = .ok code →
    ∃ expansion, expand settings code (some turn.2.text) = .ok expansion

/-- A source file that cannot be read, is no text, or is no module. -/
def Turn.Unusable (turn : Turn) : Prop :=
  ∀ code, readSource turn.1 turn.2 = .ok code → Source.SourceFile.parse? code = none

variable {settings : Settings} {turn : Turn}

/-- What becomes of a file is told exactly if its artifacts can be read again. -/
theorem Turn.returns_iff :
    turn.Returns settings ↔ ∃ result, expandedText settings turn.1 turn.2 = .ok result := by
  unfold Turn.Returns expandedText
  cases readSource turn.1 turn.2 with
  | error fault => exact iff_of_true nofun ⟨none, rfl⟩
  | ok code =>
    cases expanded : expand settings code (some turn.2.text) with
    | error fault => simp [expanded]
    | ok expansion => simp [expanded]

/-- A run gets past a file that comes to something. -/
theorem Turn.returns_of_isOk (told : (Command.expandedText settings turn.1 turn.2).isOk = true) :
    turn.Returns settings := by
  rw [Turn.returns_iff]
  cases comes : Command.expandedText settings turn.1 turn.2 with
  | error breakage =>
    rw [comes] at told
    cases told
  | ok result => exact ⟨result, rfl⟩

theorem Turn.unusable_of_unread (unread : (readSource turn.1 turn.2).isOk = false) :
    turn.Unusable := by
  intro code read
  rw [read] at unread
  cases unread

theorem Turn.Unusable.expandedText (unusable : turn.Unusable) :
    expandedText settings turn.1 turn.2 = .ok none := by
  unfold Command.expandedText
  cases read : readSource turn.1 turn.2 with
  | error fault => rfl
  | ok code =>
    have failed : expand settings code (some turn.2.text) = .ok (.failed code [.unreadable]) := by
      unfold expand expandWithOutcomes
      rw [unusable code read]
    simp only [failed]
    rfl

/-- Whether each file that comes up comes to a text, up to the first at which the run breaks off. -/
def turnOutcomes (settings : Settings) : List Turn → Except Breakage (List Bool)
  | [] => .ok []
  | turn :: later =>
    match expandedText settings turn.1 turn.2 with
    | .error breakage => .error breakage
    | .ok result => (turnOutcomes settings later).map (result.isSome :: ·)

/-- Of a file it matters only whether it comes to a text. -/
theorem turnOutcomes_cons (settings : Settings) (turn : Turn) (later : List Turn) :
    turnOutcomes settings (turn :: later) =
      match (Command.expandedText settings turn.1 turn.2).map Option.isSome with
      | .error breakage => .error breakage
      | .ok success => (turnOutcomes settings later).map (success :: ·) := by
  rw [turnOutcomes]
  cases Command.expandedText settings turn.1 turn.2 <;> rfl

theorem outcomes_eq_turnOutcomes (settings : Settings) (tree : Tree) (inputs : List Path) :
    outcomes settings tree inputs = turnOutcomes settings (inputs.map (tree, ·)) := by
  induction inputs with
  | nil => rfl
  | cons input inputs ih =>
    rw [outcomes, ih, List.map_cons]
    rfl

/-- A run gets past all its files exactly if it gets past each of them. -/
theorem exists_turnOutcomes_iff {turns : List Turn} :
    (∃ successes, turnOutcomes settings turns = .ok successes) ↔
      ∀ turn ∈ turns, turn.Returns settings := by
  induction turns with
  | nil => exact iff_of_true ⟨[], rfl⟩ nofun
  | cons turn later ih =>
    rw [List.forall_mem_cons, ← ih, Turn.returns_iff, turnOutcomes]
    cases expandedText settings turn.1 turn.2 with
    | error breakage => simp
    | ok result => cases turnOutcomes settings later <;> simp [Except.map]

theorem not_all_of_turnOutcomes {turns : List Turn} {successes : List Bool}
    (past : turnOutcomes settings turns = .ok successes) (member : turn ∈ turns)
    (unusable : turn.Unusable) : successes.all id = false := by
  induction turns generalizing successes with
  | nil => cases member
  | cons first later ih =>
    rw [turnOutcomes] at past
    cases comes : expandedText settings first.1 first.2 with
    | error breakage =>
      rw [comes] at past
      cases past
    | ok result =>
      rw [comes] at past
      cases rest : turnOutcomes settings later with
      | error breakage =>
        rw [rest] at past
        cases past
      | ok others =>
        rw [rest] at past
        cases past
        rw [List.all_cons, Bool.and_eq_false_iff]
        rcases List.mem_cons.1 member with rfl | among
        · cases comes.symm.trans unusable.expandedText
          exact .inl rfl
        · exact .inr (ih rest among)

/-- Files decide how a run ends: with one of two codes exactly if it gets past every file, and not
well if one of them is unusable. -/
structure Decides (passes : Turn → Prop) (turns : List Turn) (ending : Ending) : Prop where
  coded : ending = .exit 0 ∨ ending = .exit 1 ↔ ∀ turn ∈ turns, passes turn
  unusable : ∀ turn ∈ turns, turn.Unusable → ∀ code, ending = .exit code → code = 1

/-- Files that come out one after the other decide how a run ends. -/
theorem decides_endingOf (settings : Settings) (turns : List Turn) :
    Decides (Turn.Returns settings) turns (endingOf (turnOutcomes settings turns)) := by
  have passed : (∃ successes, turnOutcomes settings turns = .ok successes) ↔
      ∀ turn ∈ turns, turn.Returns settings := exists_turnOutcomes_iff
  cases past : turnOutcomes settings turns with
  | error breakage =>
    rw [past] at passed
    exact ⟨iff_of_false (by simp [endingOf]) (mt passed.2 nofun), nofun⟩
  | ok successes =>
    refine ⟨iff_of_true ?_ (passed.1 ⟨successes, past⟩), ?_⟩
    · cases all : successes.all id <;> simp [endingOf, all]
    · intro turn member unusable code ended
      have failed := not_all_of_turnOutcomes past member unusable
      simp only [endingOf, failed, Bool.false_eq_true, if_false, Ending.exit.injEq] at ended
      exact ended.symm

end Turns

/-! ## One file after another -/

/-- The files of an expansion in the order in which they come up.  Each is read from the tree that
those before it have left. -/
def expandTurns (settings : Settings) (input output : Path) : Tree → List (List Text) → List Turn
  | _, [] => []
  | tree, names :: later =>
    (tree, input.descend names) ::
      expandTurns settings input output
        (expandFile settings tree (input.descend names) (some (output.descend names))
          (Text.join ['/'] names)).tree later

section Growing

variable {tree after : Tree} {path : Path} {made written : List (List Text)}

theorem hasFile_iff_of_reaches (reaches : tree.Reaches path) :
    tree.hasFile path = true ↔ tree.entryAt (tree.placeOf path) ≠ some .directory := by
  have located := tree.locate_eq_ok_iff.2 ⟨rfl, reaches.through⟩
  have found := reaches.found
  unfold hasFile holds hasDirectory entry?
  rw [located]
  cases here : tree.entryAt (tree.placeOf path) with
  | none => exact absurd here found
  | some entry => cases entry <;> simp [here]

/-- While a tree grows and something stands wherever it is written, what is reached stays reached, and
no directory becomes a file. -/
theorem reaches_of_grows (reaches : tree.Reaches path) (growth : Extends tree after made written)
    (filled : ∀ place ∈ written, after.entryAt place ≠ none) :
    after.Reaches path ∧ (after.hasFile path = true → tree.hasFile path = true) := by
  have still : after.Reaches path := by
    refine ⟨?_, ?_⟩
    · rw [growth.wayOf]
      exact fun passed member => growth.stays _ (reaches.through passed member)
    · rw [growth.placeOf]
      by_cases replaced : tree.placeOf path ∈ written
      · exact filled _ replaced
      · have found := reaches.found
        cases here : tree.entryAt (tree.placeOf path) with
        | none => exact absurd here found
        | some entry =>
          by_cases directory : entry = .directory
          · rw [directory] at here
            simp [growth.stays _ here]
          · simp [(growth.files _ _ directory replaced).2 here]
  refine ⟨still, ?_⟩
  rw [hasFile_iff_of_reaches reaches, hasFile_iff_of_reaches still, growth.placeOf]
  exact mt (growth.stays _)

end Growing

section Expanding

variable {settings : Settings} {tree : Tree} {input output : Path} {listed : List (List Text)}

/-- Source files below a path each of which is there and, if it is a file, has somewhere to go, no
destination on the way of another one. -/
structure Prepared (tree : Tree) (input output : Path) (listed : List (List Text)) : Prop where
  reaches : ∀ names ∈ listed, tree.Reaches (input.descend names)
  writable : ∀ names ∈ listed, tree.hasFile (input.descend names) = true →
    tree.CanWrite (output.descend names)
  clear : ∀ names ∈ listed, tree.hasFile (input.descend names) = true →
    ∀ other ∈ listed, tree.placeOf (output.descend names) ∉ tree.wayOf (output.descend other)

/-- What a search in a proper tree finds is prepared if its files have somewhere to go. -/
theorem prepared_of_writable (proper : tree.IsProper) {ending : Text}
    (writable : ∀ names ∈ tree.search input ending,
      tree.hasFile (input.descend names) = true → tree.CanWrite (output.descend names)) :
    Prepared tree input output (tree.search input ending) where
  reaches names found := (proper.reaches_of_mem_search found).2
  writable := writable
  clear names first file other second onWay := by
    rw [wayOf_descend, List.mem_append] at onWay
    rcases onWay with onWay | below
    · refine (writable names first file).ahead ?_
      rw [wayOf_descend]
      exact List.mem_append_left _ onWay
    · rw [placeOf_descend _ _ (proper.reaches_of_mem_search first).1] at below
      exact proper.not_mem_way_of_hasFile first second file _ below

/-- Once the first file has been dealt with, the others are prepared still, wherever it was
written. -/
theorem Prepared.tail {names : List Text} {report : FileReport}
    (prepared : Prepared tree input output (names :: listed))
    (reported : (expandFile settings tree (input.descend names) (some (output.descend names))
      (Text.join ['/'] names)).result = .ok report) :
    Prepared (expandFile settings tree (input.descend names) (some (output.descend names))
      (Text.join ['/'] names)).tree input output listed := by
  rcases extends_expandFile reported with ⟨growth, contents, -⟩
  revert growth contents
  generalize (expandFile settings tree (input.descend names) (some (output.descend names))
    (Text.join ['/'] names)).tree = after
  intro growth contents
  have filled : ∀ place ∈ writtenFor settings tree (input.descend names) (output.descend names),
      after.entryAt place ≠ none := by
    intro place target
    rcases mem_writtenFor.1 target with ⟨expanded, rfl⟩
    rcases isExpanded_eq_true_iff.1 expanded with ⟨result, comes⟩
    simp [contents result (expandedText_eq_some_iff.2 comes)]
  have first := List.mem_cons_self (a := names) (l := listed)
  have there : ∀ {later}, later ∈ listed → later ∈ names :: listed := List.mem_cons_of_mem _
  have keeps := fun later (member : later ∈ listed) =>
    reaches_of_grows (prepared.reaches later (there member)) growth filled
  refine ⟨fun later member => (keeps later member).1, ?_, ?_⟩
  · intro later member file
    have before := (keeps later member).2 file
    refine (prepared.writable later (there member) before).of_extends growth ?_ ?_
    · exact fun made => prepared.clear later (there member) before names first
        (mem_madeFor.1 made).2
    · rintro passed onWay target
      rcases mem_writtenFor.1 target with ⟨comes, rfl⟩
      exact prepared.clear names first (hasFile_of_isExpanded comes) later (there member) onWay
  · intro later member file other between
    rw [growth.placeOf, growth.wayOf]
    exact prepared.clear later (there member) ((keeps later member).2 file) other (there between)

theorem map_success_expandTurns (prepared : Prepared tree input output listed) :
    (expandFiles settings input output tree listed).result.map (List.map FileReport.success) =
      turnOutcomes settings (expandTurns settings input output tree listed) := by
  induction listed generalizing tree with
  | nil => rfl
  | cons names listed ih =>
    have first := map_success_expandFile (Text.join ['/'] names)
      fun comes : isExpanded settings tree (input.descend names) = true =>
        prepared.writable names List.mem_cons_self (hasFile_of_isExpanded comes)
    rw [expandTurns, turnOutcomes_cons, ← first, expandFiles]
    cases reported : (expandFile settings tree (input.descend names)
        (some (output.descend names)) (Text.join ['/'] names)).result with
    | error breakage => rfl
    | ok report =>
      simp only [← ih (prepared.tail reported)]
      generalize (expandFiles settings input output _ listed).result = rest
      cases rest <;> rfl

theorem map_success_printFile (settings : Settings) (tree : Tree) (input : Path) (name : Text) :
    (expandFile settings tree input none name).result.map FileReport.success =
      (expandedText settings tree input).map Option.isSome := by
  unfold expandFile expandedText expand
  cases readSource tree input with
  | error fault => rfl
  | ok code =>
    simp only
    cases (expandWithOutcomes settings code (some input.text)).2 with
    | error fault => rfl
    | ok expansion =>
      have reported : FileReport.success ⟨name, 0, expansion.errors⟩ = expansion.success := by
        simp [FileReport.success, Expansion.errors, Expansion.success]
      cases well : expansion.success with
      | false => simp [Except.map, reported, well]
      | true => simp [Except.map, FileReport.success, well]

end Expanding

/-! ## Configuration -/

def isOther : Option Toml.Value → Bool
  | none => false
  | some (.table _) => false
  | some _ => true

/-- Something else than a table stands in a document where the table of tools, or in that the table
of settings, is expected. -/
def Misplaces (document : Toml.Table) : Prop :=
  isOther (document.get? Configuration.tableNames.1) = true ∨
    ∃ tools, document.get? Configuration.tableNames.1 = some (.table tools) ∧
      isOther (Toml.Table.get? tools Configuration.tableNames.2) = true

/-- Bytes are a configuration file that misplaces a table. -/
def HoldMisplaced (content : List UInt8) : Prop :=
  ∃ text document, Text.decode content = .ok text ∧ Toml.parse? text = some document ∧
    Misplaces document

/-- The configuration file of a directory is closed to the program, or misplaces a table. -/
def StopsAt (tree : Tree) (place : List Text) : Prop :=
  tree.entryAt (place ++ [Configuration.fileName]) = some .closed ∨
    ∃ content, tree.entryAt (place ++ [Configuration.fileName]) = some (.file content) ∧
      HoldMisplaced content

def StopsRuns (tree : Tree) (start : Path) : Prop :=
  ∃ place, tree.nearest start Configuration.fileName = some place ∧ StopsAt tree place

/-- Something that is missing breaks a run off. -/
def BreaksOff {α : Type} (found : Except ConfigurationFault α) : Prop :=
  ∃ fault, found = .error fault ∧ breaksOff fault = true

theorem breaksOff_settingsTable_iff {document : Toml.Table} :
    BreaksOff (Configuration.settingsTable document) ↔ Misplaces document := by
  unfold BreaksOff Configuration.settingsTable Misplaces
  cases document.get? Configuration.tableNames.1 with
  | none => simp [isOther]
  | some value =>
    cases value with
    | table tools =>
      simp only [Option.some.injEq, Toml.Value.table.injEq, exists_eq_left', isOther,
        Bool.false_eq_true, false_or]
      cases Toml.Table.get? tools Configuration.tableNames.2 with
      | none => simp
      | some value => cases value <;> simp [breaksOff]
    | _ => simp [isOther, breaksOff]

/-- Bytes give no values, so that a run breaks off, exactly if they misplace a table. -/
theorem breaksOff_readValues_iff {content : List UInt8} :
    BreaksOff (Configuration.readValues content) ↔ HoldMisplaced content := by
  unfold Configuration.readValues HoldMisplaced
  cases Text.decode content with
  | error fault => simp [BreaksOff, breaksOff]
  | ok text =>
    simp only [Except.ok.injEq, exists_and_left, exists_eq_left']
    cases Toml.parse? text with
    | none => simp [BreaksOff, breaksOff]
    | some document =>
      simp only [Option.some.injEq, exists_eq_left', ← breaksOff_settingsTable_iff]
      cases Configuration.settingsTable document <;> simp [BreaksOff]

/-- The configuration file of a directory that has one gives no values, so that a run breaks off,
exactly if it stops runs. -/
theorem breaksOff_valuesIn_iff {tree : Tree} {place : List Text}
    (there : tree.hasFileAt (place ++ [Configuration.fileName]) = true) :
    BreaksOff (Configuration.valuesIn tree place) ↔ StopsAt tree place := by
  unfold Configuration.valuesIn StopsAt
  unfold hasFileAt at there
  unfold contentAt
  cases here : tree.entryAt (place ++ [Configuration.fileName]) with
  | none => simp [here] at there
  | some entry =>
    cases entry with
    | directory => simp [here] at there
    | closed => simp [BreaksOff, breaksOff]
    | file content => simp [breaksOff_readValues_iff]

/-- Settings are missing, so that a run breaks off, exactly if the nearest configuration file stops
runs. -/
theorem breaksOff_load_iff {tree : Tree} {start : Path} {given : SettingValues} :
    BreaksOff (Configuration.load tree start given) ↔ StopsRuns tree start := by
  unfold Configuration.load Configuration.find StopsRuns
  cases found : tree.nearest start Configuration.fileName with
  | none =>
    dsimp only
    cases Settings.check (given.orElse .empty) <;> simp [BreaksOff, breaksOff]
  | some place =>
    simp only [Option.some.injEq, exists_eq_left',
      ← breaksOff_valuesIn_iff (hasFileAt_of_nearest found)]
    cases Configuration.valuesIn tree place with
    | error fault => simp [BreaksOff, Except.map]
    | ok values =>
      simp only [Except.map]
      cases Settings.check (given.orElse values) <;> simp [BreaksOff, breaksOff]

/-! ## A whole task -/

namespace Task

def input : Task → Path
  | .expand input _ _ _ => input
  | .check input _ => input
  | .inspect input _ => input

/-- The settings of a task.  Inspecting needs none and has the default ones. -/
def settings (tree : Tree) : Task → Except ConfigurationFault Settings
  | .expand input _ companionPrefix withoutImports =>
    (Configuration.load tree (configurationStart tree input)
      (givenValues companionPrefix withoutImports)).map (·.1)
  | .check input companionPrefix =>
    (Configuration.load tree (configurationStart tree input)
      (givenValues companionPrefix false)).map (·.1)
  | .inspect _ _ => .ok .default

/-- The files that a task reads, in order.  A directory that has nowhere to go is not read. -/
def turns (tree : Tree) (settings : Settings) : Task → List Turn
  | .expand input output _ _ =>
    if tree.hasFile input then [(tree, input)]
    else
      match output with
      | none => []
      | some output => expandTurns settings input output tree (tree.search input sourceEnding)
  | .check input _ => (concerned tree input).map fun names => (tree, input.descend names)
  | .inspect input _ => [(tree, input)]

def Finds (tree : Tree) : Task → Prop
  | .inspect input _ => tree.hasFile input = true
  | task => tree.holds task.input = true

/-- Every file that a task writes has somewhere to go. -/
def CanDeliver (tree : Tree) : Task → Prop
  | .expand input (some output) _ _ =>
    ∀ names ∈ concerned tree input, tree.hasFile (input.descend names) = true →
      tree.CanWrite (output.descend names)
  | _ => True

/-- A task gets past a file: inspecting one needs its text, the other tasks read the artifacts of the
expanded text again. -/
def Passes (settings : Settings) (turn : Turn) : Task → Prop
  | .inspect _ _ => ∃ code, readSource turn.1 turn.2 = .ok code
  | _ => turn.Returns settings

/-- The configuration file of a task that needs settings stops it. -/
def IsStopped (tree : Tree) : Task → Prop
  | .inspect _ _ => False
  | task => StopsRuns tree (configurationStart tree task.input)

structure GetsPast (tree : Tree) (task : Task) : Prop where
  configured : ¬ task.IsStopped tree
  files : ∀ settings, task.settings tree = .ok settings →
    ∀ turn ∈ task.turns tree settings, task.Passes settings turn

/-- Something is wrong with what a task is given: it is not there, its settings are wrong, or one of
its files is unusable. -/
def HasProblem (tree : Tree) (task : Task) : Prop :=
  ¬ task.Finds tree ∨ (∃ fault, task.settings tree = .error fault) ∨
    ∃ settings, task.settings tree = .ok settings ∧ ∃ turn ∈ task.turns tree settings, turn.Unusable

end Task

/-! ## How tasks end -/

section Ending

variable {settings : Settings} {tree : Tree} {input : Path}

theorem ending_runExpandFile {output : Option Path}
    (told : (expandFile settings tree input output input.name).result.map FileReport.success =
      (expandedText settings tree input).map Option.isSome) :
    (runExpandFile settings tree input output).ending =
      endingOf (turnOutcomes settings [(tree, input)]) := by
  rw [turnOutcomes_cons, ← told, runExpandFile]
  cases (expandFile settings tree input output input.name).result with
  | error breakage => rfl
  | ok report =>
    simp only [Except.map, turnOutcomes, endingOf]
    cases report.success <;> simp [Run.ended]

/-- An expansion of a directory ends as its files come out. -/
theorem ending_runExpandDirectory {output : Path}
    (prepared : Prepared tree input output (tree.search input sourceEnding)) :
    (runExpandDirectory settings tree input (some output)).ending =
      endingOf (turnOutcomes settings
        (expandTurns settings input output tree (tree.search input sourceEnding))) := by
  rw [← map_success_expandTurns prepared]
  simp only [runExpandDirectory]
  cases tree.search input sourceEnding with
  | nil => rfl
  | cons first later =>
    simp only
    generalize expandFiles settings input output tree (first :: later) = done
    cases done.result with
    | error breakage => rfl
    | ok reports => exact congrArg Ending.exit (exitCode_eq reports)

theorem decides_runExpand {output : Option Path} {companionPrefix : Option Text}
    {withoutImports : Bool} (proper : tree.IsProper)
    (delivers : (Task.expand input output companionPrefix withoutImports).CanDeliver tree) :
    Decides (Turn.Returns settings)
      ((Task.expand input output companionPrefix withoutImports).turns tree settings)
      (if tree.hasFile input then runExpandFile settings tree input output
        else runExpandDirectory settings tree input output).ending := by
  cases single : tree.hasFile input with
  | true =>
    simp only [Task.turns, single, if_true]
    rw [ending_runExpandFile]
    · exact decides_endingOf settings _
    · cases output with
      | none => exact map_success_printFile settings tree input input.name
      | some output =>
        have whole : ∀ path : Path, path.descend [] = path := fun path => by simp [Path.descend]
        simp only [Task.CanDeliver, concerned, single, if_true, List.forall_mem_singleton, whole,
          true_implies] at delivers
        exact map_success_expandFile input.name fun _ => delivers
  | false =>
    simp only [Task.turns, single, Bool.false_eq_true, if_false]
    cases output with
    | none => exact ⟨iff_of_true (.inr rfl) (List.forall_mem_nil _), List.forall_mem_nil _⟩
    | some output =>
      simp only [Task.CanDeliver, concerned, single, Bool.false_eq_true, if_false] at delivers
      rw [ending_runExpandDirectory (prepared_of_writable proper delivers)]
      exact decides_endingOf settings _

theorem decides_runCheck {companionPrefix : Option Text} {found : Option (List Text)}
    (present : tree.holds input = true)
    (loaded : Configuration.load tree (configurationStart tree input)
      (givenValues companionPrefix false) = .ok (settings, found)) :
    Decides (Turn.Returns settings) ((Task.check input companionPrefix).turns tree settings)
      (runCheck tree input companionPrefix).ending := by
  rw [ending_runCheck present loaded, outcomes_eq_turnOutcomes, List.map_map]
  exact decides_endingOf settings _

theorem decides_runInspect {asJson : Bool} (present : tree.hasFile input = true) :
    Decides ((Task.inspect input asJson).Passes settings)
      ((Task.inspect input asJson).turns tree settings) (runInspect tree input asJson).ending := by
  unfold runInspect
  simp only [present, Bool.not_true, Bool.false_eq_true, if_false, Task.turns]
  cases read : readSource tree input with
  | error fault =>
    refine ⟨iff_of_false (by simp) fun passes => ?_, fun _ _ _ => nofun⟩
    rcases passes _ (List.mem_singleton_self _) with ⟨code, known⟩
    cases read.symm.trans known
  | ok code =>
    constructor
    case coded =>
      refine iff_of_true ?_ (List.forall_mem_singleton.2 ⟨code, read⟩)
      cases well : (OpenRecord.inspect code (some input.text)).success <;>
        simp [Run.ended, well]
    case unusable =>
      rw [List.forall_mem_singleton]
      intro unusable number ended
      have failed : (OpenRecord.inspect code (some input.text)).success = false := by
        unfold OpenRecord.inspect
        rw [unusable _ read]
        rfl
      simp [Run.ended, failed] at ended
      exact ended.symm

/-- How a run ends that has no settings. -/
def endingOfFault (fault : ConfigurationFault) : Ending :=
  if breaksOff fault then .broken (.configuration fault) else .exit 1

theorem ending_withSettings {given : SettingValues} {next : Settings → Run}
    {fault : ConfigurationFault}
    (failed : Configuration.load tree (configurationStart tree input) given = .error fault) :
    (withSettings tree input given next).ending = endingOfFault fault := by
  unfold withSettings endingOfFault
  rw [failed]
  dsimp only
  split <;> rfl

/-- How a run ends is accounted for by its task: it ends with one of two codes exactly if the task
gets past what it finds, and not well if something is wrong with it. -/
structure Task.Accounts (tree : Tree) (task : Task) (ending : Ending) : Prop where
  coded : ending = .exit 0 ∨ ending = .exit 1 ↔ (task.Finds tree → task.GetsPast tree)
  problem : task.HasProblem tree → ∀ code, ending = .exit code → code = 1

variable {task : Task} {ending : Ending}

theorem Task.accounts_of_not_finds (absent : ¬ task.Finds tree) (refused : ending = .exit 1) :
    task.Accounts tree ending where
  coded := iff_of_true (.inr refused) fun finds => absurd finds absent
  problem _ _ ended := (Ending.exit.inj (refused.symm.trans ended)).symm

theorem Task.accounts_of_settings (finds : task.Finds tree) (configured : ¬ task.IsStopped tree)
    (settled : task.settings tree = .ok settings)
    (decided : Decides (task.Passes settings) (task.turns tree settings) ending) :
    task.Accounts tree ending where
  coded := by
    rw [decided.coded]
    refine ⟨fun all _ => ⟨configured, fun other same => ?_⟩, fun past => (past finds).files _ settled⟩
    cases settled.symm.trans same
    exact all
  problem := by
    rintro (absent | ⟨fault, failed⟩ | ⟨other, same, turn, member, unusable⟩)
    · exact absurd finds absent
    · cases settled.symm.trans failed
    · cases settled.symm.trans same
      exact decided.unusable turn member unusable

/-- A task that finds what it is given is accounted for by the configuration, and then by its
files. -/
theorem Task.accounts_of_load {given : SettingValues} (finds : task.Finds tree)
    (needs : task.IsStopped tree ↔ StopsRuns tree (configurationStart tree task.input))
    (settled : task.settings tree =
      (Configuration.load tree (configurationStart tree task.input) given).map (·.1))
    (failed : ∀ fault, Configuration.load tree (configurationStart tree task.input) given =
      .error fault → ending = endingOfFault fault)
    (decided : ∀ settings found,
      Configuration.load tree (configurationStart tree task.input) given = .ok (settings, found) →
        Decides (task.Passes settings) (task.turns tree settings) ending) :
    task.Accounts tree ending := by
  rw [← @breaksOff_load_iff _ _ given] at needs
  cases loaded : Configuration.load tree (configurationStart tree task.input) given with
  | ok found =>
    rw [loaded] at settled needs
    exact Task.accounts_of_settings finds (mt needs.1 (by simp [BreaksOff])) settled
      (decided found.1 found.2 loaded)
  | error fault =>
    rw [loaded] at settled needs
    rw [failed fault loaded, endingOfFault]
    cases stops : breaksOff fault with
    | true =>
      exact ⟨iff_of_false (by simp) fun past =>
        (past finds).configured (needs.2 ⟨fault, rfl, stops⟩), nofun⟩
    | false =>
      refine ⟨iff_of_true (.inr rfl) fun _ => ⟨?_, ?_⟩, fun _ _ ended => ?_⟩
      · rw [needs]
        rintro ⟨other, same, breaks⟩
        cases same
        cases stops.symm.trans breaks
      · intro settings known
        cases settled.symm.trans known
      · exact (Ending.exit.inj ended).symm

end Ending

/-! ## Tasks -/

section Tasks

variable {tree : Tree} {input : Path} {companionPrefix : Option Text}

theorem accounts_runExpand {output : Option Path} {withoutImports : Bool} (proper : tree.IsProper)
    (delivers : (Task.expand input output companionPrefix withoutImports).CanDeliver tree) :
    (Task.expand input output companionPrefix withoutImports).Accounts tree
      (runExpand tree input output companionPrefix withoutImports).ending := by
  unfold runExpand
  cases present : tree.holds input with
  | false => exact Task.accounts_of_not_finds (by simp [Task.Finds, Task.input, present]) rfl
  | true =>
    refine Task.accounts_of_load present .rfl rfl (fun _ => ending_withSettings) ?_
    intro settings found known
    have loaded : Configuration.load tree (configurationStart tree input)
      (givenValues companionPrefix withoutImports) = .ok (settings, found) := known
    simp only [Bool.not_true, Bool.false_eq_true, if_false, withSettings, loaded]
    exact decides_runExpand proper delivers

theorem accounts_runCheck : (Task.check input companionPrefix).Accounts tree
    (runCheck tree input companionPrefix).ending := by
  cases present : tree.holds input with
  | false =>
    refine Task.accounts_of_not_finds (by simp [Task.Finds, Task.input, present]) ?_
    simp [runCheck, present, Run.refused, Run.ended]
  | true =>
    refine Task.accounts_of_load present .rfl rfl (fun fault failed => ?_)
      fun settings found => decides_runCheck present
    simp only [runCheck, present, Bool.not_true, Bool.false_eq_true, if_false]
    exact ending_withSettings failed

theorem accounts_runInspect {asJson : Bool} : (Task.inspect input asJson).Accounts tree
    (runInspect tree input asJson).ending := by
  cases present : tree.hasFile input with
  | false =>
    refine Task.accounts_of_not_finds (by simp [Task.Finds, present]) ?_
    simp [runInspect, present, Run.refused, Run.ended]
  | true => exact Task.accounts_of_settings present id rfl (decides_runInspect present)

/-- A task that is carried out in a proper tree, where what it writes has somewhere to go, ends with
one of its two codes by itself exactly if it gets past its configuration and its files. -/
theorem Task.accounts_ending {task : Task} (proper : tree.IsProper)
    (delivers : task.CanDeliver tree) : task.Accounts tree (task.run tree).ending := by
  cases task with
  | expand input output companionPrefix withoutImports => exact accounts_runExpand proper delivers
  | check input companionPrefix => exact accounts_runCheck
  | inspect input asJson => exact accounts_runInspect

end Tasks

/-! ## Consoles -/

theorem Run.endingOn_eq_ok_iff {console : Console} {run : Run} {ending : Ending} :
    run.endingOn console = .ok ending ↔
      (∀ event ∈ run.events, console.shows event = true) ∧ run.ending = ending := by
  unfold Run.endingOn
  cases failed : run.events.find? fun event => !console.shows event with
  | none =>
    have shown : ∀ event ∈ run.events, console.shows event = true := by
      simpa using List.find?_eq_none.1 failed
    exact (Except.ok.injEq _ _).to_iff.trans (and_iff_right shown).symm
  | some event =>
    refine iff_of_false nofun fun ⟨shown, _⟩ => ?_
    have missed := List.find?_some failed
    rw [shown event (List.mem_of_find?_eq_some failed)] at missed
    cases missed

/-- How a run ends on a console is accounted for by its task: it ends with one of two codes exactly if
the console shows each of its events and the task gets past what it finds, and not well if something is
wrong with what it is given. -/
structure Task.AccountsOn (console : Console) (tree : Tree) (task : Task) (run : Run) : Prop where
  coded : run.endingOn console = .ok (.exit 0) ∨ run.endingOn console = .ok (.exit 1) ↔
    (∀ event ∈ run.events, console.shows event = true) ∧ (task.Finds tree → task.GetsPast tree)
  problem : task.HasProblem tree → ∀ code, run.endingOn console = .ok (.exit code) → code = 1

/-- A task that is carried out in a proper tree, where what it writes has somewhere to go, ends with
one of its two codes exactly if the console shows whatever comes up and the task gets past its
configuration and its files; and if its input is missing, its configuration is wrong or one of its files
is unusable, it does not end well. -/
theorem accounts_run {tree : Tree} {task : Task} (console : Console) (proper : tree.IsProper)
    (delivers : task.CanDeliver tree) : task.AccountsOn console tree (task.run tree) where
  coded := by
    simp only [Run.endingOn_eq_ok_iff, ← and_or_left]
    exact and_congr_right fun _ => (Task.accounts_ending proper delivers).coded
  problem wrong code ended :=
    (Task.accounts_ending proper delivers).problem wrong code (Run.endingOn_eq_ok_iff.1 ended).2

/-- A directory with a record that is refused, a file that is no text and one that is closed; beside it a
source file below a configuration file in which a number stands for the table of tools, and one with a
record whose type holds a tag. -/
def faultyFiles : Tree where
  workingDirectory := []
  entries := [
    (["in"], .directory),
    (["in", "a.py"], .file (Text.encode "@destructure\nclass U: y\n")),
    (["in", "b.py"], .file [255]),
    (["in", "c.py"], .closed),
    (["top"], .directory),
    (["top", "c.py"], .file (Text.encode "x = 1\n")),
    (["top", "pyproject.toml"], .file (Text.encode "tool = 1\n")),
    (["t.py"], .file (Text.encode "@destructure\nclass P: x: Literal['[/a]']\n"))]

/-- The texts of an event in which a console looks for tags. -/
def Event.texts : Event → List Text
  | .message _ text => [text]
  | .table content =>
    content.title :: content.caption.toList ++ content.columns ++ content.rows.flatten
  | .line text => [text]
  | .output _ => []

/-- Whether a text holds a certain closing tag. -/
def holdsTag (text : Text) : Bool :=
  (Text.split '[' text).tail.any ("/a]".toList.isPrefixOf ·)

/-- A console that fails at this tag, of which it knows that nothing opens it. -/
def taggedConsole : Console where
  shows event := !event.texts.any holdsTag

def faultyExpansion : Task :=
  .expand ⟨[], ["in"]⟩ (some ⟨[], ["out"]⟩) none false

/-- The check of the file below the misplaced table. -/
def misplacedCheck : Task :=
  .check ⟨[], ["top", "c.py"]⟩ none

def closedInspection : Task :=
  .inspect ⟨[], ["in", "c.py"]⟩ false

/-- The inspection of the record with the tag. -/
def taggedInspection : Task :=
  .inspect ⟨[], ["t.py"]⟩ false

/-- What is asked of the files in the end is evaluated at once: they make a proper tree, the expansion
finds room for what it writes and tells of nothing that the console fails at, each of its files comes to
something and one of them is no text; the check finds its file, and a misplaced table; the closed file
is there and not read; and the inspection of the record with the tag tells of it. -/
theorem faultyFiles_evaluated :
    faultyFiles.IsProper ∧ faultyExpansion.CanDeliver faultyFiles ∧
      (faultyExpansion.run faultyFiles).events.all taggedConsole.shows = true ∧
      (faultyExpansion.turns faultyFiles .default).all
        (fun turn => (expandedText .default turn.1 turn.2).isOk) = true ∧
      (faultyExpansion.turns faultyFiles .default).any
        (fun turn => !(readSource turn.1 turn.2).isOk) = true ∧
      faultyFiles.holds misplacedCheck.input = true ∧
      (match Configuration.load faultyFiles (configurationStart faultyFiles misplacedCheck.input)
          (givenValues none false) with
        | .error fault => breaksOff fault
        | .ok _ => false) = true ∧
      faultyFiles.hasFile closedInspection.input = true ∧
      (readSource faultyFiles closedInspection.input).isOk = false ∧
      (taggedInspection.run faultyFiles).events.all taggedConsole.shows = false := by
  unfold faultyExpansion Task.CanDeliver
  decide +kernel

/-- The directory has the default settings, since no configuration file is near. -/
theorem load_faultyExpansion : Configuration.load faultyFiles
    (configurationStart faultyFiles faultyExpansion.input) (givenValues none false) =
      .ok (.default, none) := by
  rfl

theorem faultyExpansion_getsPast : faultyExpansion.GetsPast faultyFiles where
  configured := by
    refine mt (@breaksOff_load_iff _ _ (givenValues none false)).2 ?_
    rintro ⟨fault, failed, -⟩
    cases load_faultyExpansion.symm.trans failed
  files settings settled turn member := by
    have known : Except.ok Settings.default = Except.ok settings := settled
    cases known
    rcases faultyFiles_evaluated with ⟨-, -, -, told, -⟩
    exact Turn.returns_of_isOk (List.all_eq_true.1 told turn member)

theorem faultyExpansion_hasProblem : faultyExpansion.HasProblem faultyFiles := by
  rcases faultyFiles_evaluated with ⟨-, -, -, -, unread, -⟩
  rcases List.any_eq_true.1 unread with ⟨turn, member, failed⟩
  exact .inr (.inr ⟨.default, rfl, turn, member, Turn.unusable_of_unread (by simpa using failed)⟩)

theorem misplacedCheck_isStopped : misplacedCheck.IsStopped faultyFiles := by
  rcases faultyFiles_evaluated with ⟨-, -, -, -, -, -, misplaced, -⟩
  refine (@breaksOff_load_iff _ _ (givenValues none false)).1 ?_
  split at misplaced
  case h_1 fault refused => exact ⟨fault, refused, misplaced⟩
  case h_2 => cases misplaced

/-- The directory is expanded to a code, and not well.  The file below the misplaced table is not
checked to any, and neither the closed file nor the record with the tag is inspected to one. -/
theorem faultyFiles_accounts :
    faultyFiles.IsProper ∧ faultyExpansion.CanDeliver faultyFiles ∧
      (faultyExpansion.run faultyFiles).endingOn taggedConsole = .ok (.exit 1) ∧
      ∀ task ∈ [misplacedCheck, closedInspection, taggedInspection],
        ¬ ((task.run faultyFiles).endingOn taggedConsole = .ok (.exit 0) ∨
          (task.run faultyFiles).endingOn taggedConsole = .ok (.exit 1)) := by
  rcases faultyFiles_evaluated with
    ⟨proper, delivers, shown, -, -, present, -, closed, unread, tagged⟩
  have accounts := accounts_run taggedConsole proper delivers
  have ofOther := fun task delivers => (@accounts_run faultyFiles task taggedConsole proper delivers)
  refine ⟨proper, delivers, ?_, ?_⟩
  · rcases accounts.coded.2 ⟨List.all_eq_true.1 shown, fun _ => faultyExpansion_getsPast⟩ with
      ended | ended
    · cases accounts.problem faultyExpansion_hasProblem 0 ended
    · exact ended
  · simp only [List.forall_mem_cons, List.not_mem_nil, false_implies, implies_true, and_true]
    refine ⟨?_, ?_, ?_⟩
    · rw [(ofOther misplacedCheck trivial).coded]
      exact fun past => (past.2 present).configured misplacedCheck_isStopped
    · rw [(ofOther closedInspection trivial).coded]
      rintro ⟨-, past⟩
      rcases (past closed).files .default rfl _ (List.mem_singleton_self _) with ⟨code, read⟩
      rw [show readSource faultyFiles closedInspection.input = .ok code from read] at unread
      cases unread
    · rw [(ofOther taggedInspection trivial).coded]
      rintro ⟨events, -⟩
      rw [List.all_eq_true.2 events] at tagged
      cases tagged

end Command
end OpenRecord
