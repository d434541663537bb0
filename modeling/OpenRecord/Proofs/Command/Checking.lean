import OpenRecord.Proofs.Command.SourceFiles

namespace OpenRecord
namespace Command

/-!
# Checking foretells expanding

A check expands every file in memory, an expansion writes each of them before it reads the next.  Where
nothing is written over what is still to be read, and every file has somewhere to go, both end in the
same way, and they end well exactly if every file comes to a text.  That an expansion may end in
another way where it writes over its own input is not dealt with here.
-/

open Files Files.Tree

/-! ## How a run over files ends -/

/-- Names that lead from the input of a run to what it is concerned with: the file itself, or every
entry below a directory that is named like a source file.  A directory with such a name is among them
and counts as a file that cannot be read. -/
def concerned (tree : Tree) (input : Path) : List (List Text) :=
  if tree.hasFile input then [[]] else tree.search input sourceEnding

/-- How a run ends that reports on files. -/
def endingOf : Except Breakage (List Bool) → Ending
  | .error breakage => .broken breakage
  | .ok successes => .exit (if successes.all id then 0 else 1)

/-- A run over files ends well exactly if each of them comes to a text. -/
theorem endingOf_outcomes_eq_exit_zero_iff (settings : Settings) (tree : Tree)
    (inputs : List Path) :
    endingOf (outcomes settings tree inputs) = .exit 0 ↔
      ∀ input ∈ inputs, ∃ result, ExpandsTo settings tree input result := by
  induction inputs with
  | nil => exact iff_of_true rfl nofun
  | cons input inputs ih =>
    rw [outcomes, List.forall_mem_cons, ← ih]
    simp only [← expandedText_eq_some_iff]
    cases expandedText settings tree input with
    | error breakage => simp [endingOf]
    | ok result =>
      cases outcomes settings tree inputs with
      | error breakage => simp [endingOf, Except.map]
      | ok successes => cases result <;> simp [endingOf, Except.map]

/-! ## The end of a check -/

theorem ending_runCheck {tree : Tree} {input : Path} {companionPrefix : Option Text}
    {settings : Settings} {found : Option (List Text)} (present : tree.holds input = true)
    (loaded : Configuration.load tree (configurationStart tree input)
      (givenValues companionPrefix false) = .ok (settings, found)) :
    (runCheck tree input companionPrefix).ending =
      endingOf (outcomes settings tree ((concerned tree input).map input.descend)) := by
  unfold runCheck withSettings
  simp only [present, Bool.not_true, Bool.false_eq_true, if_false, loaded]
  generalize listed : (if tree.hasFile input = true then [(input, input.name)]
      else (tree.search input sourceEnding).map fun names =>
        (input.descend names, Text.join ['/'] names)) = files
  have same : (concerned tree input).map input.descend = files.map (·.1) := by
    rw [← listed, concerned]
    split
    · simp [Path.descend]
    · simp
  rw [same, ← map_success_checkFiles]
  cases files with
  | nil => rfl
  | cons first later =>
    simp only
    rcases checkFiles settings tree (first :: later) with ⟨events, result⟩
    cases result with
    | error breakage => rfl
    | ok reports => exact congrArg Ending.exit (exitCode_eq reports)

theorem tree_runCheck (tree : Tree) (input : Path) (companionPrefix : Option Text) :
    (runCheck tree input companionPrefix).tree = tree := by
  unfold runCheck withSettings
  split
  · rfl
  · split
    · simp only
      split
      · rfl
      · split <;> rfl
    · split <;> rfl

/-! ## The end of an expansion -/

section Expanding

variable {settings : Settings} {tree : Tree} {input output : Path} {listed : List (List Text)}

/-- A file that has somewhere to go is reported as a success exactly if it comes to a text. -/
theorem map_success_expandFile (name : Text)
    (writable : isExpanded settings tree input = true → tree.CanWrite output) :
    (expandFile settings tree input (some output) name).result.map FileReport.success =
      (expandedText settings tree input).map Option.isSome := by
  unfold isExpanded at writable
  cases comes : expandedText settings tree input with
  | error breakage => rw [expandFile_of_error comes]; rfl
  | ok result =>
    cases result with
    | none =>
      rcases expandFile_of_none output name comes with
        ⟨-, report, told, failed⟩
      rw [told]
      exact congrArg Except.ok failed
    | some result =>
      rw [comes] at writable
      rcases (writable rfl).exists_write (Text.encode result) with ⟨made, written, above, done⟩
      rcases expandFile_of_write name comes above done with ⟨-, report, told, succeeded⟩
      rw [told]
      exact congrArg Except.ok succeeded

/-- Source files below a path that have somewhere to go, none of them on the way of another. -/
structure Destined (settings : Settings) (tree : Tree) (input output : Path)
    (listed : List (List Text)) : Prop where
  writable : ∀ names ∈ listed, isExpanded settings tree (input.descend names) = true →
    tree.CanWrite (output.descend names)
  clear : ∀ names ∈ listed, isExpanded settings tree (input.descend names) = true →
    ∀ other ∈ listed, tree.placeOf (output.descend names) ∉ tree.wayOf (output.descend other)

/-- Once the first file has been dealt with, the others have somewhere to go still. -/
theorem Destined.tail {after : Tree} {names : List Text}
    (destined : Destined settings tree input output (names :: listed))
    (growth : Extends tree after
      (madeFor settings tree (input.descend names) (output.descend names))
      (writtenFor settings tree (input.descend names) (output.descend names)))
    (reads : ∀ later ∈ listed,
      after.read (input.descend later) = tree.read (input.descend later)) :
    Destined settings after input output listed := by
  have first := List.mem_cons_self (a := names) (l := listed)
  have there : ∀ {later}, later ∈ listed → later ∈ names :: listed := List.mem_cons_of_mem _
  refine ⟨fun later member expanded => ?_, fun later member expanded other between => ?_⟩
  · rw [isExpanded_congr (reads later member)] at expanded
    refine (destined.writable later (there member) expanded).of_extends growth ?_ ?_
    · exact fun made => destined.clear later (there member) expanded names first
        (mem_madeFor.1 made).2
    · rintro passed onWay written
      rcases mem_writtenFor.1 written with ⟨comes, rfl⟩
      exact destined.clear names first comes later (there member) onWay
  · rw [isExpanded_congr (reads later member)] at expanded
    rw [growth.placeOf, growth.wayOf]
    exact destined.clear later (there member) expanded other (there between)

/-- Independent files that have somewhere to go are reported as they come out. -/
theorem map_success_expandFiles (independent : Independent settings tree input output listed)
    (destined : Destined settings tree input output listed) :
    (expandFiles settings input output tree listed).result.map (List.map FileReport.success) =
      outcomes settings tree (listed.map input.descend) := by
  induction listed generalizing tree with
  | nil => rfl
  | cons names listed ih =>
    have first := map_success_expandFile (Text.join ['/'] names)
      (destined.writable names List.mem_cons_self)
    simp only [expandFiles, List.map_cons, outcomes]
    cases reported : (expandFile settings tree (input.descend names)
        (some (output.descend names)) (Text.join ['/'] names)).result with
    | error breakage =>
      rw [reported] at first
      cases comes : expandedText settings tree (input.descend names) with
      | error other => rw [comes] at first; cases first; rfl
      | ok result => rw [comes] at first; cases first
    | ok report =>
      rw [reported] at first
      cases comes : expandedText settings tree (input.descend names) with
      | error other => rw [comes] at first; cases first
      | ok result =>
        rw [comes] at first
        have same := Except.ok.inj first
        rcases extends_expandFile reported with ⟨growth, -, -⟩
        rcases independent.tail growth with ⟨still, reads⟩
        have others := ih still (destined.tail growth reads)
        rw [outcomes_congr (by simpa using reads)] at others
        simp only [← others]
        generalize (expandFiles settings input output _ listed).result = rest
        cases rest with
        | error breakage => rfl
        | ok reports => simp [Except.map, same]

end Expanding

/-! ## Destinations apart from the input -/

/-- A destination that lies neither in the input nor around it, and where every file concerned can be
written. -/
structure IsDestination (tree : Tree) (input output : Path) : Prop where
  outside : ¬ tree.placeOf input <+: tree.placeOf output
  beside : ¬ tree.placeOf output <+: tree.placeOf input
  writable : ∀ names ∈ concerned tree input, tree.hasFile (input.descend names) = true →
    tree.CanWrite (output.descend names)

instance (tree : Tree) (input output : Path) : Decidable (IsDestination tree input output) :=
  decidable_of_iff
    (¬ tree.placeOf input <+: tree.placeOf output ∧ ¬ tree.placeOf output <+: tree.placeOf input ∧
      ∀ names ∈ concerned tree input, tree.hasFile (input.descend names) = true →
        tree.CanWrite (output.descend names))
    ⟨fun ⟨outside, beside, writable⟩ => ⟨outside, beside, writable⟩,
      fun ⟨outside, beside, writable⟩ => ⟨outside, beside, writable⟩⟩

section Apart

variable {settings : Settings} {tree : Tree} {input output : Path}

/-- No source file of a proper tree is on the way of another one, so neither are their
destinations. -/
theorem destined_of_writable (proper : tree.IsProper) {ending : Text}
    (writable : ∀ names ∈ tree.search input ending,
      isExpanded settings tree (input.descend names) = true →
        tree.CanWrite (output.descend names)) :
    Destined settings tree input output (tree.search input ending) where
  writable := writable
  clear names first comes other second onWay := by
    rw [wayOf_descend, List.mem_append] at onWay
    rcases onWay with onWay | below
    · refine (writable names first comes).ahead ?_
      rw [wayOf_descend]
      exact List.mem_append_left _ onWay
    · rw [placeOf_descend _ _ (proper.reaches_of_mem_search first).1] at below
      exact proper.not_mem_way_of_hasFile first second (hasFile_of_isExpanded comes) _ below

/-- An expansion ends as the files that it is concerned with come out. -/
theorem ending_runExpand {companionPrefix : Option Text} {found : Option (List Text)}
    (proper : tree.IsProper) (destination : IsDestination tree input output)
    (present : tree.holds input = true)
    (loaded : Configuration.load tree (configurationStart tree input)
      (givenValues companionPrefix false) = .ok (settings, found)) :
    (runExpand tree input (some output) companionPrefix false).ending =
      endingOf (outcomes settings tree ((concerned tree input).map input.descend)) := by
  have writable : ∀ names ∈ concerned tree input,
      isExpanded settings tree (input.descend names) = true →
        tree.CanWrite (output.descend names) :=
    fun names member comes => destination.writable names member (hasFile_of_isExpanded comes)
  unfold runExpand withSettings
  unfold concerned at writable ⊢
  simp only [present, Bool.not_true, Bool.false_eq_true, if_false, loaded]
  cases single : tree.hasFile input with
  | true =>
    rw [single, if_pos rfl] at writable
    have whole : ∀ path : Path, path.descend [] = path := fun path => by simp [Path.descend]
    rw [List.forall_mem_singleton, whole, whole] at writable
    have told := map_success_expandFile input.name writable
    simp only [if_true, List.map_cons, List.map_nil, whole, outcomes, runExpandFile]
    cases result : (expandFile settings tree input (some output) input.name).result with
    | error breakage =>
      rw [result] at told
      cases comes : expandedText settings tree input with
      | error other => rw [comes] at told; cases told; rfl
      | ok text => rw [comes] at told; cases told
    | ok report =>
      rw [result] at told
      cases comes : expandedText settings tree input with
      | error other => rw [comes] at told; cases told
      | ok text =>
        rw [comes] at told
        have same : report.success = text.isSome := Except.ok.inj told
        cases text <;> simp [same, endingOf, Except.map, Run.ended]
  | false =>
    rw [single, if_neg Bool.false_ne_true] at writable
    have told := map_success_expandFiles
      (independent_of_apart proper destination.outside destination.beside sourceEnding)
      (destined_of_writable proper writable)
    simp only [Bool.false_eq_true, if_false, runExpandDirectory]
    rw [← told]
    cases tree.search input sourceEnding with
    | nil => rfl
    | cons first later =>
      simp only
      generalize expandFiles settings input output tree (first :: later) = done
      cases done.result with
      | error breakage => rfl
      | ok reports => exact congrArg Ending.exit (exitCode_eq reports)

end Apart

/-- An expansion to somewhere apart ends as a check does, with a code or with the same breakage.  The
code is zero exactly if the input is there, it has settings, and every file concerned comes to a text;
and a check changes nothing. -/
theorem ending_runExpand_eq_ending_runCheck {tree : Tree} {input output : Path}
    (companionPrefix : Option Text) (proper : tree.IsProper)
    (destination : IsDestination tree input output) :
    (runExpand tree input (some output) companionPrefix false).ending =
        (runCheck tree input companionPrefix).ending ∧
      ((runCheck tree input companionPrefix).ending = .exit 0 ↔
        tree.holds input = true ∧ ∃ settings found,
          Configuration.load tree (configurationStart tree input)
            (givenValues companionPrefix false) = .ok (settings, found) ∧
          ∀ names ∈ concerned tree input, ∃ result,
            ExpandsTo settings tree (input.descend names) result) ∧
      (runCheck tree input companionPrefix).tree = tree := by
  cases present : tree.holds input with
  | false => simp [runExpand, runCheck, present, Run.refused, Run.ended]
  | true =>
    cases loaded : Configuration.load tree (configurationStart tree input)
        (givenValues companionPrefix false) with
    | ok settled =>
      rcases settled with ⟨settings, found⟩
      refine ⟨?_, ?_, tree_runCheck tree input companionPrefix⟩
      · rw [ending_runExpand proper destination present loaded, ending_runCheck present loaded]
      · rw [ending_runCheck present loaded, endingOf_outcomes_eq_exit_zero_iff]
        simp
    | error fault =>
      refine ⟨?_, ?_, tree_runCheck tree input companionPrefix⟩
      · simp only [runExpand, runCheck, withSettings, present, loaded]
      · refine iff_of_false ?_ (by simp)
        simp only [runCheck, withSettings, present, loaded, Bool.not_true, Bool.false_eq_true,
          if_false]
        split <;> simp [Run.refused, Run.ended]

/-- The refused record lets the check and the expansion end in the same way, and not well. -/
theorem sourceDirectory_ending :
    sourceDirectory.IsProper ∧ IsDestination sourceDirectory ⟨[], ["in"]⟩ ⟨[], ["out"]⟩ ∧
      (runExpand sourceDirectory ⟨[], ["in"]⟩ (some ⟨[], ["out"]⟩) none false).ending =
        (runCheck sourceDirectory ⟨[], ["in"]⟩ none).ending ∧
      (runCheck sourceDirectory ⟨[], ["in"]⟩ none).ending ≠ .exit 0 := by
  have proper : sourceDirectory.IsProper := by decide +kernel
  have destination : IsDestination sourceDirectory ⟨[], ["in"]⟩ ⟨[], ["out"]⟩ := by decide +kernel
  have loaded : Configuration.load sourceDirectory
      (configurationStart sourceDirectory ⟨[], ["in"]⟩) (givenValues none false) =
        .ok (.default, none) := by rfl
  have listed : [("b.py" : Text)] ∈ concerned sourceDirectory ⟨[], ["in"]⟩ := by decide +kernel
  have refused : isExpanded .default sourceDirectory (Path.descend ⟨[], ["in"]⟩ ["b.py"]) = false := by
    decide +kernel
  rcases ending_runExpand_eq_ending_runCheck none proper destination with ⟨same, well, -⟩
  refine ⟨proper, destination, same, fun ends => ?_⟩
  rcases well.1 ends with ⟨-, settings, found, known, all⟩
  cases known.symm.trans loaded
  have expanded := isExpanded_eq_true_iff.2 (all ["b.py"] listed)
  rw [refused] at expanded
  cases expanded

end Command
end OpenRecord
