import OpenRecord.Proofs.Command.SourceFiles

namespace OpenRecord
namespace Command

/-!
# Expanding a directory

The files of a directory are listed before the first of them is read, but each is read only when its
turn comes, after those before it have been written.  So the destination may overlap the input, as long
as no file is written over one that is listed after it: then every file that comes to a text in the tree
at the start is found below the output with this text, and nothing else has become of any other file.
Without that condition a file is expanded from what an earlier one has left in its place.

A run that breaks off is not dealt with here.
-/

open Files Files.Tree

section

variable (settings : Settings) (input output : Path)

/-- No file that is expanded is written over one that is listed after it. -/
def KeepsSources (tree : Tree) : Prop :=
  (tree.search input sourceEnding).Pairwise fun earlier later =>
    (∃ result, ExpandsTo settings tree (input.descend earlier) result) →
      tree.placeOf (output.descend earlier) ≠ tree.placeOf (input.descend later)

/-- The files below the output are those of the input, expanded from what they were before. -/
structure Reflects (before after : Tree) : Prop where
  /-- What comes to a text is found below the output. -/
  expanded : ∀ names ∈ before.search input sourceEnding, ∀ result,
    ExpandsTo settings before (input.descend names) result →
      after.entryAt (before.placeOf (output.descend names)) = some (.file (Text.encode result))
  /-- Where a file would go that comes to no text, everything is as before, unless the path of the
  output leads through that place and up again. -/
  refused : ∀ names ∈ before.search input sourceEnding,
    before.hasFile (input.descend names) = true →
    (¬ ∃ result, ExpandsTo settings before (input.descend names) result) →
    before.placeOf (output.descend names) ∉ before.wayOf output →
      after.entryAt (before.placeOf (output.descend names)) =
        before.entryAt (before.placeOf (output.descend names))
  /-- A file at any other place is there exactly as it was before. -/
  others : ∀ place entry, entry ≠ .directory →
    (∀ names ∈ before.search input sourceEnding,
      (∃ result, ExpandsTo settings before (input.descend names) result) →
        place ≠ before.placeOf (output.descend names)) →
    (after.entryAt place = some entry ↔ before.entryAt place = some entry)

end

section

variable {settings : Settings} {tree after : Tree} {input output : Path}

theorem KeepsSources.of_apart (proper : tree.IsProper)
    (outside : ¬ tree.placeOf input <+: tree.placeOf output)
    (beside : ¬ tree.placeOf output <+: tree.placeOf input) :
    KeepsSources settings input output tree :=
  (independent_of_apart proper outside beside sourceEnding).apart.imp fun unlike comes =>
    unlike (isExpanded_eq_true_iff.2 comes)

theorem KeepsSources.of_same_place (proper : tree.IsProper)
    (same : tree.placeOf output = tree.placeOf input) :
    KeepsSources settings input output tree := by
  refine (proper.pairwise_placeOf_descend input output sourceEnding).imp_of_mem
    fun {earlier later} _ listed different _ => ?_
  have plain := (proper.reaches_of_mem_search listed).1
  rwa [placeOf_descend _ input plain, ← same, ← placeOf_descend _ output plain]

/-- What expanding listed files does to a proper tree, seen from the tree at the start. -/
theorem Writes.reflects (proper : tree.IsProper)
    (writes : Writes settings input output (tree.search input sourceEnding) tree after) :
    Reflects settings input output tree after where
  expanded names listed result comes :=
    writes.contents names listed result (expandedText_eq_some_iff.2 comes)
  refused names listed file refused unvisited := by
    have plain := (proper.reaches_of_mem_search listed).1
    have unwritten : tree.placeOf (output.descend names) ∉
        (tree.search input sourceEnding).flatMap fun names =>
          writtenFor settings tree (input.descend names) (output.descend names) := by
      simp only [List.mem_flatMap, mem_writtenFor, not_exists, not_and]
      intro other otherListed comes same
      rw [placeOf_descend _ _ plain,
        placeOf_descend _ _ (proper.reaches_of_mem_search otherListed).1,
        List.append_cancel_left_eq] at same
      exact refused (isExpanded_eq_true_iff.1 (same ▸ comes))
    have unmade : tree.placeOf (output.descend names) ∉
        (tree.search input sourceEnding).flatMap fun names =>
          madeFor settings tree (input.descend names) (output.descend names) := by
      simp only [List.mem_flatMap, mem_madeFor, not_exists, not_and]
      intro other otherListed _ onWay
      rw [wayOf_descend, List.mem_append] at onWay
      refine onWay.elim unvisited ?_
      rw [placeOf_descend _ _ plain]
      exact proper.not_mem_way_of_hasFile listed otherListed file _
    exact writes.growth.entryAt_eq unmade unwritten
  others place entry file elsewhere := by
    refine writes.growth.files place entry file ?_
    simp only [List.mem_flatMap, mem_writtenFor, not_exists, not_and]
    exact fun names listed comes => elsewhere names listed (isExpanded_eq_true_iff.1 comes)

theorem runExpand_of_hasDirectory {companionPrefix : Option Text} {withoutImports : Bool}
    {found : Option (List Text)} (directory : tree.hasDirectory input = true)
    (loaded : Configuration.load tree (configurationStart tree input)
      (givenValues companionPrefix withoutImports) = .ok (settings, found))
    (output : Option Path) :
    runExpand tree input output companionPrefix withoutImports =
      runExpandDirectory settings tree input output := by
  have present : tree.holds input = true := by
    have found : tree.entry? input = some .directory := by simpa [hasDirectory] using directory
    simp [holds, found]
  simp [runExpand, withSettings, hasFile, present, directory, loaded]

/-- A directory that is expanded to the end, with no file written over another one before its turn, has
had each of its files expanded from what it was at the start. -/
theorem writes_runExpandDirectory {code : Nat} (proper : tree.IsProper)
    (keeps : KeepsSources settings input output tree)
    (ended : (runExpandDirectory settings tree input (some output)).ending = .exit code) :
    Writes settings input output (tree.search input sourceEnding) tree
        (runExpandDirectory settings tree input (some output)).tree ∧
      (code = 0 ↔ ∀ names ∈ tree.search input sourceEnding, ∃ result,
        ExpandsTo settings tree (input.descend names) result) := by
  have independent : Independent settings tree input output (tree.search input sourceEnding) :=
    ⟨fun names listed => (proper.reaches_of_mem_search listed).2,
      keeps.imp fun unlike comes => unlike (isExpanded_eq_true_iff.1 comes)⟩
  have distinct := proper.pairwise_placeOf_descend input output sourceEnding
  have writes : ∀ reports,
      (expandFiles settings input output tree (tree.search input sourceEnding)).result =
        .ok reports → _ := fun reports => writes_expandFiles independent distinct
  unfold runExpandDirectory at ended ⊢
  simp only at ended ⊢
  generalize tree.search input sourceEnding = sources at writes ended ⊢
  cases sources with
  | nil =>
    cases ended
    exact ⟨⟨Extends.refl tree, by simp⟩, iff_of_true rfl (by simp)⟩
  | cons first later =>
    simp only at ended ⊢
    cases result : (expandFiles settings input output tree (first :: later)).result with
    | error breakage =>
      rw [result] at ended
      cases ended
    | ok reports =>
      rw [result] at ended
      rcases writes reports result with ⟨written, successes⟩
      refine ⟨written, ?_⟩
      have told : exitCode reports = code := Ending.exit.inj ended
      rw [← told, exitCode_eq, successes]
      simp [isExpanded_eq_true_iff]

/-- An expansion of a directory that ends has expanded its files from what they were at the start,
provided that none of them was written over another one before its turn.  It ends well exactly if every
listed file comes to a text; a directory that is named like a source file does not. -/
theorem reflects_runExpand {companionPrefix : Option Text} {withoutImports : Bool}
    {found : Option (List Text)} {code : Nat} (proper : tree.IsProper)
    (directory : tree.hasDirectory input = true)
    (loaded : Configuration.load tree (configurationStart tree input)
      (givenValues companionPrefix withoutImports) = .ok (settings, found))
    (keeps : KeepsSources settings input output tree)
    (ended : (runExpand tree input (some output) companionPrefix withoutImports).ending =
      .exit code) :
    Reflects settings input output tree
        (runExpand tree input (some output) companionPrefix withoutImports).tree ∧
      (code = 0 ↔ ∀ names ∈ tree.search input sourceEnding, ∃ result,
        ExpandsTo settings tree (input.descend names) result) := by
  rw [runExpand_of_hasDirectory directory loaded] at ended ⊢
  rcases writes_runExpandDirectory proper keeps ended with ⟨writes, well⟩
  exact ⟨writes.reflects proper, well⟩

end

/-- The directory is expanded into one that lies in it. -/
theorem sourceDirectory_reflects :
    sourceDirectory.IsProper ∧ sourceDirectory.hasDirectory ⟨[], ["in"]⟩ = true ∧
      KeepsSources .default ⟨[], ["in"]⟩ ⟨[], ["in", "z"]⟩ sourceDirectory ∧
      Reflects .default ⟨[], ["in"]⟩ ⟨[], ["in", "z"]⟩ sourceDirectory
        (runExpand sourceDirectory ⟨[], ["in"]⟩ (some ⟨[], ["in", "z"]⟩) none false).tree ∧
      ¬ ∀ names ∈ sourceDirectory.search ⟨[], ["in"]⟩ sourceEnding, ∃ result,
        ExpandsTo .default sourceDirectory (Path.descend ⟨[], ["in"]⟩ names) result := by
  have proper : sourceDirectory.IsProper := by decide +kernel
  have directory : sourceDirectory.hasDirectory ⟨[], ["in"]⟩ = true := by decide +kernel
  have loaded : Configuration.load sourceDirectory
      (configurationStart sourceDirectory ⟨[], ["in"]⟩) (givenValues none false) =
        .ok (.default, none) := by rfl
  have apart : (sourceDirectory.search ⟨[], ["in"]⟩ sourceEnding).Pairwise fun earlier later =>
      sourceDirectory.placeOf (Path.descend ⟨[], ["in", "z"]⟩ earlier) ≠
        sourceDirectory.placeOf (Path.descend ⟨[], ["in"]⟩ later) := by decide +kernel
  have keeps : KeepsSources .default ⟨[], ["in"]⟩ ⟨[], ["in", "z"]⟩ sourceDirectory := by
    refine List.Pairwise.imp ?_ apart
    exact fun unlike _ => unlike
  have failed : (match (runExpand sourceDirectory ⟨[], ["in"]⟩ (some ⟨[], ["in", "z"]⟩) none
      false).ending with
    | .exit code => code
    | _ => 2) = 1 := by decide +kernel
  have ended : (runExpand sourceDirectory ⟨[], ["in"]⟩ (some ⟨[], ["in", "z"]⟩) none
      false).ending = .exit 1 := by
    revert failed
    split
    · rintro rfl
      assumption
    · exact nofun
  rcases reflects_runExpand proper directory loaded keeps ended with ⟨reflects, well⟩
  exact ⟨proper, directory, keeps, reflects, fun all => absurd (well.2 all) (by decide)⟩

end Command
end OpenRecord
