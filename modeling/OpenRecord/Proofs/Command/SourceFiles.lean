import Mathlib.Data.List.Basic
import OpenRecord.Command.Run
import OpenRecord.Proofs.Files.Writing

namespace OpenRecord
namespace Command

/-!
# What becomes of source files

A source file comes to a text if it can be read and is expanded, and to nothing if it cannot be read
or is refused; the run breaks off if emitted code cannot be read again at its place.  Checking and
expanding agree on this, for one file and for one after another.

When files are expanded one after another, each of them is read from the tree that the earlier ones
have left.  As long as no file is where an earlier one was written to, it comes to what it came to in
the tree at the start.
-/

open Files Files.Tree

/-- What the source file behind a path comes to. -/
def expandedText (settings : Settings) (tree : Tree) (input : Path) :
    Except Breakage (Option Text) :=
  match readSource tree input with
  | .error _ => .ok none
  | .ok code =>
    match expand settings code (some input.text) with
    | .error fault => .error (.artifact fault)
    | .ok expansion => .ok (if expansion.success then some expansion.code else none)

/-- A source file that can be read and is expanded to a text. -/
def ExpandsTo (settings : Settings) (tree : Tree) (input : Path) (result : Text) : Prop :=
  ∃ code expansion, readSource tree input = .ok code ∧
    expand settings code (some input.text) = .ok expansion ∧ expansion.success = true ∧
    expansion.code = result

/-- A source file comes to a text exactly if it is expanded to it. -/
theorem expandedText_eq_some_iff {settings : Settings} {tree : Tree} {input : Path}
    {result : Text} :
    expandedText settings tree input = .ok (some result) ↔
      ExpandsTo settings tree input result := by
  unfold expandedText ExpandsTo
  cases readSource tree input with
  | error fault => simp
  | ok code =>
    cases expanded : expand settings code (some input.text) with
    | error fault => simp [expanded]
    | ok expansion => simp [expanded]

/-- What a source file comes to depends on what its path reads. -/
theorem expandedText_congr {tree other : Tree} {input : Path}
    (same : other.read input = tree.read input) (settings : Settings) :
    expandedText settings other input = expandedText settings tree input := by
  unfold expandedText readSource
  rw [same]

/-- Whether each of some source files comes to a text, up to the first at which the run breaks
off. -/
def outcomes (settings : Settings) (tree : Tree) : List Path → Except Breakage (List Bool)
  | [] => .ok []
  | input :: later =>
    match expandedText settings tree input with
    | .error breakage => .error breakage
    | .ok result => (outcomes settings tree later).map (result.isSome :: ·)

/-- Reports end a run as the successes that they tell of. -/
theorem exitCode_eq (reports : List FileReport) :
    exitCode reports = if (reports.map FileReport.success).all id then 0 else 1 := by
  simp [exitCode, List.all_map]

/-! ## Checking -/

theorem map_success_checkFile (settings : Settings) (tree : Tree) (input : Path) (name : Text) :
    (checkFile settings tree input name).2.map FileReport.success =
      (expandedText settings tree input).map Option.isSome := by
  unfold checkFile expandedText expand
  cases readSource tree input with
  | error fault => rfl
  | ok code =>
    simp only
    cases (expandWithOutcomes settings code (some input.text)).2 with
    | error fault => rfl
    | ok expansion =>
      have reported : FileReport.success ⟨name, expansion.models.length, expansion.errors⟩ =
          expansion.success := by
        simp [FileReport.success, Expansion.errors, Expansion.success]
      simp only [Except.map, reported]
      cases expansion.success <;> rfl

/-- Files that are checked are reported one by one, up to the first at which the run breaks off. -/
theorem map_success_checkFiles (settings : Settings) (tree : Tree) (files : List (Path × Text)) :
    (checkFiles settings tree files).2.map (List.map FileReport.success) =
      outcomes settings tree (files.map (·.1)) := by
  induction files with
  | nil => rfl
  | cons file later ih =>
    have first := map_success_checkFile settings tree file.1 file.2
    rw [List.map_cons, outcomes, ← ih]
    simp only [checkFiles]
    revert first
    rcases checkFile settings tree file.1 file.2 with ⟨events, reported⟩
    cases reported with
    | error breakage =>
      cases expandedText settings tree file.1 <;> intro first <;> cases first
      rfl
    | ok report =>
      cases expandedText settings tree file.1 with
      | error breakage => intro first; cases first
      | ok result =>
        intro first
        have same := Except.ok.inj first
        cases (checkFiles settings tree later).2 with
        | error breakage => rfl
        | ok reports => simp [Except.map, same]

/-! ## Expanding one file -/

section Single

variable {settings : Settings} {tree : Tree} {input output : Path} {name : Text}

/-- Where emitted code cannot be read again, expanding a file breaks off as well. -/
theorem expandFile_of_error {breakage : Breakage}
    (comes : expandedText settings tree input = .error breakage) :
    (expandFile settings tree input (some output) name).result = .error breakage := by
  unfold expandedText expand at comes
  unfold expandFile
  cases read : readSource tree input with
  | error fault => simp [read] at comes
  | ok code =>
    simp only [read] at comes ⊢
    cases expanded : (expandWithOutcomes settings code (some input.text)).2 with
    | error fault => simpa [expanded] using comes
    | ok expansion => simp [expanded] at comes

theorem expandFile_of_none (output : Path) (name : Text)
    (comes : expandedText settings tree input = .ok none) :
    (expandFile settings tree input (some output) name).tree = tree ∧
      ∃ report, (expandFile settings tree input (some output) name).result = .ok report ∧
        report.success = false := by
  unfold expandedText expand at comes
  unfold expandFile
  cases read : readSource tree input with
  | error fault => exact ⟨rfl, _, rfl, rfl⟩
  | ok code =>
    simp only [read] at comes ⊢
    cases expanded : (expandWithOutcomes settings code (some input.text)).2 with
    | error fault => simp [expanded] at comes
    | ok expansion =>
      have refused : expansion.success = false := by simpa [expanded] using comes
      simp only [refused, Bool.not_false, if_true]
      refine ⟨trivial, _, rfl, ?_⟩
      simpa [FileReport.success, Expansion.errors, Expansion.success] using refused

theorem expandFile_of_some (output : Path) (name : Text) {result : Text}
    (comes : expandedText settings tree input = .ok (some result)) :
    ∃ expansion events, expansion.code = result ∧
      expandFile settings tree input (some output) name =
        { writeExpanded tree input output name expansion with
          events := events ++ (writeExpanded tree input output name expansion).events } := by
  unfold expandedText expand at comes
  unfold expandFile
  cases read : readSource tree input with
  | error fault => simp [read] at comes
  | ok code =>
    simp only [read] at comes ⊢
    cases expanded : (expandWithOutcomes settings code (some input.text)).2 with
    | error fault => simp [expanded] at comes
    | ok expansion =>
      have accepted : expansion.success = true ∧ expansion.code = result := by
        simpa [expanded] using comes
      simp only [accepted.1, Bool.not_true, Bool.false_eq_true, if_false]
      exact ⟨expansion, _, accepted.2, rfl⟩

theorem expandFile_of_write (name : Text) {result : Text} {made written : Tree}
    (comes : expandedText settings tree input = .ok (some result))
    (above : tree.makeDirectories output.parent = .ok made)
    (done : made.write output (Text.encode result) = .ok written) :
    (expandFile settings tree input (some output) name).tree = written ∧
      ∃ report, (expandFile settings tree input (some output) name).result = .ok report ∧
        report.success = true := by
  rcases expandFile_of_some output name comes with
    ⟨expansion, events, rfl, same⟩
  rw [same]
  simp only [writeExpanded, above, done]
  exact ⟨trivial, _, rfl, rfl⟩

/-- What is reported although it comes to a text has been written. -/
theorem write_of_expandFile {result : Text} {report : FileReport}
    (comes : expandedText settings tree input = .ok (some result))
    (reported : (expandFile settings tree input (some output) name).result = .ok report) :
    ∃ made, tree.makeDirectories output.parent = .ok made ∧
      made.write output (Text.encode result) =
        .ok (expandFile settings tree input (some output) name).tree := by
  rcases expandFile_of_some output name comes with
    ⟨expansion, events, rfl, same⟩
  rw [same] at reported ⊢
  unfold writeExpanded at reported ⊢
  cases above : tree.makeDirectories output.parent with
  | error fault => simp [above] at reported
  | ok made =>
    simp only [above] at reported ⊢
    cases done : made.write output (Text.encode expansion.code) with
    | error fault => simp [done] at reported
    | ok written => exact ⟨made, rfl, by simp [done]⟩

/-- Whether the source file behind a path comes to a text. -/
def isExpanded (settings : Settings) (tree : Tree) (input : Path) : Bool :=
  match expandedText settings tree input with
  | .ok (some _) => true
  | _ => false

/-- A source file comes to a text exactly if it is expanded. -/
theorem isExpanded_eq_true_iff :
    isExpanded settings tree input = true ↔ ∃ result, ExpandsTo settings tree input result := by
  simp only [← expandedText_eq_some_iff]
  unfold isExpanded
  split
  · rename_i result comes
    exact iff_of_true rfl ⟨result, comes⟩
  · rename_i missing
    exact iff_of_false Bool.false_ne_true fun ⟨result, comes⟩ => missing result comes

theorem entryAt_of_isExpanded (comes : isExpanded settings tree input = true) :
    ∃ content, tree.entry? input = some (.file content) := by
  unfold isExpanded expandedText readSource at comes
  cases found : tree.read input with
  | error fault => simp [found] at comes
  | ok content => exact ⟨content, read_eq_ok_iff.1 found⟩

theorem hasFile_of_isExpanded (comes : isExpanded settings tree input = true) :
    tree.hasFile input = true := by
  rcases entryAt_of_isExpanded comes with ⟨content, found⟩
  simp [hasFile, holds, hasDirectory, found]

/-- The places where directories are made for a file. -/
def madeFor (settings : Settings) (tree : Tree) (input output : Path) : List (List Text) :=
  if isExpanded settings tree input then tree.wayOf output else []

def writtenFor (settings : Settings) (tree : Tree) (input output : Path) : List (List Text) :=
  if isExpanded settings tree input then [tree.placeOf output] else []

/-- Directories are made for a file that comes to a text, and on the way. -/
theorem mem_madeFor {place : List Text} :
    place ∈ madeFor settings tree input output ↔
      isExpanded settings tree input = true ∧ place ∈ tree.wayOf output := by
  simp [madeFor]

theorem mem_writtenFor {place : List Text} :
    place ∈ writtenFor settings tree input output ↔
      isExpanded settings tree input = true ∧ place = tree.placeOf output := by
  simp [writtenFor]

/-- A file that is reported has been written if it comes to a text, and otherwise nothing has
changed. -/
theorem extends_expandFile {report : FileReport}
    (reported : (expandFile settings tree input (some output) name).result = .ok report) :
    Extends tree (expandFile settings tree input (some output) name).tree
        (madeFor settings tree input output) (writtenFor settings tree input output) ∧
      (∀ result, expandedText settings tree input = .ok (some result) →
        (expandFile settings tree input (some output) name).tree.entryAt (tree.placeOf output) =
          some (.file (Text.encode result))) ∧
      report.success = isExpanded settings tree input := by
  unfold madeFor writtenFor isExpanded
  cases comes : expandedText settings tree input with
  | error breakage =>
    rw [expandFile_of_error comes] at reported
    cases reported
  | ok result =>
    cases result with
    | none =>
      rcases expandFile_of_none output name comes with
        ⟨same, found, told, failed⟩
      rw [told] at reported
      cases reported
      rw [same]
      exact ⟨Extends.refl tree, nofun, failed⟩
    | some result =>
      rcases write_of_expandFile comes reported with ⟨made, above, done⟩
      rcases extends_write_below above done with ⟨growth, here⟩
      rcases expandFile_of_write name comes above done with ⟨-, found, told, succeeded⟩
      rw [told] at reported
      cases reported
      refine ⟨growth, fun other same => ?_, succeeded⟩
      cases same
      exact here

end Single

/-! ## Expanding one file after another -/

/-- Names below a path, each of which leads to something, and to nothing that an earlier file is
written over. -/
structure Independent (settings : Settings) (tree : Tree) (input output : Path)
    (listed : List (List Text)) : Prop where
  reaches : ∀ names ∈ listed, tree.Reaches (input.descend names)
  apart : listed.Pairwise fun earlier later =>
    isExpanded settings tree (input.descend earlier) = true →
      tree.placeOf (output.descend earlier) ≠ tree.placeOf (input.descend later)

/-- What an expansion of listed files does to a tree, told from the tree at the start. -/
structure Writes (settings : Settings) (input output : Path) (listed : List (List Text))
    (before after : Tree) : Prop where
  growth : Extends before after
    (listed.flatMap fun names =>
      madeFor settings before (input.descend names) (output.descend names))
    (listed.flatMap fun names =>
      writtenFor settings before (input.descend names) (output.descend names))
  contents : ∀ names ∈ listed, ∀ result,
    expandedText settings before (input.descend names) = .ok (some result) →
      after.entryAt (before.placeOf (output.descend names)) =
        some (.file (Text.encode result))

section Many

variable {settings : Settings} {tree after : Tree} {input output : Path}
  {names : List Text} {listed made : List (List Text)}

/-- A file that reads what it read before comes to a text if it did so before. -/
theorem isExpanded_congr {other : Tree} {path : Path} (same : other.read path = tree.read path)
    (settings : Settings) : isExpanded settings other path = isExpanded settings tree path := by
  simp only [isExpanded, expandedText_congr same]

/-- Once the first file has been dealt with, the others are independent still and read what they
read before. -/
theorem Independent.tail (independent : Independent settings tree input output (names :: listed))
    (growth : Extends tree after made
      (writtenFor settings tree (input.descend names) (output.descend names))) :
    Independent settings after input output listed ∧
      ∀ later ∈ listed, after.read (input.descend later) = tree.read (input.descend later) := by
  have apart := List.pairwise_cons.1 independent.apart
  have untouched : ∀ later ∈ listed, tree.placeOf (input.descend later) ∉
      writtenFor settings tree (input.descend names) (output.descend names) :=
    fun later member touched =>
      apart.1 later member (mem_writtenFor.1 touched).1 (mem_writtenFor.1 touched).2.symm
  have reaches := fun later (member : later ∈ listed) =>
    independent.reaches later (List.mem_cons_of_mem _ member)
  have reads : ∀ later ∈ listed,
      after.read (input.descend later) = tree.read (input.descend later) :=
    fun later member => (reaches later member).read_of_extends growth (untouched later member)
  refine ⟨⟨?_, ?_⟩, reads⟩
  · exact fun later member =>
      ((reaches later member).of_extends growth (untouched later member)).1
  · simp only [growth.placeOf]
    refine apart.2.imp_of_mem fun earlier _ unlike => ?_
    rwa [isExpanded_congr (reads _ earlier)]

/-- Files that read what they read before come out as they did before. -/
theorem outcomes_congr {other : Tree} {paths : List Path}
    (same : ∀ path ∈ paths, other.read path = tree.read path) (settings : Settings) :
    outcomes settings other paths = outcomes settings tree paths := by
  induction paths with
  | nil => rfl
  | cons path paths ih =>
    rw [List.forall_mem_cons] at same
    rw [outcomes, outcomes, expandedText_congr same.1, ih same.2]

theorem Writes.cons {between : Tree}
    (one : Extends tree between
      (madeFor settings tree (input.descend names) (output.descend names))
      (writtenFor settings tree (input.descend names) (output.descend names)))
    (here : ∀ result, expandedText settings tree (input.descend names) = .ok (some result) →
      between.entryAt (tree.placeOf (output.descend names)) = some (.file (Text.encode result)))
    (reads : ∀ later ∈ listed,
      between.read (input.descend later) = tree.read (input.descend later))
    (distinct : ∀ later ∈ listed,
      tree.placeOf (output.descend names) ≠ tree.placeOf (output.descend later))
    (others : Writes settings input output listed between after) :
    Writes settings input output (names :: listed) tree after := by
  have grows := others.growth
  have made : (listed.flatMap fun names =>
      madeFor settings between (input.descend names) (output.descend names)) =
      listed.flatMap fun names =>
        madeFor settings tree (input.descend names) (output.descend names) :=
    List.flatMap_congr fun later member => by
      rw [madeFor, madeFor, isExpanded_congr (reads later member), one.wayOf]
  have written : (listed.flatMap fun names =>
      writtenFor settings between (input.descend names) (output.descend names)) =
      listed.flatMap fun names =>
        writtenFor settings tree (input.descend names) (output.descend names) :=
    List.flatMap_congr fun later member => by
      rw [writtenFor, writtenFor, isExpanded_congr (reads later member), one.placeOf]
  rw [made, written] at grows
  refine ⟨one.trans grows, List.forall_mem_cons.2
    ⟨fun result comes => ?_, fun later member result comes => ?_⟩⟩
  · refine (grows.files _ (.file _) nofun ?_).2 (here result comes)
    simp only [List.mem_flatMap, mem_writtenFor, not_exists, not_and]
    exact fun later member _ same => distinct later member same
  · rw [← one.placeOf]
    exact others.contents later member result
      ((expandedText_congr (reads later member) settings).trans comes)

/-- Independent files that are expanded one after another come to what they came to at the start. -/
theorem writes_expandFiles {reports : List FileReport}
    (independent : Independent settings tree input output listed)
    (distinct : listed.Pairwise fun earlier later =>
      tree.placeOf (output.descend earlier) ≠ tree.placeOf (output.descend later))
    (done : (expandFiles settings input output tree listed).result = .ok reports) :
    Writes settings input output listed tree (expandFiles settings input output tree listed).tree ∧
      reports.map FileReport.success =
        listed.map fun names => isExpanded settings tree (input.descend names) := by
  induction listed generalizing tree reports with
  | nil =>
    cases done
    exact ⟨⟨Extends.refl tree, nofun⟩, rfl⟩
  | cons names listed ih =>
    simp only [expandFiles] at done ⊢
    cases reported : (expandFile settings tree (input.descend names)
        (some (output.descend names)) (Text.join ['/'] names)).result with
    | error breakage => simp [reported] at done
    | ok report =>
      simp only [reported] at done ⊢
      rcases extends_expandFile reported with ⟨growth, here, succeeded⟩
      revert done growth here
      generalize (expandFile settings tree (input.descend names)
        (some (output.descend names)) (Text.join ['/'] names)).tree = between
      intro done growth here
      rcases independent.tail growth with ⟨still, reads⟩
      rcases List.pairwise_cons.1 distinct with ⟨unlike, distinct⟩
      cases rest : (expandFiles settings input output between listed).result with
      | error breakage => simp [rest, Except.map] at done
      | ok others =>
        simp only [rest, Except.map, Except.ok.injEq] at done
        rcases ih still (by simpa only [growth.placeOf] using distinct) rest with
          ⟨writes, successes⟩
        refine ⟨Writes.cons growth here reads unlike writes, ?_⟩
        rw [← done, List.map_cons, List.map_cons, succeeded, successes]
        exact congrArg _ (List.map_congr_left fun later member =>
          isExpanded_congr (reads later member) settings)

/-- Where the destination is apart from the input, nothing is written over a source file. -/
theorem independent_of_apart (proper : tree.IsProper)
    (outside : ¬ tree.placeOf input <+: tree.placeOf output)
    (beside : ¬ tree.placeOf output <+: tree.placeOf input) (ending : Text) :
    Independent settings tree input output (tree.search input ending) where
  reaches names found := (proper.reaches_of_mem_search found).2
  apart := by
    refine List.pairwise_of_forall_mem_list fun earlier first later second _ same => ?_
    rw [placeOf_descend _ _ (proper.reaches_of_mem_search first).1,
      placeOf_descend _ _ (proper.reaches_of_mem_search second).1] at same
    have whole := List.prefix_append (tree.placeOf output) earlier
    rw [same] at whole
    rcases List.prefix_or_prefix_of_prefix whole (List.prefix_append _ later) with below | above
    · exact beside below
    · exact outside above

end Many

/-- A directory with a record that is expanded and one that is refused. -/
def sourceDirectory : Tree where
  workingDirectory := []
  entries := [
    (["in"], .directory),
    (["in", "a.py"], .file (Text.encode "@destructure\nclass P: x: A\n")),
    (["in", "b.py"], .file (Text.encode "@destructure\nclass U: y\n"))]

end Command
end OpenRecord
