import OpenRecord.Proofs.Files.Places

namespace OpenRecord
namespace Files
namespace Tree

/-!
# Reading and writing in a growing tree

A file is written in two steps, the directories above it and then the file itself.  Both only let the
tree grow: directories are made at places on the way of the path, and the file stands at the place of
the path.  Whether a file can be written is told from the tree before the first step: nothing on the
way may be a file, and the place itself may be no directory nor become one on the way, and no file that
is closed to the program.

What a path reads is unchanged by growth that writes at other places.
-/

/-! ## The two steps -/

/-- A file can be written exactly if its directory is there, and it is none itself and not closed. -/
theorem write_eq_ok_iff (tree : Tree) {path : Path} {content : List UInt8} {written : Tree} :
    tree.write path content = .ok written ↔
      (∀ passed ∈ tree.wayOf path, tree.entryAt passed = some .directory) ∧
        (tree.entryAt (tree.placeOf path) ≠ some .directory ∧
          tree.entryAt (tree.placeOf path) ≠ some .closed) ∧
        written = tree.put (tree.placeOf path) (.file content) := by
  unfold write
  cases located : tree.locate path with
  | error reason =>
    refine iff_of_false nofun ?_
    rintro ⟨clear, -⟩
    rw [tree.locate_eq_ok_iff.2 ⟨rfl, clear⟩] at located
    cases located
  | ok place =>
    rcases tree.locate_eq_ok_iff.1 located with ⟨rfl, clear⟩
    dsimp only
    rw [and_iff_right clear]
    cases tree.entryAt (tree.placeOf path) with
    | none => simp [eq_comm]
    | some entry => cases entry <;> simp [eq_comm]

/-- Writing a file lets a tree grow. -/
theorem extends_write {tree written : Tree} {path : Path} {content : List UInt8}
    (done : tree.write path content = .ok written) :
    Extends tree written [] [tree.placeOf path] := by
  rcases tree.write_eq_ok_iff.1 done with ⟨-, ⟨free, -⟩, rfl⟩
  exact extends_put_file free content

theorem entryAt_of_write {tree written : Tree} {path : Path} {content : List UInt8}
    (done : tree.write path content = .ok written) :
    written.entryAt (tree.placeOf path) = some (.file content) := by
  rcases tree.write_eq_ok_iff.1 done with ⟨-, ⟨free, -⟩, rfl⟩
  exact tree.entryAt_put _ (ne_nil_of_not_directory tree free)

theorem makeOne_of_through {tree : Tree} {path : Path}
    (through : ∀ passed ∈ tree.wayOf path, tree.entryAt passed = some .directory) :
    tree.makeOne path =
      match tree.entryAt (tree.placeOf path) with
      | none => .ok (tree.put (tree.placeOf path) .directory)
      | some .directory => .ok tree
      | some _ => .error ⟨.alreadyExists, path⟩ := by
  unfold makeOne
  rewrite [tree.locate_eq_ok_iff.2 ⟨rfl, through⟩]
  rfl

theorem exists_makeOne {tree : Tree} {path : Path}
    (through : ∀ passed ∈ tree.wayOf path, tree.entryAt passed = some .directory)
    (clear : tree.hasFileAt (tree.placeOf path) = false) :
    ∃ made, tree.makeOne path = .ok made := by
  rw [makeOne_of_through through]
  rcases tree.hasFileAt_eq_false_iff.1 clear with missing | there
  · exact ⟨_, by rw [missing]⟩
  · exact ⟨_, by rw [there]⟩

/-- A directory that was made, or found, lets a tree grow and stands below directories. -/
theorem extends_makeOne {tree made : Tree} {path : Path} (done : tree.makeOne path = .ok made) :
    Extends tree made [tree.placeOf path] [] ∧
      ∀ passed ∈ tree.wayOf path ++ [tree.placeOf path],
        made.entryAt passed = some .directory := by
  cases located : tree.locate path with
  | error reason => simp [makeOne, located] at done
  | ok place =>
    rcases tree.locate_eq_ok_iff.1 located with ⟨rfl, through⟩
    rw [makeOne_of_through through] at done
    simp only [List.forall_mem_append, List.forall_mem_singleton]
    cases here : tree.entryAt (tree.placeOf path) with
    | none =>
      rw [here] at done
      cases done
      have growth := extends_put_directory here
      exact ⟨growth, fun passed member => growth.stays _ (through passed member),
        tree.entryAt_put _ (ne_nil_of_not_directory tree (by simp [here]))⟩
    | some entry =>
      cases entry with
      | file content => simp [here] at done
      | closed => simp [here] at done
      | directory =>
        rw [here] at done
        cases done
        exact ⟨(Extends.refl tree).mono (List.nil_subset _), through, here⟩

/-- What cannot be made, though no file is in the way, misses a directory above it. -/
theorem reason_of_makeOne {tree : Tree} {path : Path} {fault : AccessFault}
    (clear : ∀ passed ∈ tree.wayOf path ++ [tree.placeOf path], tree.hasFileAt passed = false)
    (failed : tree.makeOne path = .error fault) : fault.reason = .notFound := by
  rw [List.forall_mem_append, List.forall_mem_singleton] at clear
  cases located : tree.locate path with
  | error reason =>
    simp only [makeOne, located, Except.error.injEq] at failed
    rw [← failed]
    exact tree.follow_eq_notFound clear.1 located
  | ok place =>
    rcases exists_makeOne (tree.locate_eq_ok_iff.1 located).2 clear.2 with ⟨made, done⟩
    rw [failed] at done
    cases done

theorem parent_eq_self {path : Path} (unnamed : path.names = []) : path.parent = path := by
  cases path
  simp_all [Path.parent]

theorem visited_parent_subset (tree : Tree) (path : Path) :
    tree.wayOf path.parent ++ [tree.placeOf path.parent] ⊆
      tree.wayOf path ++ [tree.placeOf path] := by
  by_cases named : path.names = []
  · rw [parent_eq_self named]
    exact List.Subset.refl _
  · rw [← tree.wayOf_parent named]
    exact List.subset_append_left _ _

/-- Making directories lets a tree grow on the way. -/
theorem extends_makeUpTo {count : Nat} {tree made : Tree} {path : Path}
    (done : makeUpTo count tree path = .ok made) :
    Extends tree made (tree.wayOf path ++ [tree.placeOf path]) [] := by
  induction count generalizing path made with
  | zero => exact (extends_makeOne done).1.mono (List.subset_append_right _ _)
  | succ count ih =>
    unfold makeUpTo at done
    cases one : tree.makeOne path with
    | ok found =>
      rw [one] at done
      cases done
      exact (extends_makeOne one).1.mono (List.subset_append_right _ _)
    | error fault =>
      simp only [one] at done
      split at done
      · cases above : makeUpTo count tree path.parent with
        | error fault => simp [above] at done
        | ok between =>
          simp only [above] at done
          have first := ih above
          have second := (extends_makeOne done).1
          rw [first.placeOf] at second
          refine (first.trans second).mono (List.append_subset.2 ⟨?_, ?_⟩)
          · exact tree.visited_parent_subset path
          · exact List.subset_append_right _ _
      · cases done

theorem extends_makeDirectories {tree made : Tree} {path : Path} (named : path.names ≠ [])
    (done : tree.makeDirectories path.parent = .ok made) :
    Extends tree made (tree.wayOf path) [] := by
  rw [tree.wayOf_parent named]
  exact extends_makeUpTo done

/-- What is written together with the directories above it lets a tree grow on the way of its path and
stands at its place. -/
theorem extends_write_below {tree made written : Tree} {path : Path} {content : List UInt8}
    (above : tree.makeDirectories path.parent = .ok made)
    (done : made.write path content = .ok written) :
    Extends tree written (tree.wayOf path) [tree.placeOf path] ∧
      written.entryAt (tree.placeOf path) = some (.file content) := by
  have named : path.names ≠ [] := by
    intro unnamed
    have taken : made.entryAt (tree.placeOf path) = some .directory := by
      rw [parent_eq_self unnamed, makeDirectories, unnamed] at above
      exact (extends_makeOne above).2 _ (List.mem_append_right _ (List.mem_singleton_self _))
    have growth := extends_makeUpTo above
    rw [← growth.placeOf] at taken
    exact (made.write_eq_ok_iff.1 done).2.1.1 taken
  have first := extends_makeDirectories named above
  have second := extends_write done
  have here := entryAt_of_write done
  rw [first.placeOf] at second here
  exact ⟨(first.trans second).mono (by simp), here⟩

theorem exists_makeUpTo {count : Nat} {tree : Tree} {path : Path}
    (enough : path.names.length ≤ count)
    (start : tree.entryAt (tree.start path) = some .directory)
    (clear : ∀ passed ∈ tree.wayOf path ++ [tree.placeOf path], tree.hasFileAt passed = false) :
    ∃ made, makeUpTo count tree path = .ok made ∧
      ∀ passed ∈ tree.wayOf path ++ [tree.placeOf path],
        made.entryAt passed = some .directory := by
  have free := clear _ (List.mem_append_right _ (List.mem_singleton_self _))
  by_cases named : path.names = []
  · have through : ∀ passed ∈ tree.wayOf path, tree.entryAt passed = some .directory := by
      simp [wayOf, named, way]
    rcases exists_makeOne through free with ⟨made, done⟩
    exact ⟨made, by cases count <;> simp [makeUpTo, done], (extends_makeOne done).2⟩
  · cases count with
    | zero => exact absurd (List.length_eq_zero_iff.1 (Nat.le_zero.1 enough)) named
    | succ count =>
      cases one : tree.makeOne path with
      | ok made => exact ⟨made, by simp [makeUpTo, one], (extends_makeOne one).2⟩
      | error fault =>
        -- The directory that is missing above is made by the induction.
        have missing := reason_of_makeOne clear one
        have shorter : path.parent.names.length ≤ count := by
          simp only [Path.parent, List.length_dropLast]
          omega
        rcases exists_makeUpTo shorter start
          (fun passed member => clear _ (tree.visited_parent_subset path member)) with
          ⟨between, above, through⟩
        have growth := extends_makeUpTo above
        rw [← tree.wayOf_parent named, ← growth.wayOf] at through
        have still : between.hasFileAt (between.placeOf path) = false := by
          rw [growth.placeOf]
          exact growth.hasFileAt_eq_false List.not_mem_nil free
        rcases exists_makeOne through still with ⟨made, done⟩
        refine ⟨made, by simp [makeUpTo, one, missing, above, done], ?_⟩
        have last := (extends_makeOne done).2
        rwa [growth.wayOf, growth.placeOf] at last

/-! ## What can be written -/

/-- A path behind which a file can be written together with the directories above it. -/
structure CanWrite (tree : Tree) (path : Path) : Prop where
  start : tree.entryAt (tree.start path) = some .directory
  clear : ∀ passed ∈ tree.wayOf path, tree.hasFileAt passed = false
  free : tree.entryAt (tree.placeOf path) ≠ some .directory
  allowed : tree.entryAt (tree.placeOf path) ≠ some .closed
  ahead : tree.placeOf path ∉ tree.wayOf path

instance (tree : Tree) (path : Path) : Decidable (tree.CanWrite path) :=
  decidable_of_iff
    (tree.entryAt (tree.start path) = some .directory ∧
      (∀ passed ∈ tree.wayOf path, tree.hasFileAt passed = false) ∧
      tree.entryAt (tree.placeOf path) ≠ some .directory ∧
      tree.entryAt (tree.placeOf path) ≠ some .closed ∧
      tree.placeOf path ∉ tree.wayOf path)
    ⟨fun ⟨start, clear, free, allowed, ahead⟩ => ⟨start, clear, free, allowed, ahead⟩,
      fun ⟨start, clear, free, allowed, ahead⟩ => ⟨start, clear, free, allowed, ahead⟩⟩

namespace CanWrite

variable {tree : Tree} {path : Path}

theorem named (writable : tree.CanWrite path) : path.names ≠ [] := by
  intro unnamed
  have here : tree.placeOf path = tree.start path := by simp [placeOf, unnamed, flatten]
  exact writable.free (here ▸ writable.start)

theorem exists_write (writable : tree.CanWrite path) (content : List UInt8) :
    ∃ made written, tree.makeDirectories path.parent = .ok made ∧
      made.write path content = .ok written := by
  have visited := tree.wayOf_parent writable.named
  have clear := writable.clear
  rw [visited] at clear
  rcases exists_makeUpTo (Nat.le_refl path.parent.names.length) writable.start clear with
    ⟨made, done, through⟩
  have growth : Extends tree made (tree.wayOf path) [] :=
    extends_makeDirectories writable.named done
  have same : made.entryAt (tree.placeOf path) = tree.entryAt (tree.placeOf path) :=
    growth.entryAt_eq writable.ahead List.not_mem_nil
  refine ⟨made, _, done, made.write_eq_ok_iff.2 ⟨?_, ?_, rfl⟩⟩
  · rwa [growth.wayOf, visited]
  · rw [growth.placeOf, same]
    exact ⟨writable.free, writable.allowed⟩

theorem of_extends {after : Tree} {made written : List (List Text)}
    (writable : tree.CanWrite path) (growth : Extends tree after made written)
    (unmade : tree.placeOf path ∉ made) (unwritten : ∀ passed ∈ tree.wayOf path, passed ∉ written) :
    after.CanWrite path where
  start := by
    rw [growth.start]
    exact growth.stays _ writable.start
  clear := by
    rw [growth.wayOf]
    exact fun passed member =>
      growth.hasFileAt_eq_false (unwritten passed member) (writable.clear passed member)
  free := by
    rw [growth.placeOf]
    exact fun taken => (growth.directories _ taken).elim writable.free unmade
  allowed := by
    rw [growth.placeOf]
    exact mt (growth.closed _) writable.allowed
  ahead := by
    rw [growth.placeOf, growth.wayOf]
    exact writable.ahead

end CanWrite

/-! ## What is read -/

/-- A path gives a content exactly if it leads to a file with this content. -/
theorem read_eq_ok_iff {tree : Tree} {path : Path} {content : List UInt8} :
    tree.read path = .ok content ↔ tree.entry? path = some (.file content) := by
  unfold read entry?
  cases tree.locate path with
  | error reason => simp
  | ok place =>
    dsimp only
    rw [← tree.contentAt_eq_ok_iff]
    cases tree.contentAt place <;> simp [Except.mapError]

/-- A path that leads through directories to an entry. -/
structure Reaches (tree : Tree) (path : Path) : Prop where
  through : ∀ passed ∈ tree.wayOf path, tree.entryAt passed = some .directory
  found : tree.entryAt (tree.placeOf path) ≠ none

namespace Reaches

variable {tree after : Tree} {path : Path} {made written : List (List Text)}

theorem of_extends (reaches : tree.Reaches path) (growth : Extends tree after made written)
    (untouched : tree.placeOf path ∉ written) :
    after.Reaches path ∧ after.entryAt (tree.placeOf path) = tree.entryAt (tree.placeOf path) := by
  have same : after.entryAt (tree.placeOf path) = tree.entryAt (tree.placeOf path) := by
    cases here : tree.entryAt (tree.placeOf path) with
    | none => exact absurd here reaches.found
    | some entry =>
      by_cases directory : entry = .directory
      · rw [directory] at here ⊢
        exact growth.stays _ here
      · exact (growth.files _ _ directory untouched).2 here
  refine ⟨⟨?_, ?_⟩, same⟩
  · rw [growth.wayOf]
    exact fun passed member => growth.stays _ (reaches.through passed member)
  · rw [growth.placeOf, same]
    exact reaches.found

theorem read_eq (reaches : tree.Reaches path) :
    tree.read path = (tree.contentAt (tree.placeOf path)).mapError (⟨·, path⟩) := by
  unfold read
  rw [tree.locate_eq_ok_iff.2 ⟨rfl, reaches.through⟩]

theorem read_of_extends (reaches : tree.Reaches path) (growth : Extends tree after made written)
    (untouched : tree.placeOf path ∉ written) : after.read path = tree.read path := by
  rcases reaches.of_extends growth untouched with ⟨still, same⟩
  rw [still.read_eq, reaches.read_eq, growth.placeOf, contentAt, contentAt, same]

end Reaches

theorem IsProper.reaches_of_mem_search {tree : Tree} (proper : tree.IsProper) {path : Path}
    {ending : Text} {names : List Text} (found : names ∈ tree.search path ending) :
    parentName ∉ names ∧ tree.Reaches (path.descend names) := by
  cases located : tree.locate path with
  | error reason => simp [search, located] at found
  | ok place =>
    rcases tree.locate_eq_ok_iff.1 located with ⟨rfl, through⟩
    rcases (mem_search_iff located).1 found with ⟨-, -, entry, member⟩
    have plain : parentName ∉ names := fun up =>
      proper.named _ member _ (List.mem_append_right _ up) rfl
    refine ⟨plain, ?_, ?_⟩
    · rw [wayOf_descend, List.forall_mem_append]
      refine ⟨through, fun passed below => ?_⟩
      rcases (mem_way_plain plain).1 below with ⟨count, short, rfl⟩
      have above := proper.above _ member ((tree.placeOf path).length + count)
        (by simpa using short)
      rwa [List.take_length_add_append] at above
    · rw [placeOf_descend _ _ plain]
      exact entryAt_ne_none member

theorem IsProper.not_mem_way_of_hasFile {tree : Tree} (proper : tree.IsProper) {path : Path}
    {ending : Text} {names other : List Text} (found : names ∈ tree.search path ending)
    (otherFound : other ∈ tree.search path ending)
    (file : tree.hasFile (path.descend names) = true) (place : List Text) :
    place ++ names ∉ way place other := by
  rcases proper.reaches_of_mem_search found with ⟨plain, reaches⟩
  rcases proper.reaches_of_mem_search otherFound with ⟨otherPlain, otherReaches⟩
  intro onWay
  rcases (mem_way_plain otherPlain).1 onWay with ⟨count, short, same⟩
  rw [List.append_cancel_left_eq] at same
  have directory := otherReaches.through (tree.placeOf (path.descend names)) (by
    rw [wayOf_descend, List.mem_append, mem_way_plain otherPlain, placeOf_descend _ _ plain]
    exact .inr ⟨count, short, by rw [same]⟩)
  have none : tree.entry? (path.descend names) = some .directory := by
    rw [ entry?, tree.locate_eq_ok_iff.2 ⟨rfl, reaches.through⟩]
    exact directory
  simp [hasFile, hasDirectory, none] at file

/-- In a proper tree what a search finds leads to different places from wherever it is followed. -/
theorem IsProper.pairwise_placeOf_descend {tree : Tree} (proper : tree.IsProper)
    (path start : Path) (ending : Text) :
    (tree.search path ending).Pairwise fun earlier later =>
      tree.placeOf (start.descend earlier) ≠ tree.placeOf (start.descend later) := by
  refine (proper.nodup_search path ending).imp_of_mem fun {earlier later} first second different => ?_
  rw [placeOf_descend _ _ (proper.reaches_of_mem_search first).1,
    placeOf_descend _ _ (proper.reaches_of_mem_search second).1, Ne, List.append_cancel_left_eq]
  exact different

end Tree
end Files
end OpenRecord
