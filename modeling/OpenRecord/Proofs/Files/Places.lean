import Mathlib.Data.List.Nodup
import OpenRecord.Files.Tree

namespace OpenRecord
namespace Files

/-!
# Places in a file tree

The place that a path leads to depends on the working directory alone, provided that every place
passed on the way is a directory.  So a path keeps its place while a tree grows, and whether it can be
followed is a question about the places on its way.

In a proper tree every entry has a place of its own, and stands in a directory.  A search from a
directory of such a tree finds exactly the entries below it, each at the place where going on from
the directory along its names leads.
-/

namespace Tree

/-! ## The way of a path -/

/-- The place that a path leads to if it can be followed. -/
def placeOf (tree : Tree) (path : Path) : List Text :=
  flatten (tree.start path) path.names

/-- The places that are passed when names are followed from a place; the last one is not among
them. -/
def way : List Text → List Text → List (List Text)
  | _, [] => []
  | place, name :: names =>
    place :: way (if name = parentName then place.dropLast else place ++ [name]) names

/-- The places that are passed on the way of a path. -/
def wayOf (tree : Tree) (path : Path) : List (List Text) :=
  way (tree.start path) path.names

theorem follow_eq_ok_iff (tree : Tree) {place names reached : List Text} :
    tree.follow place names = .ok reached ↔
      reached = flatten place names ∧
        ∀ passed ∈ way place names, tree.entryAt passed = some .directory := by
  induction names generalizing place with
  | nil =>
    simp only [follow, flatten, way, List.not_mem_nil, false_implies, implies_true, and_true]
    exact ⟨fun same => (Except.ok.inj same).symm, fun same => congrArg Except.ok same.symm⟩
  | cons name names ih =>
    simp only [follow, flatten, way, List.forall_mem_cons]
    cases here : tree.entryAt place with
    | none => simp
    | some entry =>
      cases entry with
      | file content => simp
      | closed => simp
      | directory => simp [ih]

/-- Names that cannot be followed, though no file is on the way, lead through a place that is not
there. -/
theorem follow_eq_notFound (tree : Tree) {place names : List Text} {reason : AccessReason}
    (clear : ∀ passed ∈ way place names, tree.hasFileAt passed = false)
    (failed : tree.follow place names = .error reason) : reason = .notFound := by
  induction names generalizing place with
  | nil => cases failed
  | cons name names ih =>
    simp only [way, List.forall_mem_cons, hasFileAt_eq_false_iff] at clear ih
    simp only [follow] at failed
    rcases clear with ⟨missing | there, clear⟩
    · rw [missing] at failed
      exact (Except.error.inj failed).symm
    · rw [there] at failed
      exact ih clear failed

theorem locate_eq_ok_iff (tree : Tree) {path : Path} {place : List Text} :
    tree.locate path = .ok place ↔
      place = tree.placeOf path ∧
        ∀ passed ∈ tree.wayOf path, tree.entryAt passed = some .directory :=
  tree.follow_eq_ok_iff

/-- Following names in two parts. -/
theorem flatten_append (place front back : List Text) :
    flatten place (front ++ back) = flatten (flatten place front) back := by
  induction front generalizing place with
  | nil => rfl
  | cons name front ih => exact ih _

/-- The way along names in two parts. -/
theorem way_append (place front back : List Text) :
    way place (front ++ back) = way place front ++ way (flatten place front) back := by
  induction front generalizing place with
  | nil => rfl
  | cons name front ih => exact congrArg _ (ih _)

theorem flatten_plain {names : List Text} (plain : parentName ∉ names) (place : List Text) :
    flatten place names = place ++ names := by
  induction names generalizing place with
  | nil => simp [flatten]
  | cons name names ih =>
    rw [List.mem_cons, not_or] at plain
    rw [flatten, if_neg (Ne.symm plain.1), ih plain.2, List.append_assoc]
    rfl

/-- Along names that do not lead up one passes the place with each proper front of them. -/
theorem mem_way_plain {names : List Text} (plain : parentName ∉ names) {place passed : List Text} :
    passed ∈ way place names ↔ ∃ count < names.length, passed = place ++ names.take count := by
  induction names generalizing place with
  | nil => simp [way]
  | cons name names ih =>
    rw [List.mem_cons, not_or] at plain
    rw [way, if_neg (Ne.symm plain.1), List.mem_cons, ih plain.2]
    constructor
    · rintro (same | ⟨count, short, same⟩)
      · exact ⟨0, Nat.succ_pos _, by simpa using same⟩
      · exact ⟨count + 1, Nat.succ_lt_succ short, by simpa using same⟩
    · rintro ⟨count, short, same⟩
      cases count with
      | zero => exact .inl (by simpa using same)
      | succ count => exact .inr ⟨count, Nat.lt_of_succ_lt_succ short, by simpa using same⟩

/-- Going on from a path along names that do not lead up. -/
theorem placeOf_descend (tree : Tree) (path : Path) {names : List Text}
    (plain : parentName ∉ names) :
    tree.placeOf (path.descend names) = tree.placeOf path ++ names :=
  (flatten_append _ _ _).trans (flatten_plain plain _)

theorem wayOf_descend (tree : Tree) (path : Path) (names : List Text) :
    tree.wayOf (path.descend names) = tree.wayOf path ++ way (tree.placeOf path) names :=
  way_append _ _ _

theorem wayOf_parent (tree : Tree) {path : Path} (named : path.names ≠ []) :
    tree.wayOf path = tree.wayOf path.parent ++ [tree.placeOf path.parent] := by
  have whole : path.parent.descend [path.names.getLast named] = path := by
    simp [Path.parent, Path.descend, List.dropLast_concat_getLast]
  rw [← whole, wayOf_descend]
  simp [Path.parent, Path.descend, way]

/-! ## What is put where -/

theorem entryAt_put_other (tree : Tree) {place other : List Text} (entry : Entry)
    (different : other ≠ place) : (tree.put place entry).entryAt other = tree.entryAt other := by
  have replaced : ∀ entries : List (List Text × Entry),
      ((entries.map fun known => if known.1 = place then (place, entry) else known).find?
        (·.1 == other)).map (·.2) = (entries.find? (·.1 == other)).map (·.2) := by
    intro entries
    induction entries with
    | nil => rfl
    | cons first later ih =>
      by_cases here : first.1 = place
      · have missed : (place == other) = false := by simp [Ne.symm different]
        simp only [List.map_cons, here, if_true, List.find?_cons, missed]
        exact ih
      · simp only [List.map_cons, here, if_false, List.find?_cons]
        cases first.1 == other
        · exact ih
        · rfl
  have missed : (place == other) = false := by simp [Ne.symm different]
  unfold entryAt put
  split
  · rfl
  · split
    · exact replaced tree.entries
    · simp [List.find?_append, missed]

/-- What grows: directories stay, new ones are at given places, and files change at others only.  No
file becomes closed. -/
structure Extends (before after : Tree) (made written : List (List Text)) : Prop where
  workingDirectory : after.workingDirectory = before.workingDirectory
  stays : ∀ place, before.entryAt place = some .directory → after.entryAt place = some .directory
  directories : ∀ place, after.entryAt place = some .directory →
    before.entryAt place = some .directory ∨ place ∈ made
  closed : ∀ place, after.entryAt place = some .closed → before.entryAt place = some .closed
  files : ∀ place entry, entry ≠ .directory → place ∉ written →
    (after.entryAt place = some entry ↔ before.entryAt place = some entry)

namespace Extends

variable {before between after : Tree} {made madeLater written writtenLater : List (List Text)}

theorem refl (tree : Tree) : Extends tree tree [] [] :=
  ⟨rfl, fun _ => id, fun _ => .inl, fun _ => id, fun _ _ _ _ => .rfl⟩

theorem trans (first : Extends before between made written)
    (second : Extends between after madeLater writtenLater) :
    Extends before after (made ++ madeLater) (written ++ writtenLater) where
  workingDirectory := second.workingDirectory.trans first.workingDirectory
  stays place here := second.stays place (first.stays place here)
  directories place here := by
    rw [List.mem_append]
    rcases second.directories place here with here | new
    · exact (first.directories place here).imp_right .inl
    · exact .inr (.inr new)
  closed place here := first.closed place (second.closed place here)
  files place entry file untouched := by
    rw [List.mem_append, not_or] at untouched
    exact (second.files place entry file untouched.2).trans
      (first.files place entry file untouched.1)

theorem mono (growth : Extends before after made written) (wider : made ⊆ madeLater) :
    Extends before after madeLater written where
  workingDirectory := growth.workingDirectory
  stays := growth.stays
  directories place here := (growth.directories place here).imp_right fun new => wider new
  closed := growth.closed
  files := growth.files

/-- What is at a place stays as it is if no directory is made and no file written there. -/
theorem entryAt_eq (growth : Extends before after made written) {place : List Text}
    (unmade : place ∉ made) (unwritten : place ∉ written) :
    after.entryAt place = before.entryAt place := by
  have same : ∀ entry, after.entryAt place = some entry ↔ before.entryAt place = some entry := by
    intro entry
    by_cases directory : entry = .directory
    · rw [directory]
      exact ⟨fun here => (growth.directories place here).resolve_right unmade, growth.stays place⟩
    · exact growth.files place entry directory unwritten
  exact Option.ext fun entry => by simpa using same entry

theorem hasFileAt_eq_false (growth : Extends before after made written) {place : List Text}
    (unwritten : place ∉ written) (clear : before.hasFileAt place = false) :
    after.hasFileAt place = false := by
  rw [hasFileAt_eq_false_iff] at clear ⊢
  cases here : after.entryAt place with
  | none => exact .inl rfl
  | some entry =>
    by_cases directory : entry = .directory
    · exact .inr (congrArg some directory)
    · have there := (growth.files place entry directory unwritten).1 here
      rcases clear with missing | found
      · cases missing.symm.trans there
      · cases found.symm.trans there
        exact absurd rfl directory

theorem start (growth : Extends before after made written) (path : Path) :
    after.start path = before.start path := by
  unfold Tree.start
  rw [growth.workingDirectory]

theorem placeOf (growth : Extends before after made written) (path : Path) :
    after.placeOf path = before.placeOf path := by
  unfold Tree.placeOf
  rw [growth.start]

theorem wayOf (growth : Extends before after made written) (path : Path) :
    after.wayOf path = before.wayOf path := by
  unfold Tree.wayOf
  rw [growth.start]

end Extends

theorem ne_nil_of_not_directory (tree : Tree) {place : List Text}
    (free : tree.entryAt place ≠ some .directory) : place ≠ [] := by
  rintro rfl
  exact free rfl

theorem extends_put_directory {tree : Tree} {place : List Text}
    (absent : tree.entryAt place = none) :
    Extends tree (tree.put place .directory) [place] [] := by
  have inner : place ≠ [] := ne_nil_of_not_directory tree (by simp [absent])
  refine ⟨by unfold put; split <;> rfl, ?_, ?_, ?_, ?_⟩
  · intro other here
    by_cases same : other = place
    · rw [same, entryAt_put tree _ inner]
    · rwa [entryAt_put_other tree _ same]
  · intro other here
    by_cases same : other = place
    · exact .inr (List.mem_singleton.2 same)
    · exact .inl (by rwa [entryAt_put_other tree _ same] at here)
  · intro other here
    by_cases same : other = place
    · rw [same, entryAt_put tree _ inner] at here
      cases here
    · rwa [entryAt_put_other tree _ same] at here
  · intro other entry file _
    by_cases same : other = place
    · rw [same, entryAt_put tree _ inner, absent]
      simp [Ne.symm file]
    · rw [entryAt_put_other tree _ same]

theorem extends_put_file {tree : Tree} {place : List Text}
    (free : tree.entryAt place ≠ some .directory) (content : List UInt8) :
    Extends tree (tree.put place (.file content)) [] [place] := by
  have inner : place ≠ [] := ne_nil_of_not_directory tree free
  refine ⟨by unfold put; split <;> rfl, ?_, ?_, ?_, ?_⟩
  · intro other here
    have different : other ≠ place := by
      rintro rfl
      exact free here
    rwa [entryAt_put_other tree _ different]
  · intro other here
    by_cases same : other = place
    · rw [same, entryAt_put tree _ inner] at here
      cases here
    · exact .inl (by rwa [entryAt_put_other tree _ same] at here)
  · intro other here
    by_cases same : other = place
    · rw [same, entryAt_put tree _ inner] at here
      cases here
    · rwa [entryAt_put_other tree _ same] at here
  · intro other entry _ untouched
    rw [entryAt_put_other tree _ (by simpa using untouched)]

/-! ## Proper trees -/

/-- A tree as a file system has it: no two entries are at one place, the names of an entry are no way
up, and every entry stands in a directory. -/
structure IsProper (tree : Tree) : Prop where
  distinct : (tree.entries.map (·.1)).Nodup
  named : ∀ known ∈ tree.entries, ∀ name ∈ known.1, name ≠ parentName
  above : ∀ known ∈ tree.entries, ∀ count < known.1.length,
    tree.entryAt (known.1.take count) = some .directory

instance (tree : Tree) : Decidable tree.IsProper :=
  decidable_of_iff
    ((tree.entries.map (·.1)).Nodup ∧
      (∀ known ∈ tree.entries, ∀ name ∈ known.1, name ≠ parentName) ∧
      ∀ known ∈ tree.entries, ∀ count < known.1.length,
        tree.entryAt (known.1.take count) = some .directory)
    ⟨fun ⟨distinct, named, above⟩ => ⟨distinct, named, above⟩,
      fun ⟨distinct, named, above⟩ => ⟨distinct, named, above⟩⟩

theorem entryAt_ne_none {tree : Tree} {known : List Text × Entry} (member : known ∈ tree.entries) :
    tree.entryAt known.1 ≠ none := by
  unfold entryAt
  split
  · simp
  · rw [Ne, Option.map_eq_none_iff, List.find?_eq_none]
    intro missing
    exact missing known member (by simp)

theorem perm_insertNames (names : List Text) (lists : List (List Text)) :
    (insertNames names lists).Perm (names :: lists) := by
  induction lists with
  | nil => exact .refl _
  | cons first later ih =>
    unfold insertNames
    split
    · exact .refl _
    · exact (ih.cons first).trans (.swap names first later)

/-- Sorting changes the order alone. -/
theorem perm_sortNames (lists : List (List Text)) : (sortNames lists).Perm lists := by
  induction lists with
  | nil => exact .refl _
  | cons first later ih => exact (perm_insertNames first _).trans (ih.cons first)

/-- A search finds the names that lead from its start to entries whose names end as asked. -/
theorem mem_search_iff {tree : Tree} {path : Path} {place : List Text} {ending : Text}
    {names : List Text} (located : tree.locate path = .ok place) :
    names ∈ tree.search path ending ↔
      names ≠ [] ∧ ending <:+ names.getLastD [] ∧
        ∃ entry, (place ++ names, entry) ∈ tree.entries := by
  unfold search below
  rw [located]
  simp only [mem_sortNames, List.mem_filter, List.mem_filterMap, Option.ite_none_right_eq_some,
    Option.some.injEq, Bool.and_eq_true, decide_eq_true_eq, List.isPrefixOf_iff_prefix,
    List.isSuffixOf_iff_suffix]
  constructor
  · rintro ⟨⟨known, member, ⟨⟨rest, whole⟩, longer⟩, rfl⟩, ends⟩
    rw [← whole] at longer ends ⊢
    simp only [List.drop_left, List.length_append] at longer ends ⊢
    refine ⟨?_, ends, known.2, by rw [whole]; exact member⟩
    rintro rfl
    simp at longer
  · rintro ⟨named, ends, entry, member⟩
    refine ⟨⟨_, member, ⟨List.prefix_append _ _, ?_⟩, by simp⟩, ends⟩
    have := List.length_pos_iff.2 named
    simp
    omega

theorem IsProper.nodup_search {tree : Tree} (proper : tree.IsProper) (path : Path) (ending : Text) :
    (tree.search path ending).Nodup := by
  unfold search
  split
  · exact List.nodup_nil
  · rename_i place located
    refine ((perm_sortNames _).nodup_iff).2 (List.Nodup.filter _ ?_)
    -- The names below a place determine the place that they lead to from there.
    have whole : (tree.below place).map (place ++ ·) =
        (tree.entries.map (·.1)).filter fun known =>
          place.isPrefixOf known && place.length < known.length := by
      unfold below
      induction tree.entries with
      | nil => rfl
      | cons known entries ih =>
        rw [List.filterMap_cons, List.map_cons, List.filter_cons]
        by_cases inside : (place.isPrefixOf known.1 && place.length < known.1.length) = true
        · have joined : place ++ known.1.drop place.length = known.1 := by
            rw [Bool.and_eq_true, List.isPrefixOf_iff_prefix] at inside
            rcases inside.1 with ⟨rest, same⟩
            rw [← same, List.drop_left]
          rw [if_pos inside, if_pos inside, List.map_cons, ih, joined]
        · rw [if_neg inside, if_neg inside, ih]
    exact List.Nodup.of_map _ (whole ▸ proper.distinct.filter _)

end Tree
end Files
end OpenRecord
