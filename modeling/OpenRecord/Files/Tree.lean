import OpenRecord.Files.Path
import OpenRecord.Text.Encoding

namespace OpenRecord
namespace Files

/-!
# File trees

A file tree lists its entries by the names that lead to them from the top.  The top itself is a
directory and has no entry.  A path is followed name by name from the working directory, or from
the top if it has a root; every place on the way has to be a directory.

A file may be closed to the program, which then finds it but can neither read nor write it.  Every
directory can be searched, and new files and directories can be made in it.  Names and paths may be of
any length.
-/

/-- What is found at a place. -/
inductive Entry
  | file (content : List UInt8)
  /-- A file that is there, but not for the program. -/
  | closed
  | directory
deriving DecidableEq

/-- Entries by their places, and the place of the working directory. -/
structure Tree where
  workingDirectory : List Text
  entries : List (List Text × Entry)

/-- Why a place cannot be used as asked. -/
inductive AccessReason
  | notFound
  | alreadyExists
  | notADirectory
  | isADirectory
  | permissionDenied
deriving DecidableEq

namespace AccessReason

def code : AccessReason → Nat
  | .notFound => 2
  | .alreadyExists => 17
  | .notADirectory => 20
  | .isADirectory => 21
  | .permissionDenied => 13

def message : AccessReason → Text
  | .notFound => "No such file or directory"
  | .alreadyExists => "File exists"
  | .notADirectory => "Not a directory"
  | .isADirectory => "Is a directory"
  | .permissionDenied => "Permission denied"

def label : AccessReason → Text
  | .notFound => "FileNotFoundError"
  | .alreadyExists => "FileExistsError"
  | .notADirectory => "NotADirectoryError"
  | .isADirectory => "IsADirectoryError"
  | .permissionDenied => "PermissionError"

end AccessReason

/-- A path that could not be used, and why. -/
structure AccessFault where
  reason : AccessReason
  path : Path
deriving DecidableEq

def AccessFault.message (fault : AccessFault) : Text :=
  "[Errno " ++ Text.decimal fault.reason.code ++ "] " ++ fault.reason.message ++ ": " ++
    fault.path.text.quoted

namespace Tree

def entryAt (tree : Tree) (place : List Text) : Option Entry :=
  match place with
  | [] => some .directory
  | _ => (tree.entries.find? (·.1 == place)).map (·.2)

/-- Follow names from a place.  The place that the last name leads to need not exist. -/
def follow (tree : Tree) : List Text → List Text → Except AccessReason (List Text)
  | place, [] => .ok place
  | place, name :: names =>
    match tree.entryAt place with
    | none => .error .notFound
    | some .directory =>
      tree.follow (if name = parentName then place.dropLast else place ++ [name]) names
    | some _ => .error .notADirectory

def start (tree : Tree) (path : Path) : List Text :=
  match path.root with
  | [] => tree.workingDirectory
  | _ => []

/-- The place that a path leads to. -/
def locate (tree : Tree) (path : Path) : Except AccessReason (List Text) :=
  tree.follow (tree.start path) path.names

def entry? (tree : Tree) (path : Path) : Option Entry :=
  match tree.locate path with
  | .error _ => none
  | .ok place => tree.entryAt place

def holds (tree : Tree) (path : Path) : Bool :=
  (tree.entry? path).isSome

def hasDirectory (tree : Tree) (path : Path) : Bool :=
  tree.entry? path == some .directory

def hasFile (tree : Tree) (path : Path) : Bool :=
  tree.holds path && !tree.hasDirectory path

def contentAt (tree : Tree) (place : List Text) : Except AccessReason (List UInt8) :=
  match tree.entryAt place with
  | none => .error .notFound
  | some .directory => .error .isADirectory
  | some .closed => .error .permissionDenied
  | some (.file content) => .ok content

def read (tree : Tree) (path : Path) : Except AccessFault (List UInt8) :=
  match tree.locate path with
  | .error reason => .error ⟨reason, path⟩
  | .ok place => (tree.contentAt place).mapError (⟨·, path⟩)

/-- The tree with an entry at a place, which takes the position of the one before. -/
def put (tree : Tree) (place : List Text) (entry : Entry) : Tree :=
  if tree.entries.any (·.1 == place) then
    { tree with
      entries := tree.entries.map fun known =>
        if known.1 = place then (place, entry) else known }
  else { tree with entries := tree.entries ++ [(place, entry)] }

/-- The tree with a file at a place and with the directories above it. -/
def putBelow (tree : Tree) (place : List Text) (entry : Entry) : Tree :=
  let above := (List.range (place.length - 1)).map fun count => place.take (count + 1)
  (above.foldl (fun tree place =>
    if (tree.entryAt place).isSome then tree else tree.put place .directory) tree).put place entry

def write (tree : Tree) (path : Path) (content : List UInt8) : Except AccessFault Tree :=
  match tree.locate path with
  | .error reason => .error ⟨reason, path⟩
  | .ok place =>
    match tree.entryAt place with
    | some .directory => .error ⟨.isADirectory, path⟩
    | some .closed => .error ⟨.permissionDenied, path⟩
    | _ => .ok (tree.put place (.file content))

/-- Make a directory whose parent exists, unless it is there already. -/
def makeOne (tree : Tree) (path : Path) : Except AccessFault Tree :=
  match tree.locate path with
  | .error reason => .error ⟨reason, path⟩
  | .ok place =>
    match tree.entryAt place with
    | none => .ok (tree.put place .directory)
    | some .directory => .ok tree
    | some _ => .error ⟨.alreadyExists, path⟩

/-- Make a directory, and first those above it that are missing; at most so many of them. -/
def makeUpTo : Nat → Tree → Path → Except AccessFault Tree
  | 0, tree, path => tree.makeOne path
  | count + 1, tree, path =>
    match tree.makeOne path with
    | .ok made => .ok made
    | .error fault =>
      if fault.reason = .notFound then
        match makeUpTo count tree path.parent with
        | .error fault => .error fault
        | .ok made => made.makeOne path
      else .error fault

/-- Make a directory and those above it, as far as they are missing. -/
def makeDirectories (tree : Tree) (path : Path) : Except AccessFault Tree :=
  makeUpTo path.names.length tree path

/-- The names that lead from a place to the entries below it, at any depth. -/
def below (tree : Tree) (place : List Text) : List (List Text) :=
  tree.entries.filterMap fun known =>
    if place.isPrefixOf known.1 && place.length < known.1.length then
      some (known.1.drop place.length)
    else none

/-- The entries below a path whose names end as asked, in order. -/
def search (tree : Tree) (path : Path) (ending : Text) : List (List Text) :=
  match tree.locate path with
  | .error _ => []
  | .ok place =>
    sortNames ((tree.below place).filter fun names => ending.isSuffixOf (names.getLastD []))

/-- A path without the names that lead up again, followed whether or not anything is there. -/
def flatten : List Text → List Text → List Text
  | place, [] => place
  | place, name :: names =>
    flatten (if name = parentName then place.dropLast else place ++ [name]) names

/-- The directories in which a search from a path upward looks, the nearest first. -/
def upward (tree : Tree) (path : Path) : List (List Text) :=
  let place := flatten (tree.start path) path.names
  (List.range (place.length + 1)).map fun count => place.take (place.length - count)

def hasFileAt (tree : Tree) (place : List Text) : Bool :=
  match tree.entryAt place with
  | none => false
  | some entry => entry != .directory

/-- The nearest directory, from a path upward, with a file of a given name. -/
def nearest (tree : Tree) (path : Path) (name : Text) : Option (List Text) :=
  (tree.upward path).find? fun place => tree.hasFileAt (place ++ [name])

theorem hasFileAt_of_nearest {tree : Tree} {path : Path} {name : Text} {place : List Text}
    (found : tree.nearest path name = some place) : tree.hasFileAt (place ++ [name]) = true :=
  List.find?_some (p := fun place => tree.hasFileAt (place ++ [name])) found

theorem contentAt_eq_ok_iff (tree : Tree) {place : List Text} {content : List UInt8} :
    tree.contentAt place = .ok content ↔ tree.entryAt place = some (.file content) := by
  unfold contentAt
  cases tree.entryAt place with
  | none => simp
  | some entry => cases entry <;> simp

theorem hasFileAt_eq_false_iff (tree : Tree) {place : List Text} :
    tree.hasFileAt place = false ↔
      tree.entryAt place = none ∨ tree.entryAt place = some .directory := by
  unfold hasFileAt
  cases tree.entryAt place with
  | none => simp
  | some entry => simp

theorem entryAt_put (tree : Tree) {place : List Text} (entry : Entry) (h : place ≠ []) :
    (tree.put place entry).entryAt place = some entry := by
  have known : ∀ entries : List (List Text × Entry), entries.any (·.1 == place) = true →
      ((entries.map fun known => if known.1 = place then (place, entry) else known).find?
        (·.1 == place)).map (·.2) = some entry := by
    intro entries
    induction entries with
    | nil => simp
    | cons first later ih =>
      intro found
      by_cases here : first.1 = place
      · simp [here]
      · simp only [List.any_cons, beq_iff_eq, here, Bool.or_eq_true, false_or] at found
        simp only [List.map_cons, here, if_false, List.find?_cons]
        have missed : (first.1 == place) = false := by simp [here]
        simp only [missed]
        exact ih found
  unfold put
  split
  · rename_i found
    unfold entryAt
    split
    · contradiction
    · exact known tree.entries found
  · rename_i missing
    have absent : ∀ member ∈ tree.entries, ¬ (member.1 == place) = true :=
      fun member here found => missing (List.any_eq_true.2 ⟨member, here, found⟩)
    unfold entryAt
    split
    · contradiction
    · simp only [List.find?_append, List.find?_eq_none.2 absent, Option.none_or]
      simp

end Tree
end Files
end OpenRecord
