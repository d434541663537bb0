import OpenRecord.Text.Basic

namespace OpenRecord
namespace Files

/-!
# Paths

A path is a root, which is empty for a relative path, and names to follow from there.  Reading a
path drops empty names and the name of one dot, so that a path has one written form; two dots are
kept, because what they mean depends on the directory they are followed in.
-/

structure Path where
  root : Text
  names : List Text
deriving DecidableEq

/-- The name that leads to the directory above. -/
def parentName : Text := ['.', '.']

namespace Path

/-- The root that a path starts with.  Two slashes are a root of their own, more count as one. -/
def readRoot : Text → Text
  | '/' :: '/' :: '/' :: _ => ['/']
  | '/' :: '/' :: _ => ['/', '/']
  | '/' :: _ => ['/']
  | _ => []

def ofText (t : Text) : Path where
  root := readRoot t
  names := (Text.split '/' t).filter fun name => name ≠ [] && name ≠ ['.']

/-- The path that leads to a place from the top. -/
def ofPlace (place : List Text) : Path :=
  ⟨['/'], place⟩

/-- A path as a text; the empty path is written as a dot. -/
def text (path : Path) : Text :=
  match path.root ++ Text.join ['/'] path.names with
  | [] => ['.']
  | written => written

def name (path : Path) : Text :=
  path.names.getLastD []

def parent (path : Path) : Path :=
  { path with names := path.names.dropLast }

def descend (path : Path) (names : List Text) : Path :=
  { path with names := path.names ++ names }

/-- Going on from a path to names and taking the last of them away again. -/
theorem parent_descend (path : Path) (names : List Text) (last : Text) :
    (path.descend (names ++ [last])).parent = path.descend names := by
  simp [parent, descend, ← List.append_assoc]

end Path

/-! ## The order of paths -/

/-- Whether a text comes before another one or is the same, character by character. -/
def textPrecedes : Text → Text → Bool
  | [], _ => true
  | _ :: _, [] => false
  | a :: s, b :: t => decide (a.toNat < b.toNat) || (a == b && textPrecedes s t)

/-- Whether names come before others or are the same, name by name. -/
def namesPrecede : List Text → List Text → Bool
  | [], _ => true
  | _ :: _, [] => false
  | a :: s, b :: t => if a = b then namesPrecede s t else textPrecedes a b

/-- A list of names put into its place in a sorted list. -/
def insertNames (names : List Text) : List (List Text) → List (List Text)
  | [] => [names]
  | first :: later =>
    if namesPrecede names first then names :: first :: later
    else first :: insertNames names later

def sortNames (lists : List (List Text)) : List (List Text) :=
  lists.foldr insertNames []

theorem mem_insertNames {names other : List Text} {lists : List (List Text)} :
    other ∈ insertNames names lists ↔ other = names ∨ other ∈ lists := by
  induction lists with
  | nil => simp [insertNames]
  | cons first later ih =>
    unfold insertNames
    split
    · simp
    · simp only [List.mem_cons, ih]
      exact or_left_comm

theorem mem_sortNames {names : List Text} {lists : List (List Text)} :
    names ∈ sortNames lists ↔ names ∈ lists := by
  induction lists with
  | nil => rfl
  | cons first later ih =>
    change names ∈ insertNames first (sortNames later) ↔ _
    rw [mem_insertNames, ih, List.mem_cons]

end Files
end OpenRecord
