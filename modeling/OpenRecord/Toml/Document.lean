import OpenRecord.Toml.Scalar

namespace OpenRecord
namespace Toml

/-!
# Configuration files

A file is a sequence of statements: headers, which name the table that the next members go into,
and members.  Three lists of paths are kept beside the table that is built.  A path that was
*opened* by a header, or by the dots of a key in an earlier section, cannot be opened again; a path
behind which a whole array or table was written is *frozen*, and nothing below it can be changed.
-/

/-! ## Values with parts -/

/-- The text behind white space, line ends and comments inside an array. -/
def skipArrayBlanks : Nat → Text → Option Text
  | 0, t => some t
  | fuel + 1, t =>
    match skipLines t with
    | '#' :: rest =>
      match skipComment ('#' :: rest) with
      | none => none
      | some rest => skipArrayBlanks fuel rest
    | rest => some rest

def within (roots : List (List Text)) (path : List Text) : Bool :=
  roots.any (·.isPrefixOf path)

/-- Whether a value has parts, so that nothing can be added behind it. -/
def Value.closed : Value → Bool
  | .array _ => true
  | .table _ => true
  | _ => false

mutual

def valueWithFuel : Nat → Text → Option (Value × Text)
  | 0, _ => none
  | _ + 1, [] => none
  | fuel + 1, c :: rest =>
    if c = '[' then
      match skipArrayBlanks rest.length rest with
      | some (']' :: rest) => some (.array [], rest)
      | some rest =>
        match itemsWithFuel fuel rest with
        | none => none
        | some (items, rest) => some (.array items, rest)
      | none => none
    else if c = '\x7b' then
      match skipBlanks rest with
      | '\x7d' :: rest => some (.table [], rest)
      | rest =>
        match membersWithFuel fuel [] [] rest with
        | none => none
        | some (members, rest) => some (.table members, rest)
    else scalar (c :: rest)

def itemsWithFuel : Nat → Text → Option (List Value × Text)
  | 0, _ => none
  | fuel + 1, t =>
    match valueWithFuel fuel t with
    | none => none
    | some (item, rest) =>
      match skipArrayBlanks rest.length rest with
      | some (']' :: rest) => some ([item], rest)
      | some (',' :: rest) =>
        match skipArrayBlanks rest.length rest with
        | some (']' :: rest) => some ([item], rest)
        | some rest =>
          match itemsWithFuel fuel rest with
          | none => none
          | some (items, rest) => some (item :: items, rest)
        | none => none
      | _ => none

/-- The members of a table on one line up to its end, given those before and their frozen paths. -/
def membersWithFuel : Nat → List (List Text) → Table → Text → Option (Table × Text)
  | 0, _, _, _ => none
  | fuel + 1, frozen, members, t =>
    match key t with
    | none => none
    | some (path, '=' :: rest) =>
      match valueWithFuel fuel (skipBlanks rest) with
      | none => none
      | some (value, rest) =>
        if within frozen path then none
        else match Table.modify false (Table.insertNew (path.getLastD []) value) path.dropLast
            members with
          | none => none
          | some members =>
            match skipBlanks rest with
            | '\x7d' :: rest => some (members, rest)
            | ',' :: rest =>
              membersWithFuel fuel (if value.closed then path :: frozen else frozen) members
                (skipBlanks rest)
            | _ => none
    | some _ => none

end

def value (t : Text) : Option (Value × Text) :=
  valueWithFuel (t.length + 1) t

/-! ## Statements -/

/-- What is known of a file while its statements are read. -/
structure Draft where
  table : Table
  opened : List (List Text)
  frozen : List (List Text)
  /-- Paths that the keys of the present section have opened; they close with the section. -/
  pending : List (List Text)
  /-- The path of the present section. -/
  header : List Text

namespace Draft

/-- A file of which nothing has been read. -/
def empty : Draft :=
  ⟨[], [], [], [], []⟩

def closeSection (draft : Draft) : Draft :=
  { draft with opened := draft.pending ++ draft.opened, pending := [] }

/-- The draft with a new section for a table. -/
def openTable (draft : Draft) (path : List Text) : Option Draft :=
  if draft.opened.contains path || within draft.frozen path then none
  else match Table.modify true some path draft.table with
    | none => none
    | some table => some { draft with table, opened := path :: draft.opened, header := path }

/-- The draft with a new section for one more item of an array of tables.  What was known of the
paths below belongs to the item before. -/
def openItem (draft : Draft) (path : List Text) : Option Draft :=
  if within draft.frozen path then none
  else match Table.modify true (Table.appendTable (path.getLastD [])) path.dropLast draft.table with
    | none => none
    | some table =>
      some { draft with
        table
        opened := path :: draft.opened.filter fun other => !path.isPrefixOf other
        frozen := draft.frozen.filter fun other => !path.isPrefixOf other
        header := path }

/-- The paths, without the last, that the names of a key lead through. -/
def steps (header : List Text) (path : List Text) : List (List Text) :=
  (List.range (path.length - 1)).map fun count => header ++ path.take (count + 1)

/-- The draft with one more member of the present section. -/
def addMember (draft : Draft) (path : List Text) (value : Value) : Option Draft :=
  let way := steps draft.header path
  let parent := draft.header ++ path.dropLast
  if way.any draft.opened.contains || within draft.frozen parent then none
  else match Table.modify true (Table.insertNew (path.getLastD []) value) parent draft.table with
    | none => none
    | some table =>
      some { draft with
        table
        pending := way ++ draft.pending
        frozen := if value.closed then (draft.header ++ path) :: draft.frozen else draft.frozen }

end Draft

/-- One statement, from its first character that is not blank. -/
def statement (draft : Draft) : Text → Option (Draft × Text)
  | [] => some (draft, [])
  | '[' :: '[' :: rest =>
    match key (skipBlanks rest) with
    | some (path, ']' :: ']' :: rest) =>
      (draft.closeSection.openItem path).map fun draft => (draft, rest)
    | _ => none
  | '[' :: rest =>
    match key (skipBlanks rest) with
    | some (path, ']' :: rest) =>
      (draft.closeSection.openTable path).map fun draft => (draft, rest)
    | _ => none
  | c :: rest =>
    if c = '\n' ∨ c = '#' then some (draft, c :: rest)
    else match key (c :: rest) with
      | some (path, '=' :: rest) =>
        match value (skipBlanks rest) with
        | none => none
        | some (value, rest) => (draft.addMember path value).map fun draft => (draft, rest)
      | _ => none

/-- The statements of a file, one a line, each with white space and a comment after it. -/
def statements : Nat → Draft → Text → Option Draft
  | 0, _, _ => none
  | fuel + 1, draft, t =>
    match statement draft (skipBlanks t) with
    | none => none
    | some (draft, rest) =>
      match skipComment (skipBlanks rest) with
      | some [] => some draft
      | some ('\n' :: rest) => statements fuel draft rest
      | _ => none

/-- A carriage return before a line feed is part of the line end. -/
def joinLineEnds : Text → Text
  | '\r' :: '\n' :: rest => '\n' :: joinLineEnds rest
  | c :: rest => c :: joinLineEnds rest
  | [] => []

/-- The table that a configuration file denotes, if it is well formed. -/
def parse? (t : Text) : Option Table :=
  (statements (t.length + 1) .empty (joinLineEnds t)).map (·.table)

end Toml
end OpenRecord
