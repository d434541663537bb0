import OpenRecord.Expansion.AddedImports
import OpenRecord.Generation.Collection
import OpenRecord.Record.Extraction

namespace OpenRecord

/-!
# Putting artifacts into a file

The text of an artifact is written with the indentation of its new place and read again as a
statement.  A method stands at the end of the class body, before the lines at its foot, and a type
directly behind the class.
-/

open Source

def Source.Statement.withAbove (above : List Line) : Statement → Statement
  | .simple _ items ending => .simple above items ending
  | .definition head body => .definition { head with above } body
  | .compound (.clause kind _ tokens suite :: later) =>
    .compound (.clause kind above tokens suite :: later)
  | .compound [] => .compound []

/-- The header of a class that gives a block to code with a margin. -/
def hostHeader : Text := "class _:\n"

def firstOfBlock : Statement → Option Statement
  | .definition _ (.block _ _ (first :: _) _) => some first
  | _ => none

/-- Read the text of an artifact as a statement at a given margin. -/
def spliced (unit margin : Text) (artifact : Artifact) : Option Statement :=
  let code := Code.reindent artifact.code unit margin
  if margin = [] then Statement.parse? code
  else (Statement.parse? (hostHeader ++ code)).bind firstOfBlock

/-- Where artifacts go: the indentation unit of the file, the margin of the class, and the empty
lines above a type beside it. -/
structure Site where
  unit : Text
  margin : Text
  separation : Nat

/-- The statements of the artifacts of one placement, each below a number of empty lines. -/
def placed (placement : Placement) (unit margin : Text) (separation : Nat)
    (artifacts : List Artifact) : Option (List Statement) :=
  (artifacts.filter (·.placement = placement)).mapM fun artifact =>
    (spliced unit margin artifact).map (·.withAbove (List.replicate separation .empty))

def Source.Item.ownLine (item : Item) : Statement :=
  .simple [] [{ item with tokens := withoutFirstGap item.tokens, separator := none }] ⟨[], .usual⟩

/-- A class body with statements at its end. A body on the line of the header becomes a block with
one statement on each line. -/
def Source.Suite.appended (unit : Text) (added : List Statement) : Suite → Suite
  | .inline items _ => .block ⟨[], .usual⟩ unit (items.map (·.ownLine) ++ added) []
  | .block opening indent body foot => .block opening indent (body ++ added) foot
  | .cases opening indent clauses foot => .cases opening indent clauses foot

/-- A definition without the decorators that request a capability. -/
def Source.Definition.stripped (head : Source.Definition) : Source.Definition :=
  { head with decorators := head.decorators.filter (·.capability.isNone) }

/-- A class with its artifacts: the class itself, then its types; nothing if the text of an artifact
cannot be read at its new place. -/
def spliceClass (site : Site) (head : Source.Definition) (body : Suite)
    (artifacts : List Artifact) : Option (List Statement) := do
  let methods ← placed .inClass site.unit (site.margin ++ site.unit) 1 artifacts
  let types ← placed .besideClass site.unit site.margin site.separation artifacts
  some (.definition head.stripped (body.appended site.unit methods) :: types)

end OpenRecord
