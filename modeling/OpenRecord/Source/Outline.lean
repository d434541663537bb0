import OpenRecord.Source.Token

namespace OpenRecord
namespace Source

/-!
# Logical lines nested by indentation

An outline is a logical line with the lines of the block below it.  Blank lines and comments that
follow a block belong to its foot as far as the last of them that starts with the indentation of
the block; the others stand above the next line.  A block that ends at the same place as one inside
it takes what the inner block leaves.
-/

/-- A logical line, the lines of its block, and the blank lines at the foot of the block. -/
inductive Outline
  | node (line : LogicalLine) (children : List Outline) (foot : List BlankLine)

def Outline.line : Outline → LogicalLine
  | .node line _ _ => line

def Outline.withAbove (above : List BlankLine) : Outline → Outline
  | .node line children foot => .node { line with above } children foot

/-- Blank lines up to the last one that starts with an indentation, and the others. -/
def splitFoot (indent : Text) (blanks : List BlankLine) : List BlankLine × List BlankLine :=
  let others := blanks.reverse.takeWhile (!indent.isPrefixOf ·.chars)
  (blanks.take (blanks.length - others.length), others.reverse)

/-- The outlines below some place of a file, and the blank lines behind the last of them. -/
structure Forest where
  roots : List Outline
  after : List BlankLine

/-- Put a line in front of what is below it: the deeper lines that follow are its block. -/
def Forest.place (line : LogicalLine) (below : Forest) : Forest :=
  let children := below.roots.takeWhile (line.depth < ·.line.depth)
  let others := below.roots.dropWhile (line.depth < ·.line.depth)
  match children, others with
  | [], _ => ⟨.node line [] [] :: below.roots, below.after⟩
  | first :: _, [] =>
    match splitFoot first.line.indent below.after with
    | (foot, after) => ⟨[.node line children foot], after⟩
  | first :: _, next :: later =>
    match splitFoot first.line.indent next.line.above with
    | (foot, above) => ⟨.node line children foot :: next.withAbove above :: later, below.after⟩

/-- Nest the logical lines of a file. -/
def Forest.ofLines (lines : List LogicalLine) (after : List BlankLine) : Forest :=
  lines.foldr Forest.place ⟨[], after⟩

theorem splitFoot_append (indent : Text) (blanks : List BlankLine) :
    (splitFoot indent blanks).1 ++ (splitFoot indent blanks).2 = blanks := by
  unfold splitFoot
  generalize h : blanks.reverse = back
  have same : blanks = back.reverse := by simp [← h]
  subst same
  simp only [List.length_reverse]
  have parts := List.takeWhile_append_dropWhile (p := fun x : BlankLine =>
    !indent.isPrefixOf x.chars) (l := back)
  generalize hf : back.takeWhile (fun x => !indent.isPrefixOf x.chars) = front at *
  generalize hb : back.dropWhile (fun x => !indent.isPrefixOf x.chars) = rest at *
  subst parts
  simp

end Source
end OpenRecord
