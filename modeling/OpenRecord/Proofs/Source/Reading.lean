import OpenRecord.Source.Tree

namespace OpenRecord
namespace Source

/-!
# Reading nested lines

The steps from logical lines to statements, seen one at a time: what placing a line in front of
others makes of it, what the header of a definition is read as, and what becomes of a definition and
the decorator above it when parts are grouped.
-/

/-- Putting a line in front of other lines makes it the first root, with the deeper lines that
follow it below it and the others behind it, of which the first may lose lines above it.  Without a
block there is no foot. -/
theorem Forest.roots_place (line : LogicalLine) (below : Forest) :
    ∃ foot others, (Forest.place line below).roots =
        .node line (below.roots.takeWhile (line.depth < ·.line.depth)) foot :: others ∧
      (below.roots.takeWhile (line.depth < ·.line.depth) = [] → foot = []) ∧
      (others = below.roots.dropWhile (line.depth < ·.line.depth) ∨
        ∃ next later above, below.roots.dropWhile (line.depth < ·.line.depth) = next :: later ∧
          others = next.withAbove above :: later) := by
  unfold Forest.place
  cases children : below.roots.takeWhile (line.depth < ·.line.depth) with
  | nil =>
    have all := List.takeWhile_append_dropWhile (p := (line.depth < ·.line.depth))
      (l := below.roots)
    rw [children, List.nil_append] at all
    exact ⟨[], below.roots, rfl, fun _ => rfl, .inl all.symm⟩
  | cons first later =>
    cases behind : below.roots.dropWhile (line.depth < ·.line.depth) with
    | nil => exact ⟨_, [], rfl, nofun, .inl rfl⟩
    | cons next others =>
      exact ⟨_, _, rfl, nofun, .inr ⟨next, others, _, rfl, rfl⟩⟩

/-- What the header of a definition is read as with the lines below it: a definition without
decorators, whose block, if it has one, is what these lines are read as. -/
theorem read_of_definition {line : LogicalLine} {children : List Outline} {foot : List BlankLine}
    {part : Part} {role : Role} {front : List Token} {items : List Item}
    (readable : readLine false line.tokens = some (.header (.definition role) front items))
    (read : (Outline.node line children foot).read false = some part) :
    ∃ head suite, part = .definition head suite ∧ head.role = role ∧ head.decorators = [] ∧
      ∀ opening indent body below, suite = .block opening indent body below →
        ∃ parts, readOutlines false children = some parts ∧ assemble [] [] parts = some body := by
  rw [Outline.read] at read
  rcases Option.bind_eq_some_iff.1 read with ⟨header, found, made⟩
  cases readable.symm.trans found
  cases items with
  | nil =>
    dsimp only at made
    split at made
    · cases made
    · rcases Option.bind_eq_some_iff.1 made with ⟨parts, inner, made⟩
      rcases Option.bind_eq_some_iff.1 made with ⟨body, assembled, made⟩
      cases made
      refine ⟨_, _, rfl, rfl, rfl, ?_⟩
      rintro _ _ _ _ same
      cases same
      exact ⟨parts, inner, assembled⟩
  | cons first later =>
    dsimp only at made
    split at made
    · cases made
    · cases made
      refine ⟨_, _, rfl, rfl, rfl, ?_⟩
      rintro _ _ _ _ same
      cases same

theorem assemble_definition {decorators : List Decorator} {head : Definition} {body : Suite}
    {parts : List Part} {statements : List Statement}
    (assembled : assemble decorators [] (.definition head body :: parts) = some statements) :
    ∃ others, statements = .definition (head.decorated decorators) body :: others := by
  simp only [assemble, closeClauses, Option.bind_eq_bind, Option.bind_some,
    List.nil_append] at assembled
  rcases Option.bind_eq_some_iff.1 assembled with ⟨others, -, same⟩
  exact ⟨others, (Option.some.inj same).symm⟩

/-- A decorator at the start is kept for the definition that follows it. -/
theorem assemble_decorator (decorator : Decorator) (parts : List Part) :
    assemble [] [] (.decorator decorator :: parts) = assemble [decorator] [] parts := by
  simp only [assemble, closeClauses, Option.bind_eq_bind, Option.bind_some, List.nil_append]
  cases assemble [decorator] [] parts <;> rfl

theorem readStatements_eq_some {lines : List LogicalLine} {after : List BlankLine}
    {header footer : List Line} {statements : List Statement} {first : Outline}
    {later : List Outline} (roots : (Forest.ofLines lines after).roots = first :: later)
    (read : readStatements lines after = some (header, statements, footer)) :
    ∃ parts, readOutlines false (first.withAbove [] :: later) = some parts ∧
      assemble [] [] parts = some statements := by
  unfold readStatements at read
  generalize Forest.ofLines lines after = forest at roots read
  rcases forest with ⟨found, behind⟩
  cases roots
  dsimp only at read
  split at read
  · cases read
  · rcases Option.bind_eq_some_iff.1 read with ⟨parts, found, read⟩
    rcases Option.bind_eq_some_iff.1 read with ⟨body, assembled, same⟩
    cases same
    exact ⟨parts, found, assembled⟩

end Source
end OpenRecord
