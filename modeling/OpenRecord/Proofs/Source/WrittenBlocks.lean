import Mathlib.Order.Monotone.Basic
import OpenRecord.Proofs.Source.LineScanning
import OpenRecord.Proofs.Source.Margins
import OpenRecord.Proofs.Source.WrittenLines
import OpenRecord.Source.Tree

namespace OpenRecord
namespace Source

/-!
# Reading the blocks that were written

Logical lines that stand at the level of their block, with empty lines at most between them, are nested
as they were written, and are read as statements if the decorators stand above definitions and the
clauses belong together.  Only the outline of what is read is described here: which lines are statements,
decorators, definitions and clauses, and which blocks they have.
-/

/-! ## Shapes -/

/-- What a line with its block contributes to the statements around it. -/
inductive PartShape
  | statement
  | decorator
  | definition
  | clause (kind : ClauseKind)

def Part.shape : Part → PartShape
  | .statement _ => .statement
  | .decorator _ => .decorator
  | .definition _ _ => .definition
  | .clause next => .clause next.kind

/-- Shapes that make up statements: a decorator stands directly above a definition, and clauses are tests
without another case, or clean-ups. -/
inductive Grouped : List PartShape → Prop
  | none : Grouped []
  | statement {later : List PartShape} : Grouped later → Grouped (.statement :: later)
  | definition {later : List PartShape} : Grouped later → Grouped (.definition :: later)
  | decorated {later : List PartShape} : Grouped later → Grouped (.decorator :: .definition :: later)
  | test {later : List PartShape} : Grouped later → Grouped (.clause .ifClause :: later)
  | cleanup {later : List PartShape} : Grouped later →
    Grouped (.clause .tryClause :: .clause .finallyClause :: later)

theorem Grouped.append {front back : List PartShape} (first : Grouped front) (second : Grouped back) :
    Grouped (front ++ back) := by
  induction first with
  | none => exact second
  | statement _ ih => exact .statement ih
  | definition _ ih => exact .definition ih
  | decorated _ ih => exact .decorated ih
  | test _ ih => exact .test ih
  | cleanup _ ih => exact .cleanup ih

/-- Clauses that are complete: no other one has to follow, and none that may come first does. -/
def Completed (clauses : List Clause) : Prop :=
  clauses.map (·.kind) ∈ [[], [.ifClause], [.tryClause, .finallyClause]]

theorem Completed.exists_closed {clauses : List Clause} (completed : Completed clauses) :
    ∃ closed, closeClauses clauses = some closed := by
  simp only [Completed, List.mem_cons, List.not_mem_nil, or_false, List.map_eq_nil_iff,
    List.map_eq_cons_iff] at completed
  rcases completed with rfl | ⟨only, _, rfl, kind, rfl⟩ | ⟨first, _, rfl, -, second, _, rfl, -, rfl⟩
  · exact ⟨_, rfl⟩
  · exact ⟨_, if_neg (by simp [kind])⟩
  · exact ⟨_, rfl⟩

theorem Completed.extendsClauses_eq_false {clauses : List Clause} (completed : Completed clauses)
    {next : Clause} (opens : next.kind = .ifClause ∨ next.kind = .tryClause) :
    extendsClauses clauses next = false := by
  simp only [Completed, List.mem_cons, List.not_mem_nil, or_false, List.map_eq_nil_iff,
    List.map_eq_cons_iff] at completed
  rcases completed with rfl | ⟨only, _, rfl, kind, rfl⟩ |
    ⟨first, _, rfl, kind, second, _, rfl, last, rfl⟩
  · rfl
  · rcases opens with opens | opens <;> simp [extendsClauses, kind, opens, ClauseKind.follows]
  · rcases opens with opens | opens <;> simp [extendsClauses, kind, last, opens, ClauseKind.follows]

/-- Parts of grouped shapes are put together. -/
theorem Grouped.isSome_assemble {shapes : List PartShape} (grouped : Grouped shapes) {parts : List Part}
    (shaped : parts.map (·.shape) = shapes) {clauses : List Clause} (completed : Completed clauses) :
    (assemble [] clauses parts).isSome = true := by
  have fresh : Completed [] := by simp [Completed]
  have isClause : ∀ {part : Part} {kind}, part.shape = .clause kind →
      ∃ next : Clause, part = .clause next ∧ next.kind = kind := by
    intro part kind same
    cases part <;> cases same
    exact ⟨_, rfl, rfl⟩
  rcases completed.exists_closed with ⟨closed, close⟩
  induction grouped generalizing parts clauses closed with
  | none =>
    rw [List.map_eq_nil_iff] at shaped
    subst shaped
    simp [assemble, close]
  | statement _ ih =>
    rcases List.map_eq_cons_iff.1 shaped with ⟨part, parts, rfl, same, shaped⟩
    rcases Option.isSome_iff_exists.1 (ih shaped fresh [] rfl) with ⟨others, put⟩
    cases part <;> cases same
    simp [assemble, close, put]
  | definition _ ih =>
    rcases List.map_eq_cons_iff.1 shaped with ⟨part, parts, rfl, same, shaped⟩
    rcases Option.isSome_iff_exists.1 (ih shaped fresh [] rfl) with ⟨others, put⟩
    cases part <;> cases same
    simp [assemble, close, put]
  | decorated _ ih =>
    rcases List.map_eq_cons_iff.1 shaped with ⟨part, parts, rfl, same, shaped⟩
    rcases List.map_eq_cons_iff.1 shaped with ⟨second, parts, rfl, next, shaped⟩
    rcases Option.isSome_iff_exists.1 (ih shaped fresh [] rfl) with ⟨others, put⟩
    have none_closed : closeClauses [] = some [] := rfl
    cases part <;> cases same
    cases second <;> cases next
    simp [assemble, close, none_closed, put]
  | test _ ih =>
    rcases List.map_eq_cons_iff.1 shaped with ⟨part, parts, rfl, same, rest⟩
    rcases isClause same with ⟨next, rfl, kind⟩
    have alone : Completed [next] := by simp [Completed, kind]
    rcases alone.exists_closed with ⟨others, closing⟩
    rcases Option.isSome_iff_exists.1 (ih rest alone others closing) with ⟨behind, put⟩
    simp [assemble, completed.extendsClauses_eq_false (.inl kind), kind, ClauseKind.opens, close, put]
  | cleanup _ ih =>
    rcases List.map_eq_cons_iff.1 shaped with ⟨part, parts, rfl, same, more⟩
    rcases List.map_eq_cons_iff.1 more with ⟨second, parts, rfl, last, rest⟩
    rcases isClause same with ⟨next, rfl, kind⟩
    rcases isClause last with ⟨final, rfl, ends⟩
    have both : Completed [next, final] := by simp [Completed, kind, ends]
    rcases both.exists_closed with ⟨others, closing⟩
    rcases Option.isSome_iff_exists.1 (ih rest both others closing) with ⟨behind, put⟩
    have goes : extendsClauses [next] final = true := by
      simp [extendsClauses, kind, ends, ClauseKind.follows]
    simp [assemble, completed.extendsClauses_eq_false (.inr kind), goes, kind, ClauseKind.opens,
      close, put]

/-! ## Nested lines -/

/-- A line at the level of its block.  Nothing but empty lines stand above it. -/
structure LogicalLine.StandsAt (line : LogicalLine) (depth : Nat) : Prop where
  level : line.depth = depth
  indent : line.indent = [] → depth = 0
  above : ∀ blank ∈ line.above, blank.chars = []

/-- Outlines behind which only empty lines stand. -/
structure Forest.Clean (below : Forest) : Prop where
  above : ∀ root ∈ below.roots, ∀ blank ∈ root.line.above, blank.chars = []
  after : ∀ blank ∈ below.after, blank.chars = []

/-- Headers that have a block. -/
inductive Heads : Head → PartShape → Prop
  | definition (role : Role) : Heads (.definition role) .definition
  | clause {kind : ClauseKind} : kind ≠ .matchClause → Heads (.clause kind) (.clause kind)

/-- Lines that are written at a level and above, and the shapes of those that stand at it. -/
inductive Lays : Nat → List LogicalLine → List PartShape → Prop
  | none (depth : Nat) : Lays depth [] []
  | item {depth : Nat} {line : LogicalLine} {form : Form} {later : List LogicalLine}
    {shapes : List PartShape} :
    line.StandsAt depth → IsItem form line.tokens → Lays depth later shapes →
    Lays depth (line :: later) (.statement :: shapes)
  | decorator {depth : Nat} {line : LogicalLine} {value : Expression} {later : List LogicalLine}
    {shapes : List PartShape} :
    line.StandsAt depth → IsHeader (.decorator value) line.tokens → Lays depth later shapes →
    Lays depth (line :: later) (.decorator :: shapes)
  | block {depth : Nat} {line : LogicalLine} {head : Head} {shape : PartShape}
    {inner later : List LogicalLine} {body shapes : List PartShape} :
    line.StandsAt depth → IsHeader head line.tokens → Heads head shape →
    Lays (depth + 1) inner body → Grouped body → body ≠ [] → Lays depth later shapes →
    Lays depth (line :: (inner ++ later)) (shape :: shapes)

theorem Outline.withAbove_self (outline : Outline) :
    outline.withAbove outline.line.above = outline := by
  cases outline
  rfl

/-- Blank lines without characters all belong to what follows. -/
theorem splitFoot_of_empty {indent : Text} (indented : indent ≠ []) {blanks : List BlankLine}
    (empty : ∀ blank ∈ blanks, blank.chars = []) : splitFoot indent blanks = ([], blanks) := by
  have all : blanks.reverse.takeWhile (!indent.isPrefixOf ·.chars) = blanks.reverse := by
    refine List.takeWhile_eq_self_iff.2 fun blank member => ?_
    rw [empty blank (List.mem_reverse.1 member)]
    cases indent with
    | nil => exact absurd rfl indented
    | cons => rfl
  unfold splitFoot
  simp [all]

theorem Forest.place_of_clean (line : LogicalLine) {below : Forest} (clean : below.Clean)
    (inner : List Outline) {others : List Outline} (parts : below.roots = inner ++ others)
    (deeper : ∀ root ∈ inner, line.depth < root.line.depth ∧ root.line.indent ≠ [])
    (shallow : ∀ root ∈ others.head?, root.line.depth ≤ line.depth) :
    Forest.place line below = ⟨.node line inner [] :: others, below.after⟩ := by
  have goes : ∀ root ∈ inner, decide (line.depth < root.line.depth) = true :=
    fun root member => decide_eq_true (deeper root member).1
  have stops : others.takeWhile (line.depth < ·.line.depth) = [] ∧
      others.dropWhile (line.depth < ·.line.depth) = others := by
    cases others with
    | nil => exact ⟨rfl, rfl⟩
    | cons root others =>
      have level := Nat.not_lt.2 (shallow root rfl)
      simp [level]
  have front : below.roots.takeWhile (line.depth < ·.line.depth) = inner := by
    rw [parts, List.takeWhile_append_of_pos goes, stops.1, List.append_nil]
  have back : below.roots.dropWhile (line.depth < ·.line.depth) = others := by
    rw [parts, List.dropWhile_append_of_pos goes, stops.2]
  unfold Forest.place
  dsimp only
  rw [front, back]
  cases inner with
  | nil => rw [parts, List.nil_append]
  | cons first inner =>
    have indented := (deeper first (List.mem_cons_self ..)).2
    cases others with
    | nil =>
      dsimp only
      rw [splitFoot_of_empty indented clean.after]
    | cons next others =>
      have member : next ∈ below.roots := by simp [parts]
      dsimp only
      rw [splitFoot_of_empty indented (clean.above next member)]
      dsimp only
      rw [Outline.withAbove_self]

/-! ## Outlines -/

/-- Outlines at a level that are read as parts of certain shapes. -/
structure Nests (depth : Nat) (outlines : List Outline) (shapes : List PartShape) : Prop where
  standing : ∀ outline ∈ outlines, outline.line.StandsAt depth
  reads : ∃ parts, readOutlines false outlines = some parts ∧ parts.map (·.shape) = shapes

theorem Nests.cons {depth : Nat} {line : LogicalLine} {children later : List Outline}
    {shape : PartShape} {shapes : List PartShape} (nests : Nests depth later shapes)
    (standing : line.StandsAt depth)
    (own : ∃ part, (Outline.node line children []).read false = some part ∧ part.shape = shape) :
    Nests depth (.node line children [] :: later) (shape :: shapes) := by
  rcases own with ⟨part, read, rfl⟩
  rcases nests.reads with ⟨parts, others, shaped⟩
  refine ⟨List.forall_mem_cons.2 ⟨standing, nests.standing⟩, part :: parts, ?_, ?_⟩
  · rw [readOutlines, read, others]
    rfl
  · rw [List.map_cons, shaped]

theorem Forest.Clean.append {below : Forest} (clean : below.Clean) {depth : Nat}
    {outlines : List Outline} (standing : ∀ outline ∈ outlines, outline.line.StandsAt depth) :
    Forest.Clean ⟨outlines ++ below.roots, below.after⟩ :=
  ⟨List.forall_mem_append.2 ⟨fun outline member => (standing outline member).above, clean.above⟩,
    clean.after⟩

theorem Nests.head_le {depth : Nat} {outlines others : List Outline} {shapes : List PartShape}
    (nests : Nests depth outlines shapes)
    (shallow : ∀ root ∈ others.head?, root.line.depth ≤ depth) :
    ∀ root ∈ (outlines ++ others).head?, root.line.depth ≤ depth := by
  cases outlines with
  | nil => exact shallow
  | cons first outlines =>
    rintro _ ⟨⟩
    exact (nests.standing first (List.mem_cons_self ..)).level.le

theorem exists_read_of_heads {line : LogicalLine} {head : Head} {shape : PartShape}
    (header : IsHeader head line.tokens) (heads : Heads head shape) {children : List Outline}
    {parts : List Part} {body : List Statement} (read : readOutlines false children = some parts)
    (put : assemble [] [] parts = some body) (solid : children ≠ []) :
    ∃ part, (Outline.node line children []).read false = some part ∧ part.shape = shape := by
  have filled : children.isEmpty = false := by simp [solid]
  unfold IsHeader at header
  cases heads with
  | definition role =>
    rw [Outline.read, header]
    simp only [Option.bind_eq_bind, Option.bind_some, filled, read, put]
    exact ⟨_, rfl, rfl⟩
  | @clause kind other =>
    cases kind
    case matchClause => exact absurd rfl other
    all_goals
      rw [Outline.read, header]
      simp only [Option.bind_eq_bind, Option.bind_some, filled, read, put]
      exact ⟨_, rfl, rfl⟩

/-- A line without a block stands in front of the outlines at its level. -/
theorem Nests.exists_cons {depth : Nat} {line : LogicalLine} {later : List LogicalLine}
    {outlines : List Outline} {shape : PartShape} {shapes : List PartShape} {below : Forest}
    (nests : Nests depth outlines shapes) (clean : below.Clean)
    (shallow : ∀ root ∈ below.roots.head?, root.line.depth ≤ depth)
    (folded : later.foldr Forest.place below = ⟨outlines ++ below.roots, below.after⟩)
    (standing : line.StandsAt depth)
    (own : ∃ part, (Outline.node line [] []).read false = some part ∧ part.shape = shape) :
    ∃ outlines, (line :: later).foldr Forest.place below = ⟨outlines ++ below.roots, below.after⟩ ∧
      Nests depth outlines (shape :: shapes) := by
  have placed := Forest.place_of_clean line (clean.append nests.standing) [] rfl
    nofun (standing.level ▸ nests.head_le shallow)
  refine ⟨.node line [] [] :: outlines, ?_, nests.cons standing own⟩
  rw [List.foldr_cons, folded, placed]
  rfl

/-- Written lines are nested as outlines of their shapes, in front of those below them. -/
theorem Lays.exists_nests {depth : Nat} {lines : List LogicalLine} {shapes : List PartShape}
    (lays : Lays depth lines shapes) {below : Forest} (clean : below.Clean)
    (shallow : ∀ root ∈ below.roots.head?, root.line.depth ≤ depth) :
    ∃ outlines, lines.foldr Forest.place below = ⟨outlines ++ below.roots, below.after⟩ ∧
      Nests depth outlines shapes := by
  induction lays generalizing below with
  | none depth => exact ⟨[], rfl, nofun, [], rfl, rfl⟩
  | @item depth line form later shapes standing reads _ ih =>
    rcases ih clean shallow with ⟨outlines, folded, nests⟩
    refine nests.exists_cons clean shallow folded standing ?_
    unfold IsItem at reads
    rw [Outline.read, reads]
    exact ⟨_, rfl, rfl⟩
  | @decorator depth line value later shapes standing reads _ ih =>
    rcases ih clean shallow with ⟨outlines, folded, nests⟩
    refine nests.exists_cons clean shallow folded standing ?_
    unfold IsHeader at reads
    rw [Outline.read, reads]
    exact ⟨_, rfl, rfl⟩
  | @block depth line head shape inner later body shapes standing reads heads _ grouped solid _ ih ih' =>
    rcases ih' clean shallow with ⟨others, folded, nests⟩
    have behind := nests.head_le shallow
    rcases ih (clean.append nests.standing) fun root member => (behind root member).trans
      (Nat.le_succ depth) with ⟨children, foldedInner, nestsInner⟩
    have deeper : ∀ root ∈ children, line.depth < root.line.depth ∧ root.line.indent ≠ [] := by
      intro root member
      have stands := nestsInner.standing root member
      rw [standing.level, stands.level]
      exact ⟨Nat.lt_succ_self depth, fun empty => Nat.succ_ne_zero depth (stands.indent empty)⟩
    have placed := Forest.place_of_clean line
      ((clean.append nests.standing).append nestsInner.standing) children rfl deeper
      (standing.level ▸ behind)
    rcases nestsInner.reads with ⟨parts, read, shaped⟩
    have fresh : Completed [] := by simp [Completed]
    rcases Option.isSome_iff_exists.1 (grouped.isSome_assemble shaped fresh) with ⟨statements, put⟩
    have filled : children ≠ [] := by
      rintro rfl
      cases read
      exact solid shaped.symm
    refine ⟨.node line children [] :: others, ?_,
      nests.cons standing (exists_read_of_heads reads heads read put filled)⟩
    rw [List.foldr_cons, List.foldr_append, folded, foldedInner, placed]
    rfl

/-! ## Statements -/

theorem Forest.place_withAbove (line : LogicalLine) (above : List BlankLine) (below : Forest) :
    Forest.place { line with above } below =
      ⟨(Forest.place line below).roots.modifyHead (·.withAbove above),
        (Forest.place line below).after⟩ := by
  unfold Forest.place
  dsimp only
  generalize below.roots.takeWhile (line.depth < ·.line.depth) = children
  generalize below.roots.dropWhile (line.depth < ·.line.depth) = others
  cases children <;> cases others <;> rfl

theorem Lays.withAbove {depth : Nat} {line : LogicalLine} {later : List LogicalLine}
    {shapes : List PartShape} (lays : Lays depth (line :: later) shapes) :
    Lays depth ({ line with above := [] } :: later) shapes := by
  have raised : ∀ {line : LogicalLine}, line.StandsAt depth →
      LogicalLine.StandsAt { line with above := [] } depth :=
    fun standing => ⟨standing.level, standing.indent, nofun⟩
  cases lays with
  | item standing reads others => exact .item (raised standing) reads others
  | decorator standing reads others => exact .decorator (raised standing) reads others
  | block standing reads heads inner grouped solid others =>
    exact .block (raised standing) reads heads inner grouped solid others

/-- One definition, perhaps with a decorator, is put together as one statement. -/
theorem exists_assemble_definition {parts : List Part}
    (shaped : parts.map (·.shape) ∈ [[.definition], [.decorator, .definition]]) :
    ∃ statement, assemble [] [] parts = some [statement] := by
  simp only [List.mem_cons, List.not_mem_nil, or_false] at shaped
  rcases shaped with shaped | shaped
  · rcases List.map_eq_singleton_iff.1 shaped with ⟨part, rfl, same⟩
    cases part <;> cases same
    exact ⟨_, rfl⟩
  · rcases List.map_eq_cons_iff.1 shaped with ⟨part, others, rfl, same, rest⟩
    rcases List.map_eq_singleton_iff.1 rest with ⟨second, rfl, next⟩
    cases part <;> cases same
    cases second <;> cases next
    exact ⟨_, rfl⟩

/-- Lines that make up one definition are read as one statement. -/
theorem Lays.exists_statement {lines : List LogicalLine} {shapes : List PartShape}
    (lays : Lays 0 lines shapes) (one : shapes ∈ [[.definition], [.decorator, .definition]])
    {after : List BlankLine} (empty : ∀ blank ∈ after, blank.chars = []) :
    ∃ header statement footer, readStatements lines after = some (header, [statement], footer) := by
  have filled : shapes ≠ [] := by
    rintro rfl
    simp at one
  cases lines with
  | nil =>
    cases lays
    exact absurd rfl filled
  | cons line later =>
    have clean : Forest.Clean ⟨[], after⟩ := ⟨nofun, empty⟩
    rcases lays.withAbove.exists_nests clean nofun with ⟨outlines, folded, nests⟩
    rw [List.foldr_cons, Forest.place_withAbove, Forest.mk.injEq, List.append_nil] at folded
    rcases nests.reads with ⟨parts, read, shaped⟩
    rw [← shaped] at one
    rcases exists_assemble_definition one with ⟨statement, put⟩
    have level : ∀ root ∈ outlines, (root.line.depth != 0) = false := by
      intro root member
      simp [(nests.standing root member).level]
    unfold readStatements Forest.ofLines
    rw [List.foldr_cons]
    rcases placed : Forest.place line (later.foldr Forest.place ⟨[], after⟩) with
      ⟨_ | ⟨first, others⟩, behind⟩
    all_goals rw [placed] at folded
    · cases folded.1
      cases read
      exact absurd shaped.symm filled
    · have same : first.withAbove [] :: others = outlines := folded.1
      have flat : (first :: others).any (fun root => root.line.depth != 0) = false := by
        rw [← same] at level
        cases first
        simpa [Outline.withAbove, Outline.line] using level
      dsimp only
      rw [flat, same, read]
      simp only [Option.bind_eq_bind, Option.bind_some, put]
      exact ⟨_, _, _, rfl⟩

end Source
end OpenRecord
