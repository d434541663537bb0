import OpenRecord.Proofs.Code.LevelLines
import OpenRecord.Proofs.Source.WrittenBlocks
import OpenRecord.Proofs.Source.WrittenLevels

namespace OpenRecord
namespace Code

/-!
# Emitted lines that can be read

Emitted lines are rows and blocks.  A row is a logical line: it may go on over several lines, and at
every level it is scanned as tokens of which the same is known.  A block is a header with deeper lines
below it.  Lines of this kind are read as they were emitted, with four spaces for each level or wherever
else levels are written by indentations that rise.
-/

open Source

/-! ## Places -/

/-- How an emitted line is written at a level of some place: behind the indentation of the level, with
the levels that it has itself counted on, and not at all if it is empty. -/
structure Placing (level : Nat → Text) (place : Nat → Text → Text) : Prop where
  levels : Levels level
  empty : ∀ depth, place depth [] = []
  solid : ∀ depth {line : Text}, line ≠ [] → line.head? ≠ some ' ' →
    place depth line = level depth ++ line
  deeper : ∀ depth {line : Text}, line ≠ [] → place depth (indentUnit ++ line) = place (depth + 1) line
  chars : ∀ depth (line : Text), ∀ c ∈ place depth line, Text.isIndent c = true ∨ c ∈ line

/-- A line with some levels in front of it. -/
def emittedAt (depth : Nat) (line : Text) : Text :=
  if line = [] then [] else repeated indentUnit depth ++ line

theorem measure_spaces (count : Nat) :
    Indentation.measure (List.replicate count ' ') = ⟨List.replicate count ' ', count, count⟩ := by
  have onward : ∀ (count : Nat) (sofar : Indentation),
      (List.replicate count ' ').foldl Indentation.measure.step sofar =
        ⟨sofar.chars, sofar.wide + count, sofar.narrow + count⟩ := by
    intro count
    induction count with
    | zero => exact fun sofar => rfl
    | succ count ih =>
      intro sofar
      have one : Indentation.measure.step sofar ' ' =
        ⟨sofar.chars, sofar.wide + 1, sofar.narrow + 1⟩ := rfl
      rw [List.replicate_succ, List.foldl_cons, one, ih, Nat.add_assoc, Nat.add_assoc,
        Nat.add_comm 1]
  rw [Indentation.measure, onward, Nat.zero_add]

theorem levels_repeated : Levels (repeated indentUnit) where
  base := rfl
  blank := blank_repeated fun _ member => List.eq_of_mem_replicate (n := 4) member ▸ rfl
  wide _ _ deeper := by
    simp only [repeated_indentUnit, measure_spaces]
    exact Nat.mul_lt_mul_of_pos_right deeper (by decide)
  narrow _ _ deeper := by
    simp only [repeated_indentUnit, measure_spaces]
    exact Nat.mul_lt_mul_of_pos_right deeper (by decide)

theorem placing_emittedAt : Placing (repeated indentUnit) emittedAt where
  levels := levels_repeated
  empty _ := rfl
  solid depth line solid _ := if_neg solid
  deeper depth line solid := by
    rw [emittedAt, if_neg (by simp [indentUnit]), emittedAt, if_neg solid, repeated_add,
      List.append_assoc]
    rfl
  chars depth line c member := by
    unfold emittedAt at member
    split at member
    · cases member
    · exact (List.mem_append.1 member).imp_left (levels_repeated.blank depth c)

theorem Placing.map_indent {level : Nat → Text} {place : Nat → Text → Text}
    (placing : Placing level place) (lines : List Text) (depth : Nat) :
    (indent lines 1).map (place depth) = lines.map (place (depth + 1)) := by
  rw [indent, List.map_map]
  refine List.map_congr_left fun line _ => ?_
  dsimp only [Function.comp]
  split
  case isTrue empty => rw [empty, placing.empty, placing.empty]
  case isFalse solid =>
    have unit : repeated indentUnit 1 = indentUnit := rfl
    rw [unit, placing.deeper depth solid]

/-! ## Rows and blocks -/

/-- Each line with a line feed behind it. -/
def feeds (lines : List Text) : Text :=
  lines.flatMap (· ++ ['\n'])

/-- A line and those that it goes on with. -/
def joined (first : Text) (more : List Text) : Text :=
  first ++ more.flatMap ('\n' :: ·)

theorem feeds_cons_append (first : Text) (more later : List Text) :
    feeds (first :: (more ++ later)) = joined first more ++ '\n' :: feeds later := by
  induction more generalizing first with
  | nil => simp [feeds, joined]
  | cons second more ih =>
    have rest := ih second
    simp only [feeds, joined, List.cons_append, List.flatMap_cons, List.append_assoc] at rest ⊢
    rw [rest]
    simp

/-- Lines that are a logical line of which something is known, wherever they are placed. -/
structure IsRow (place : Nat → Text → Text) (first : Text) (more : List Text)
    (known : List Token → Prop) : Prop where
  starts : Begins StartsToken first
  scans : ∀ depth, ScansAs [] [] (· = '\n') (joined first (more.map (place depth))) known

/-- Emitted lines that are rows and blocks, and the shapes of what stands at the outermost level. -/
inductive CodeLines (place : Nat → Text → Text) : List Text → List PartShape → Prop
  | none : CodeLines place [] []
  | empty {lines : List Text} {shapes : List PartShape} : CodeLines place lines shapes →
    CodeLines place ([] :: lines) shapes
  | item {first : Text} {more later : List Text} {shapes : List PartShape} :
    IsRow place first more (fun tokens => ∃ form, IsItem form tokens) →
    CodeLines place later shapes → CodeLines place (first :: (more ++ later)) (.statement :: shapes)
  | decorator {first : Text} {later : List Text} {shapes : List PartShape} :
    IsRow place first [] (fun tokens => ∃ value, IsHeader (.decorator value) tokens) →
    CodeLines place later shapes → CodeLines place (first :: later) (.decorator :: shapes)
  | block {first : Text} {inner later : List Text} {shape : PartShape} {body shapes : List PartShape} :
    IsRow place first [] (fun tokens => ∃ head, Heads head shape ∧ IsHeader head tokens) →
    CodeLines place inner body → Grouped body → body ≠ [] → CodeLines place later shapes →
    CodeLines place (first :: (indent inner 1 ++ later)) (shape :: shapes)

theorem CodeLines.append {place : Nat → Text → Text} {front back : List Text}
    {first second : List PartShape} (one : CodeLines place front first)
    (two : CodeLines place back second) : CodeLines place (front ++ back) (first ++ second) := by
  induction one with
  | none => exact two
  | empty _ ih => exact .empty ih
  | item row _ ih =>
    rw [List.cons_append, List.append_assoc]
    exact .item row ih
  | decorator row _ ih => exact .decorator row ih
  | block row inner grouped solid _ _ ih =>
    rw [List.cons_append, List.append_assoc]
    exact .block row inner grouped solid ih

/-! ## Scanning -/

/-- A place in a text at which a line of a level may come next. -/
structure Ready (level : Nat → Text) (depth : Nat) (scan : LineScan) : Prop where
  near : ∃ inner, depth ≤ inner + 1 ∧ scan.stack = stackAt level inner
  above : ∀ blank ∈ scan.above, blank.chars = []

section Scanning

variable {level : Nat → Text} {place : Nat → Text → Text} (placing : Placing level place)

include placing

/-- A row is scanned as one line at its level. -/
theorem IsRow.exists_reads {first : Text} {more later : List Text} {known : List Token → Prop}
    (row : IsRow place first more known) (usual : Text) {depth : Nat} {scan : LineScan}
    (ready : Ready level depth scan) {rest : Text}
    (shape : scan.text = feeds ((first :: (more ++ later)).map (place depth)) ++ rest) :
    ∃ line : LogicalLine, line.StandsAt depth ∧ known line.tokens ∧ ∃ next : LineScan,
      LineScan.Reads usual scan [line] next ∧ next.stack = stackAt level depth ∧ next.above = [] ∧
        next.text = feeds (later.map (place depth)) ++ rest := by
  rcases row.starts.exists_cons with ⟨c, chars, rfl, start⟩
  have other : (c :: chars).head? ≠ some ' ' := by
    rintro ⟨⟩
    cases start.solid
  have written : scan.text = level depth ++ (joined (c :: chars) (more.map (place depth)) ++
      '\n' :: (feeds (later.map (place depth)) ++ rest)) := by
    rw [shape, List.map_cons, List.map_append, feeds_cons_append, placing.solid depth (by simp) other]
    simp [joined]
  rcases ready.near with ⟨inner, near, stacked⟩
  rcases scan.reads_row usual placing.levels near stacked (row.scans depth) written with
    ⟨line, holds, above, indent, standing, number, reads⟩
  have base : line.indent = [] → depth = 0 := by
    intro empty
    rw [indent, ← placing.levels.base] at empty
    exact placing.levels.wide.injective (congrArg (fun blanks => (Indentation.measure blanks).wide) empty)
  exact ⟨line, ⟨standing, base, above ▸ ready.above⟩, holds, _, reads, rfl, rfl, rfl⟩

/-- Emitted lines are scanned, at every level, as lines of the shapes that they were emitted for. -/
theorem CodeLines.exists_reads {lines : List Text} {shapes : List PartShape}
    (code : CodeLines place lines shapes) (usual : Text) {depth : Nat} {scan : LineScan}
    (ready : Ready level depth scan) {rest : Text}
    (shape : scan.text = feeds (lines.map (place depth)) ++ rest) :
    ∃ found next, LineScan.Reads usual scan found next ∧ next.text = rest ∧
      Ready level depth next ∧ Lays depth found shapes := by
  induction code generalizing depth scan rest with
  | none => exact ⟨[], scan, .done scan, shape, ready, .none depth⟩
  | @empty lines shapes _ ih =>
    have written : scan.text = '\n' :: (feeds (lines.map (place depth)) ++ rest) := by
      rw [shape, List.map_cons, placing.empty]
      rfl
    rcases LineScan.reads_empty usual written with ⟨line, nothing, number, reads⟩
    have ready' : Ready level depth ⟨number, scan.stack, scan.above ++ [line],
        feeds (lines.map (place depth)) ++ rest⟩ :=
      ⟨ready.near, List.forall_mem_append.2 ⟨ready.above, List.forall_mem_singleton.2 nothing⟩⟩
    rcases ih ready' rfl with ⟨found, next, later, behind, ready, lays⟩
    exact ⟨found, next, reads.append later, behind, ready, lays⟩
  | item row _ ih =>
    rcases row.exists_reads placing usual ready shape with
      ⟨line, standing, ⟨form, own⟩, next, reads, stacked, above, written⟩
    have ready' : Ready level depth next := ⟨⟨depth, Nat.le_succ depth, stacked⟩, by simp [above]⟩
    rcases ih ready' written with ⟨found, behind, later, left, ready, lays⟩
    exact ⟨line :: found, behind, reads.append later, left, ready, .item standing own lays⟩
  | decorator row _ ih =>
    rcases row.exists_reads placing usual ready shape with
      ⟨line, standing, ⟨value, own⟩, next, reads, stacked, above, written⟩
    have ready' : Ready level depth next := ⟨⟨depth, Nat.le_succ depth, stacked⟩, by simp [above]⟩
    rcases ih ready' written with ⟨found, behind, later, left, ready, lays⟩
    exact ⟨line :: found, behind, reads.append later, left, ready, .decorator standing own lays⟩
  | @block first inner later _ body shapes row _ grouped solid _ ih ih' =>
    have headed : scan.text =
        feeds ((first :: ([] ++ (indent inner 1 ++ later))).map (place depth)) ++ rest := shape
    rcases row.exists_reads placing usual ready headed with
      ⟨line, standing, ⟨head, heads, own⟩, next, reads, stacked, above, written⟩
    have ready' : Ready level (depth + 1) next := ⟨⟨depth, Nat.le_refl _, stacked⟩, by simp [above]⟩
    rw [List.map_append, placing.map_indent] at written
    have parted : next.text = feeds (inner.map (place (depth + 1))) ++
        (feeds (later.map (place depth)) ++ rest) := by
      rw [written]
      simp [feeds]
    rcases ih ready' parted with ⟨deeper, middle, between, left, ready, laysInner⟩
    rcases ready.near with ⟨open_, near, same⟩
    have outward : Ready level depth middle :=
      ⟨⟨open_, (Nat.le_succ depth).trans near, same⟩, ready.above⟩
    rcases ih' outward left with ⟨found, behind, last, left, ready, lays⟩
    exact ⟨line :: (deeper ++ found), behind, reads.append (between.append last), left, ready,
      .block standing own heads laysInner grouped solid lays⟩

/-- Lines of one definition are read as one statement wherever they are placed. -/
theorem CodeLines.exists_statement {lines : List Text} {shapes : List PartShape}
    (code : CodeLines place lines shapes) (one : shapes ∈ [[.definition], [.decorator, .definition]])
    (plain : ∀ rest, feeds (lines.map (place 0)) ≠ '\ufeff' :: rest) :
    ∃ statement, Statement.parse? (feeds (lines.map (place 0))) = some statement := by
  have unmarked : withoutByteOrderMark (feeds (lines.map (place 0))) = feeds (lines.map (place 0)) := by
    unfold withoutByteOrderMark
    split
    case h_1 rest same => exact absurd same (plain rest)
    case h_2 => rfl
  have base : stackAt level 0 = [⟨[], 0, 0⟩] := by
    rw [stackAt, placing.levels.base]
    rfl
  generalize text : feeds (lines.map (place 0)) = code_ at *
  have ready : Ready level 0 ⟨1, [⟨[], 0, 0⟩], [], code_⟩ :=
    ⟨⟨0, Nat.zero_le _, base.symm⟩, List.forall_mem_nil _⟩
  have whole : code_ = feeds (lines.map (place 0)) ++ [] := by simp [text]
  rcases code.exists_reads placing (usualBreak code_) ready whole with
    ⟨found, next, reads, left, ready, lays⟩
  have scanned : lexLines code_ = some (found, next.above) := reads.logicalLines left (Nat.lt_succ_self _)
  rcases lays.exists_statement one ready.above with ⟨header, statement, footer, read⟩
  refine ⟨statement, ?_⟩
  unfold Statement.parse?
  rw [unmarked, scanned, Option.bind_eq_bind, Option.bind_some]
  dsimp only
  rw [read]
  rfl

end Scanning

end Code
end OpenRecord
