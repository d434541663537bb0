import Mathlib.Order.Monotone.Basic
import OpenRecord.Proofs.Source.Margins
import OpenRecord.Proofs.Source.WrittenTokens

namespace OpenRecord
namespace Source

/-!
# Scanning lines at levels

Lines that start with the indentation of their level are scanned as lines of as many blocks, if no line
is more than one level deeper than the one before it and deeper levels are wider.  The lines are scanned
one behind the other, and what is still open in front of each of them is carried along.
-/

/-! ## Lines one behind the other -/

/-- How far the lines of a text have been scanned: the number of the next line, the open indentations,
the blank lines directly above, and what is left. -/
structure LineScan where
  number : Nat
  stack : List Indentation
  above : List BlankLine
  text : Text

/-- Logical lines are scanned one behind the other, with the blank lines between them. -/
inductive LineScan.Reads (usual : Text) : LineScan → List LogicalLine → LineScan → Prop
  | done (scan : LineScan) : Reads usual scan [] scan
  | blank {scan behind : LineScan} {line : BlankLine} {next : Text} {lines : List LogicalLine} :
    blankLine usual scan.text = some (line, next) →
    Reads usual ⟨scan.number + Text.breakCount line.chars + 1, scan.stack, scan.above ++ [line], next⟩
      lines behind →
    Reads usual scan lines behind
  | line {scan behind : LineScan} {blanks rest next : Text} {top : Indentation}
    {below : List Indentation} {tokens : List Token} {ending : LineEnd} {lines : List LogicalLine} :
    blankLine usual scan.text = none → scan.text.takeWhile Text.isIndent = blanks →
    scan.text.dropWhile Text.isIndent = rest → rest ≠ [] →
    reindentStack (.measure blanks) scan.stack = some (top :: below) →
    logicalLine ⟨usual, top.chars⟩ (rest.length + 1) [] rest = some (tokens, ending, next) →
    tokens ≠ [] →
    Reads usual ⟨scan.number + Text.breakCount (rest.take (rest.length - next.length)), top :: below,
      [], next⟩ lines behind →
    Reads usual scan (⟨scan.above, top.chars, below.length, scan.number, tokens, ending⟩ :: lines)
      behind

theorem StartsLine.length_lt {rest text : Text} (starts : StartsLine rest text) :
    rest.length < text.length := by
  rcases starts with ⟨front, c, -, rfl⟩
  simp only [List.length_append, List.length_cons]
  omega

namespace LineScan.Reads

variable {usual : Text} {scan next behind : LineScan} {front back lines : List LogicalLine}

theorem append (first : Reads usual scan front next) (second : Reads usual next back behind) :
    Reads usual scan (front ++ back) behind := by
  induction first with
  | done => exact second
  | blank empty _ ih => exact .blank empty (ih second)
  | line solid blanks rest left stacked scanned written _ ih =>
    exact .line solid blanks rest left stacked scanned written (ih second)

/-- Lines scanned up to the end of a text are its logical lines. -/
theorem logicalLines {fuel : Nat} (reads : Reads usual scan lines behind) (ended : behind.text = [])
    (enough : scan.text.length < fuel) :
    logicalLines usual fuel scan.number scan.stack scan.above scan.text =
      some (lines, behind.above) := by
  induction reads generalizing fuel with
  | done scan =>
    rcases Nat.exists_eq_succ_of_ne_zero (Nat.ne_zero_of_lt enough) with ⟨fuel, rfl⟩
    rw [ended, Source.logicalLines]
    rfl
  | @blank scan behind line next lines empty _ ih =>
    rcases Nat.exists_eq_succ_of_ne_zero (Nat.ne_zero_of_lt enough) with ⟨fuel, rfl⟩
    have solid : scan.text ≠ [] := by
      intro nothing
      rw [nothing] at empty
      cases empty
    have shorter : next.length < scan.text.length := by
      rcases blankLine_startsLine empty with rfl | starts
      · exact List.length_pos_iff.2 solid
      · exact starts.length_lt
    rw [Source.logicalLines, empty]
    exact ih ended (Nat.lt_of_lt_of_le shorter (Nat.le_of_lt_succ enough))
  | @line scan behind blanks rest next top below tokens ending lines solid front left written stacked
      scanned some_token _ ih =>
    rcases Nat.exists_eq_succ_of_ne_zero (Nat.ne_zero_of_lt enough) with ⟨fuel, rfl⟩
    have whole : blanks ++ rest = scan.text := by
      rw [← front, ← left]
      exact List.takeWhile_append_dropWhile
    have nonempty : scan.text ≠ [] := by
      rw [← whole]
      exact List.append_ne_nil_of_right_ne_nil blanks written
    have shorter : next.length < scan.text.length := by
      rw [← whole, List.length_append]
      rcases logicalLine_startsLine scanned with rfl | starts
      · exact Nat.add_pos_right _ (List.length_pos_iff.2 written)
      · exact Nat.lt_add_left _ starts.length_lt
    rcases List.exists_cons_of_ne_nil some_token with ⟨first, later, rfl⟩
    rw [Source.logicalLines, solid]
    dsimp only
    rw [if_neg nonempty, front, left, stacked]
    dsimp only
    rw [scanned]
    dsimp only
    rw [ih ended (Nat.lt_of_lt_of_le shorter (Nat.le_of_lt_succ enough))]

end LineScan.Reads

/-! ## Levels -/

/-- Indentations of levels, each of them wider than those above it. -/
structure Levels (level : Nat → Text) : Prop where
  base : level 0 = []
  blank : ∀ depth, ∀ x ∈ level depth, Text.isIndent x = true
  wide : StrictMono fun depth => (Indentation.measure (level depth)).wide
  narrow : StrictMono fun depth => (Indentation.measure (level depth)).narrow

/-- The indentations that are open at a line of a level. -/
def stackAt (level : Nat → Text) : Nat → List Indentation
  | 0 => [.measure (level 0)]
  | depth + 1 => .measure (level (depth + 1)) :: stackAt level depth

theorem exists_stackAt (level : Nat → Text) (depth : Nat) :
    ∃ below, stackAt level depth = .measure (level depth) :: below ∧ below.length = depth := by
  induction depth with
  | zero => exact ⟨[], rfl, rfl⟩
  | succ depth ih =>
    rcases ih with ⟨below, same, length⟩
    exact ⟨stackAt level depth, rfl, by rw [same, List.length_cons, length]⟩

theorem Levels.close_stackAt {level : Nat → Text} (levels : Levels level) {depth open_ : Nat}
    (outward : depth ≤ open_) :
    reindentStack.close (.measure (level depth)) (stackAt level open_) =
      some (stackAt level depth) := by
  induction open_ with
  | zero =>
    rw [Nat.le_zero.1 outward, stackAt, reindentStack.close, if_neg (Nat.lt_irrefl _)]
    simp
  | succ open_ ih =>
    rw [stackAt, reindentStack.close]
    rcases Nat.lt_or_eq_of_le outward with above | rfl
    · rw [if_pos (levels.wide above)]
      exact ih (Nat.le_of_lt_succ above)
    · rw [if_neg (Nat.lt_irrefl _)]
      simp [stackAt]

/-- A line that is at most one level deeper than the open blocks opens or closes blocks up to its own. -/
theorem Levels.reindentStack_stackAt {level : Nat → Text} (levels : Levels level) {depth open_ : Nat}
    (near : depth ≤ open_ + 1) :
    reindentStack (.measure (level depth)) (stackAt level open_) = some (stackAt level depth) := by
  have closes : depth ≤ open_ → reindentStack.close (.measure (level depth))
      (stackAt level open_) = some (stackAt level depth) := levels.close_stackAt
  rcases exists_stackAt level open_ with ⟨below, same, -⟩
  rw [same] at closes ⊢
  rw [reindentStack]
  rcases Nat.lt_trichotomy depth open_ with above | rfl | deeper
  · rw [if_neg (levels.wide above).ne, if_neg (levels.wide above).not_gt]
    exact closes above.le
  · rw [if_pos rfl, if_pos rfl, same]
  · cases Nat.le_antisymm near deeper
    rw [if_neg (levels.wide deeper).ne', if_pos (levels.wide deeper), if_pos (levels.narrow deeper),
      stackAt, same]

/-! ## Rows -/

section Rows

variable {usual : Text} {scan : LineScan} {rest : Text}

theorem LineScan.reads_empty (usual : Text) (shape : scan.text = '\n' :: rest) :
    ∃ line : BlankLine, line.chars = [] ∧ ∃ number,
      Reads usual scan [] ⟨number, scan.stack, scan.above ++ [line], rest⟩ := by
  have empty : blankLine usual scan.text = some (⟨[], .read usual ['\n']⟩, rest) := by
    rw [shape]
    rfl
  exact ⟨_, rfl, _, .blank empty (.done _)⟩

theorem Scanned.ne_nil {context : LineContext} {nest after : List Nest} {text rest : Text}
    {tokens : List Token} (scanned : Scanned context nest text tokens after rest)
    (longer : rest.length < text.length) : tokens ≠ [] := by
  rintro rfl
  cases scanned
  exact Nat.lt_irrefl _ longer

/-- A line of tokens at a level. -/
theorem LineScan.reads_row (usual : Text) {level : Nat → Text} (levels : Levels level) {depth open_ : Nat}
    (near : depth ≤ open_ + 1) (stacked : scan.stack = stackAt level open_) {text : Text}
    {known : List Token → Prop} (scans : ScansAs [] [] (· = '\n') text known)
    (shape : scan.text = level depth ++ (text ++ '\n' :: rest)) :
    ∃ line : LogicalLine, known line.tokens ∧ line.above = scan.above ∧ line.indent = level depth ∧
      line.depth = depth ∧ ∃ number,
        Reads usual scan [line] ⟨number, stackAt level depth, [], rest⟩ := by
  rcases exists_stackAt level depth with ⟨below, same, length⟩
  have margin : LineContext.IsBlank ⟨usual, level depth⟩ := levels.blank depth
  rcases scans.scanned ⟨usual, level depth⟩ [] ('\n' :: rest) margin (separates_blanks [] nofun)
    (@begins_cons (· = '\n') '\n' rfl rest) with ⟨tokens, holds, scanned⟩
  rw [List.nil_append] at scanned
  have short := scanned.length_le
  have stops : lineStep ⟨usual, level depth⟩ [] ('\n' :: rest) =
    some (.stop ⟨[], .read usual ['\n']⟩ rest) := rfl
  have line := scanned.logicalLine stops
    (show tokens.length < (text ++ '\n' :: rest).length + 1 by omega)
  rcases scans.starts.exists_cons with ⟨c, later, rfl, start⟩
  have written : tokens ≠ [] := scanned.ne_nil (by
    rw [List.length_append, List.length_cons]
    exact Nat.lt_add_of_pos_left (Nat.succ_pos _))
  rw [List.cons_append] at shape line
  have solid : blankLine usual scan.text = none := by
    rw [shape]
    exact blankLine_append (levels.blank depth) start
  have front : scan.text.takeWhile Text.isIndent = level depth := by
    rw [shape]
    exact takeWhile_isIndent (levels.blank depth) start
  have back : scan.text.dropWhile Text.isIndent = c :: (later ++ '\n' :: rest) := by
    rw [shape]
    exact dropWhile_isIndent (levels.blank depth) start
  have opened := levels.reindentStack_stackAt near
  rw [← stacked, same] at opened
  have kept := Indentation.chars_measure (level depth)
  rw [← kept] at line
  have row := LineScan.Reads.line solid front back (by simp) opened line written (.done _)
  rw [← same] at row
  exact ⟨_, holds, rfl, kept, length, _, row⟩

end Rows

end Source
end OpenRecord
