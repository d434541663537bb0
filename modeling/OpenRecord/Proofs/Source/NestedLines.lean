import OpenRecord.Proofs.Source.Margins

namespace OpenRecord
namespace Source

/-!
# Nested lines

Nesting divides the logical lines of a file, and the blank lines between them, among outlines.  Nothing
is lost on the way: the outlines are written as the lines were.  And if the lines enter the blocks they
stand in, then each block has one indentation, which goes on with that of the line above it.
-/

/-! ## Outlines -/

mutual

def Outline.print (newline : Text) : Outline → Text
  | .node line children foot =>
    line.print newline ++ (printOutlines newline children ++ printBlanks newline foot)

/-- Consecutive outlines as they are written. -/
def printOutlines (newline : Text) : List Outline → Text
  | [] => []
  | first :: later => first.print newline ++ printOutlines newline later

end

theorem printOutlines_append (newline : Text) (front back : List Outline) :
    printOutlines newline (front ++ back) =
      printOutlines newline front ++ printOutlines newline back := by
  induction front with
  | nil => rfl
  | cons first later ih =>
    rw [List.cons_append, printOutlines, ih, printOutlines, List.append_assoc]

/-- Of the blank lines above an outline those that are taken away are missing in front of it. -/
theorem Outline.print_withAbove (newline : Text) {outline : Outline}
    {front above : List BlankLine} (parts : front ++ above = outline.line.above) :
    printBlanks newline front ++ (outline.withAbove above).print newline =
      outline.print newline := by
  rcases outline with ⟨line, children, foot⟩
  change front ++ above = line.above at parts
  simp only [Outline.withAbove, Outline.print, LogicalLine.print, ← parts, printBlanks_append,
    List.append_assoc]

theorem Forest.print_place (newline : Text) (line : LogicalLine) (below : Forest) :
    printOutlines newline (Forest.place line below).roots ++
        printBlanks newline (Forest.place line below).after =
      line.print newline ++
        (printOutlines newline below.roots ++ printBlanks newline below.after) := by
  have parts : below.roots.takeWhile (line.depth < ·.line.depth) ++
      below.roots.dropWhile (line.depth < ·.line.depth) = below.roots :=
    List.takeWhile_append_dropWhile
  have whole := congrArg (printOutlines newline) parts
  rw [printOutlines_append] at whole
  unfold Forest.place
  dsimp only
  split
  case h_1 =>
    simp only [printOutlines, Outline.print, printBlanks, List.flatMap_nil, List.append_nil,
      List.append_assoc]
  case h_2 first later children others =>
    have feet := congrArg (printBlanks newline) (splitFoot_append first.line.indent below.after)
    rw [printBlanks_append] at feet
    rw [others, printOutlines, List.append_nil] at whole
    simp only [printOutlines, Outline.print, List.append_nil, List.append_assoc]
    rw [feet, whole]
  case h_3 first later next rest children others =>
    have feet := next.print_withAbove newline (splitFoot_append first.line.indent next.line.above)
    rw [others, printOutlines] at whole
    simp only [printOutlines, Outline.print, List.append_assoc]
    rw [← whole, ← feet]
    simp only [List.append_assoc]

/-- Nested lines are written as they were. -/
theorem Forest.print_ofLines (newline : Text) (lines : List LogicalLine) (after : List BlankLine) :
    printOutlines newline (Forest.ofLines lines after).roots ++
      printBlanks newline (Forest.ofLines lines after).after = printLogical newline lines after := by
  induction lines with
  | nil => rfl
  | cons line later ih =>
    rw [printLogical_cons, ← ih]
    exact Forest.print_place newline line _

/-! ## Blocks that are evenly indented -/

mutual

/-- An outline of which every block has one indentation, which goes on with that of the line above the
block.  Without a block there is no foot. -/
def Outline.Fits : Outline → Prop
  | .node line children foot =>
    (children = [] → foot = []) ∧
      OutlinesFit (line.indent ++ relativeIndent line children) children

def OutlinesFit (indent : Text) : List Outline → Prop
  | [] => True
  | first :: later => first.line.indent = indent ∧ first.Fits ∧ OutlinesFit indent later

end

/-- Outlines one behind the other, each of which enters a block from those that are open behind the
one before.  None is deeper than one before it. -/
inductive RootsFit : List Text → List Outline → Prop
  | nil (opened : List Text) : RootsFit opened []
  | cons {opened inner : List Text} {root : Outline} {later : List Outline} :
    Enters root.line.indent root.line.depth opened inner → root.Fits → RootsFit inner later →
    (∀ other ∈ later, other.line.depth ≤ root.line.depth) → RootsFit opened (root :: later)

theorem Outline.fits_withAbove {outline : Outline} (above : List BlankLine) :
    (outline.withAbove above).Fits ↔ outline.Fits := by
  cases outline
  rfl

theorem RootsFit.withAbove {opened : List Text} {first : Outline} {later : List Outline}
    (fits : RootsFit opened (first :: later)) (above : List BlankLine) :
    RootsFit opened (first.withAbove above :: later) := by
  cases fits with
  | cons enters own others below =>
    cases first
    exact .cons enters own others below

/-- A line that is no deeper than the innermost block stays in an open one. -/
theorem Enters.stays_of_le {indent top : Text} {depth : Nat} {below entered : List Text}
    (enters : Enters indent depth (top :: below) entered) (shallow : depth ≤ below.length) :
    ∃ inner outer, top :: below = inner ++ indent :: outer ∧ entered = indent :: outer ∧
      outer.length = depth := by
  generalize same : top :: below = opened at enters
  cases enters with
  | stays inner outer length => exact ⟨inner, outer, rfl, rfl, length⟩
  | opens _ _ length =>
    cases same
    omega

/-- How outlines are divided at a depth: the deeper ones in front have one indentation, and the others
enter the blocks around them. -/
structure Divides (indent : Text) (around : List Text) (depth : Nat) (roots : List Outline) :
    Prop where
  block : OutlinesFit indent (roots.takeWhile (depth < ·.line.depth))
  behind : RootsFit around (roots.dropWhile (depth < ·.line.depth))
  shallow : ∀ root ∈ roots.dropWhile (depth < ·.line.depth), root.line.depth ≤ depth

theorem RootsFit.divides {around : List Text} {depth : Nat} {roots : List Outline}
    (fits : RootsFit around roots) (shallow : ∀ root ∈ roots, root.line.depth ≤ depth)
    (indent : Text) : Divides indent around depth roots := by
  have none_deeper : ∀ root ∈ roots, ¬ decide (depth < root.line.depth) = true := by
    simpa using shallow
  cases roots with
  | nil => exact ⟨trivial, fits, shallow⟩
  | cons root later =>
    have stop := none_deeper root List.mem_cons_self
    constructor
    · rw [List.takeWhile_cons, if_neg stop]
      exact trivial
    · rwa [List.dropWhile_cons, if_neg stop]
    · rwa [List.dropWhile_cons, if_neg stop]

theorem Divides.cons {indent : Text} {around : List Text} {root : Outline} {depth : Nat}
    {later : List Outline} (divides : Divides indent around depth later)
    (deeper : depth < root.line.depth) (same : root.line.indent = indent) (own : root.Fits) :
    Divides indent around depth (root :: later) := by
  have goes := decide_eq_true deeper
  constructor
  · rw [List.takeWhile_cons, if_pos goes]
    exact ⟨same, own, divides.block⟩
  · rw [List.dropWhile_cons, if_pos goes]
    exact divides.behind
  · rw [List.dropWhile_cons, if_pos goes]
    exact divides.shallow

/-- Behind the first line of a block, the lines that are deeper than the one above it have its
indentation. -/
theorem RootsFit.divides_block {indent : Text} {around : List Text} {depth : Nat}
    {roots : List Outline} (length : around.length = depth + 1)
    (fits : RootsFit (indent :: around) roots)
    (shallow : ∀ root ∈ roots, root.line.depth ≤ depth + 1) :
    Divides indent around depth roots := by
  induction roots with
  | nil => exact (RootsFit.nil around).divides nofun indent
  | cons root later ih =>
    cases fits with
    | cons enters own others below =>
      have level := shallow root List.mem_cons_self
      rcases enters.stays_of_le (by omega) with ⟨inner, outer, parts, rfl, place⟩
      have lengths := congrArg List.length parts
      rw [List.length_cons, List.length_append, List.length_cons] at lengths
      cases inner with
      | nil =>
        cases parts
        have later_divides := ih others fun other member => (below other member).trans level
        exact later_divides.cons (by omega) rfl own
      | cons _ inner =>
        cases parts
        rw [List.length_cons] at lengths
        have up : root.line.depth ≤ depth := by omega
        have back := RootsFit.cons (.stays inner outer place) own others below
        exact back.divides
          (List.forall_mem_cons.2 ⟨up, fun other member => (below other member).trans up⟩) indent

/-- The block below a line is made of the deeper lines behind it. -/
theorem RootsFit.divides_below {line : LogicalLine} {around : List Text} {roots : List Outline}
    (length : around.length = line.depth) (fits : RootsFit (line.indent :: around) roots) :
    Divides (line.indent ++ relativeIndent line (roots.takeWhile (line.depth < ·.line.depth)))
      (line.indent :: around) line.depth roots := by
  cases fits with
  | nil => exact (RootsFit.nil _).divides nofun _
  | @cons _ _ root later enters own others below =>
    by_cases deeper : line.depth < root.line.depth
    · rw [List.takeWhile_cons, if_pos (decide_eq_true deeper), relativeIndent]
      generalize same : line.indent :: around = opened at enters
      cases enters with
      | stays inner outer place =>
        have lengths := congrArg List.length same
        rw [List.length_cons, List.length_append, List.length_cons] at lengths
        omega
      | opens outer beneath place further =>
        cases same
        rcases further with ⟨more, written⟩
        rw [← written, List.drop_left, written]
        have level : root.line.depth = line.depth + 1 := by omega
        have block := others.divides_block (by rw [List.length_cons, length])
          fun other member => level ▸ below other member
        exact block.cons deeper rfl own
    · have up := Nat.not_lt.1 deeper
      have whole := RootsFit.cons enters own others below
      exact whole.divides
        (List.forall_mem_cons.2 ⟨up, fun other member => (below other member).trans up⟩) _

/-- Placing a line in front of outlines that enter the block it stands in. -/
theorem Forest.rootsFit_place {line : LogicalLine} {opened inner : List Text} {below : Forest}
    (enters : Enters line.indent line.depth opened inner) (fits : RootsFit inner below.roots) :
    RootsFit opened (Forest.place line below).roots := by
  have entered : ∃ around, inner = line.indent :: around ∧ around.length = line.depth := by
    cases enters with
    | stays _ around length => exact ⟨around, rfl, length⟩
    | opens _ _ length => exact ⟨_, rfl, length⟩
  rcases entered with ⟨around, rfl, length⟩
  have divides := fits.divides_below length
  rcases Forest.roots_place line below with ⟨foot, others, placed, footless, behind⟩
  rw [placed]
  rcases behind with rfl | ⟨next, later, above, parts, rfl⟩
  · exact .cons enters ⟨footless, divides.block⟩ divides.behind divides.shallow
  · have shallow := divides.shallow
    have others := divides.behind
    rw [parts] at others shallow
    rw [List.forall_mem_cons] at shallow
    have lower : (next.withAbove above).line.depth ≤ line.depth := by
      cases next
      exact shallow.1
    exact .cons enters ⟨footless, divides.block⟩ (others.withAbove above)
      (List.forall_mem_cons.2 ⟨lower, shallow.2⟩)

/-- Lines that enter open blocks make outlines that do. -/
theorem Forest.rootsFit_ofLines {opened : List Text} {lines : List LogicalLine}
    (after : List BlankLine) (enter : LinesEnter opened lines) :
    RootsFit opened (Forest.ofLines lines after).roots := by
  induction enter with
  | nil opened => exact .nil opened
  | cons enters _ ih => exact Forest.rootsFit_place enters ih

theorem RootsFit.outlinesFit {roots : List Outline} (fits : RootsFit [[]] roots)
    (flat : ∀ root ∈ roots, root.line.depth = 0) : OutlinesFit [] roots := by
  induction roots with
  | nil => exact trivial
  | cons root later ih =>
    rw [List.forall_mem_cons] at flat
    cases fits with
    | cons enters own others _ =>
      rcases enters.stays_of_le (by rw [flat.1]; exact Nat.zero_le _) with
        ⟨inner, outer, parts, rfl, place⟩
      rw [flat.1, List.length_eq_zero_iff] at place
      subst place
      rcases List.append_eq_singleton_iff.1 parts.symm with ⟨-, same⟩ | ⟨-, wrong⟩
      · have margin : root.line.indent = [] := (List.cons.inj same).1
        rw [margin] at others
        exact ⟨margin, own, ih others flat.2⟩
      · cases wrong

end Source
end OpenRecord
