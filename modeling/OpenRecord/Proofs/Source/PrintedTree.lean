import OpenRecord.Proofs.Source.NestedLines
import OpenRecord.Proofs.Source.StatementPhrases

namespace OpenRecord
namespace Source

/-!
# Reading and printing

What a line is read as has all of its tokens, and what outlines are read as has all of their lines.  So
a statement is printed as its lines were written, if it is printed with the indentation it was read
with.  This is the case for a whole file if its blocks are evenly indented.
-/

/-! ## Tokens of a line -/

theorem printItems_cons (layout : Layout) (first : Item) (later : List Item) :
    printItems layout (first :: later) = first.print layout ++ printItems layout later :=
  List.flatMap_cons

theorem printItems_of_smallStatements (layout : Layout) {fuel : Nat} {tokens : List Token}
    {items : List Item} (read : smallStatements fuel tokens = some items) :
    printItems layout items = printTokens layout tokens := by
  induction fuel generalizing tokens items with
  | zero => cases read
  | succ fuel ih =>
    unfold smallStatements at read
    rcases Option.bind_eq_some_iff.1 read with ⟨⟨form, rest⟩, first, read⟩
    have whole := tokensRead_append (leaves_smallStatement (List.suffix_refl tokens) _ _ first)
    have alone : ∀ separator : Option Token,
        printItems layout [⟨tokensRead tokens rest, form, separator⟩] =
          printTokens layout (tokensRead tokens rest ++ separator.toList) :=
      fun separator => List.append_nil _
    dsimp only at read
    split at read
    case h_1 =>
      cases read
      exact (alone none).trans (congrArg (printTokens layout) whole)
    case h_2 token later =>
      split at read
      case isTrue =>
        split at read
        case isTrue last =>
          cases read
          subst last
          exact (alone (some token)).trans (congrArg (printTokens layout) whole)
        case isFalse =>
          rcases Option.bind_eq_some_iff.1 read with ⟨others, more, same⟩
          cases same
          rw [printItems_cons, ih more, Item.print, ← printTokens_append, List.append_assoc]
          exact congrArg (printTokens layout) whole
      case isFalse => cases read

/-- What a line was read as, as it is written.  There is nothing behind a decorator. -/
def ReadLine.print (layout : Layout) : ReadLine → Text
  | .items found => printItems layout found
  | .header (.decorator _) front _ => printTokens layout front
  | .header (.definition _) front found => printTokens layout front ++ printItems layout found
  | .header (.clause _) front found => printTokens layout front ++ printItems layout found

theorem ReadLine.print_bare (layout : Layout) (head : Head) (tokens : List Token) :
    (ReadLine.header head tokens []).print layout = printTokens layout tokens := by
  cases head with
  | decorator value => rfl
  | definition role => exact List.append_nil _
  | clause kind => exact List.append_nil _

/-- A header has its own tokens and those of the small statements behind it. -/
theorem print_withItems (layout : Layout) {fuel : Nat} {tokens : List Token}
    {result : Option (Head × List Token)} {read : ReadLine} (leaves : Leaves tokens result)
    (made : withItems fuel tokens result = some read) :
    read.print layout = printTokens layout tokens := by
  unfold withItems at made
  split at made
  case h_1 => cases made
  case h_2 head rest =>
    have whole := tokensRead_append (leaves _ _ rfl)
    split at made
    case h_1 =>
      cases made
      exact ReadLine.print_bare layout head tokens
    case h_2 => cases made
    case h_3 code =>
      rcases Option.bind_eq_some_iff.1 made with ⟨items, more, same⟩
      cases same
      have behind := printItems_of_smallStatements layout more
      rw [← congrArg (printTokens layout) whole, printTokens_append, ← behind]
      cases head with
      | decorator value => exact absurd rfl (code value)
      | definition role => rfl
      | clause kind => rfl

theorem print_readLine (layout : Layout) {amongCases : Bool} {tokens : List Token}
    {read : ReadLine} (readable : readLine amongCases tokens = some read) :
    read.print layout = printTokens layout tokens := by
  have whole := List.suffix_refl tokens
  unfold readLine at readable
  dsimp only at readable
  split at readable
  case isTrue => exact print_withItems layout (leaves_caseHeader whole) readable
  case isFalse =>
    split at readable
    case isTrue => exact print_withItems layout (leaves_header whole) readable
    case isFalse =>
      split at readable
      case h_1 head _ =>
        cases readable
        exact ReadLine.print_bare layout head tokens
      case h_2 =>
        rcases Option.bind_eq_some_iff.1 readable with ⟨items, more, same⟩
        cases same
        exact printItems_of_smallStatements layout more

/-! ## Blank lines -/

/-- A blank line of a block is printed as it was written if the block is printed with its
indentation. -/
theorem Line.print_within (layout : Layout) (blank : BlankLine) :
    (Line.within layout.indent blank).print layout =
      blank.chars ++ blank.lineBreak.print layout := by
  unfold Line.within
  split
  case isTrue moves =>
    rcases List.isPrefixOf_iff_prefix.1 moves with ⟨rest, parts⟩
    simp [Line.print, ← parts]
  case isFalse => rfl

theorem LineBreak.print_newline (layout : Layout) (lineBreak : LineBreak) :
    lineBreak.print ⟨[], layout.newline⟩ = lineBreak.print layout := by
  cases lineBreak <;> rfl

theorem printLines_within (layout : Layout) (blanks : List BlankLine) :
    printLines layout (blanks.map (.within layout.indent)) =
      printBlanks layout.newline blanks := by
  unfold printLines printBlanks
  rw [List.flatMap_map]
  congr 1
  funext blank
  rw [Line.print_within, LineBreak.print_newline]

/-! ## Grouping -/

def Part.print (layout : Layout) : Part → Text
  | .statement found => found.print layout
  | .decorator next => next.print layout
  | .definition head body => head.print layout ++ body.print layout
  | .clause found => found.print layout

/-- The characters of consecutive parts. -/
def printParts (layout : Layout) (parts : List Part) : Text :=
  parts.flatMap (·.print layout)

/-- A part that, if it is a definition, is not below its decorators yet. -/
def Part.IsBare : Part → Prop
  | .definition head _ => head.decorators = [] ∧ head.belowDecorators = []
  | _ => True

theorem printStatements_append (layout : Layout) (front back : List Statement) :
    printStatements layout (front ++ back) =
      printStatements layout front ++ printStatements layout back := by
  induction front with
  | nil => rfl
  | cons first later ih =>
    rw [List.cons_append, printStatements, ih, printStatements, List.append_assoc]

theorem printClauses_append (layout : Layout) (front back : List Clause) :
    printClauses layout (front ++ back) =
      printClauses layout front ++ printClauses layout back := by
  induction front with
  | nil => rfl
  | cons first later ih =>
    rw [List.cons_append, printClauses, ih, printClauses, List.append_assoc]

theorem print_closeClauses (layout : Layout) {clauses : List Clause} {statements : List Statement}
    (closed : closeClauses clauses = some statements) :
    printStatements layout statements = printClauses layout clauses := by
  unfold closeClauses at closed
  split at closed
  case h_1 =>
    cases closed
    rfl
  case h_2 =>
    split at closed
    case isTrue => cases closed
    case isFalse =>
      cases closed
      exact List.append_nil _
  case h_3 =>
    cases closed
    exact List.append_nil _

theorem Definition.print_decorated (layout : Layout) {head : Definition}
    (bare : head.decorators = [] ∧ head.belowDecorators = []) (decorators : List Decorator) :
    (head.decorated decorators).print layout =
      decorators.flatMap (·.print layout) ++ head.print layout := by
  rcases head with ⟨above, decorated, below, tokens, role, position⟩
  rcases bare with ⟨rfl, rfl⟩
  cases decorators with
  | nil => rfl
  | cons first later =>
    simp [Definition.decorated, Definition.print, Decorator.print, printLines]

theorem print_assemble (layout : Layout) {decorators : List Decorator} {clauses : List Clause}
    {parts : List Part} {statements : List Statement} (bare : ∀ part ∈ parts, part.IsBare)
    (assembled : assemble decorators clauses parts = some statements) :
    printStatements layout statements =
      printClauses layout clauses ++
        (decorators.flatMap (·.print layout) ++ printParts layout parts) := by
  induction parts generalizing decorators clauses statements with
  | nil =>
    rw [assemble] at assembled
    split at assembled
    case isTrue undecorated =>
      rw [List.isEmpty_iff.1 undecorated, print_closeClauses layout assembled]
      exact (List.append_nil _).symm
    case isFalse => cases assembled
  | cons first later ih =>
    rw [List.forall_mem_cons] at bare
    have behind : ∀ {part : Part}, printParts layout (part :: later) =
        part.print layout ++ printParts layout later := List.flatMap_cons
    cases first with
    | decorator next =>
      rw [assemble] at assembled
      rcases Option.bind_eq_some_iff.1 assembled with ⟨closed, before, assembled⟩
      rcases Option.bind_eq_some_iff.1 assembled with ⟨others, more, same⟩
      cases same
      rw [printStatements_append, print_closeClauses layout before, ih bare.2 more, behind,
        List.flatMap_append]
      simp [printClauses, Part.print]
    | definition head body =>
      rw [assemble] at assembled
      rcases Option.bind_eq_some_iff.1 assembled with ⟨closed, before, assembled⟩
      rcases Option.bind_eq_some_iff.1 assembled with ⟨others, more, same⟩
      cases same
      rw [printStatements_append, print_closeClauses layout before, printStatements,
        Statement.print, Definition.print_decorated layout bare.1, ih bare.2 more, behind]
      simp [printClauses, Part.print]
    | statement next =>
      rw [assemble] at assembled
      split at assembled
      case isTrue undecorated =>
        rcases Option.bind_eq_some_iff.1 assembled with ⟨closed, before, assembled⟩
        rcases Option.bind_eq_some_iff.1 assembled with ⟨others, more, same⟩
        cases same
        rw [printStatements_append, print_closeClauses layout before, printStatements,
          ih bare.2 more, behind, List.isEmpty_iff.1 undecorated]
        rfl
      case isFalse => cases assembled
    | clause next =>
      rw [assemble] at assembled
      split at assembled
      case isTrue => cases assembled
      case isFalse undecorated =>
        have undecorated : decorators = [] := by simpa using undecorated
        subst undecorated
        split at assembled
        case isTrue =>
          rw [ih bare.2 assembled, printClauses_append, behind]
          simp [printClauses, Part.print]
        case isFalse =>
          split at assembled
          case isTrue =>
            rcases Option.bind_eq_some_iff.1 assembled with ⟨closed, before, assembled⟩
            rcases Option.bind_eq_some_iff.1 assembled with ⟨others, more, same⟩
            cases same
            rw [printStatements_append, print_closeClauses layout before, ih bare.2 more, behind]
            simp [printClauses, Part.print]
          case isFalse => cases assembled

theorem print_casesOnly (layout : Layout) {parts : List Part} {clauses : List Clause}
    (only : casesOnly parts = some clauses) :
    printClauses layout clauses = printParts layout parts := by
  induction parts generalizing clauses with
  | nil =>
    cases only
    rfl
  | cons first later ih =>
    cases first with
    | clause next =>
      rw [casesOnly] at only
      rcases Option.map_eq_some_iff.1 only with ⟨others, rest, rfl⟩
      rw [printClauses, ih rest]
      rfl
    | statement _ => cases only
    | decorator _ => cases only
    | definition _ _ => cases only

/-! ## Outlines -/

/-- What an outline was read as, with what is printed of it. -/
structure Part.Spells (layout : Layout) (text : Text) (part : Part) : Prop where
  isBare : part.IsBare
  print_eq : part.print layout = text

section Reading

variable (newline : Text) {line : LogicalLine} {children : List Outline} {foot : List BlankLine}
  {amongCases : Bool} {front : List Token} {head : Head} {suite : Suite} {part : Part}

theorem Head.spells_part (made : head.part line front suite = some part) :
    part.Spells ⟨line.indent, newline⟩
      (printBlanks newline line.above ++ (line.indent ++
        (printTokens ⟨line.indent, newline⟩ front ++ suite.print ⟨line.indent, newline⟩))) := by
  have above := printLines_within ⟨line.indent, newline⟩ line.above
  cases head with
  | decorator value => cases made
  | definition role =>
    cases made
    refine ⟨⟨rfl, rfl⟩, ?_⟩
    simp [Part.print, Definition.print, ← above, printLines]
  | clause kind =>
    cases made
    refine ⟨trivial, ?_⟩
    simp [Part.print, Clause.print, ← above]

/-- A header with its suite is printed as its outline if the suite is printed as what is behind the
header. -/
theorem spells_of_suite {items : List Item}
    (readable : readLine amongCases line.tokens = some (.header head front items))
    (made : head.part line front suite = some part)
    (behind : suite.print ⟨line.indent, newline⟩ =
      printItems ⟨line.indent, newline⟩ items ++ (line.ending.print ⟨line.indent, newline⟩ ++
        (printOutlines newline children ++ printBlanks newline foot))) :
    part.Spells ⟨line.indent, newline⟩ ((Outline.node line children foot).print newline) := by
  have tokens := print_readLine ⟨line.indent, newline⟩ readable
  have whole := Head.spells_part newline made
  refine ⟨whole.isBare, whole.print_eq.trans ?_⟩
  rw [behind, Outline.print, LogicalLine.print, ← tokens]
  cases head with
  | decorator value => cases made
  | definition role => simp only [ReadLine.print, List.append_assoc]
  | clause kind => simp only [ReadLine.print, List.append_assoc]

theorem Outline.print_childless (line : LogicalLine) :
    (Outline.node line [] []).print newline = line.print newline :=
  List.append_nil _

/-- The foot of a block is printed as it was written. -/
theorem print_footLines {indent : Text} (footless : children = [] → foot = [])
    (fits : OutlinesFit indent children) :
    printLines ⟨indent, newline⟩ (footLines children foot) = printBlanks newline foot := by
  cases children with
  | nil =>
    rw [footless rfl]
    rfl
  | cons first later =>
    rcases fits with ⟨rfl, -⟩
    exact printLines_within ⟨first.line.indent, newline⟩ foot

end Reading

mutual

theorem Outline.spells_read (newline : Text) {amongCases : Bool} :
    ∀ (outline : Outline) {part : Part}, outline.Fits → outline.read amongCases = some part →
      part.Spells ⟨outline.line.indent, newline⟩ (outline.print newline)
  | .node line children foot, part, fits, read => by
    rcases fits with ⟨footless, fits⟩
    change part.Spells ⟨line.indent, newline⟩ _
    have above : printLines ⟨line.indent, newline⟩ (line.above.map (.within line.indent)) =
      printBlanks newline line.above := printLines_within ..
    have below := print_footLines newline footless fits
    have childless : (!children.isEmpty) = false → children = [] ∧ foot = [] := fun bare =>
      have empty : children = [] := by simpa using bare
      ⟨empty, footless empty⟩
    rw [Outline.read] at read
    rcases Option.bind_eq_some_iff.1 read with ⟨header, readable, made⟩
    have tokens := print_readLine ⟨line.indent, newline⟩ readable
    split at made
    case h_1 items =>
      split at made
      case isTrue => cases made
      case isFalse bare =>
        cases made
        rcases childless (eq_false_of_ne_true bare) with ⟨rfl, rfl⟩
        refine ⟨trivial, ?_⟩
        rw [Outline.print_childless, LogicalLine.print, ← tokens]
        simp [Part.print, Statement.print, above, ReadLine.print]
    case h_2 value front items =>
      split at made
      case isTrue => cases made
      case isFalse bare =>
        cases made
        rcases childless (eq_false_of_ne_true bare) with ⟨rfl, rfl⟩
        refine ⟨trivial, ?_⟩
        rw [Outline.print_childless, LogicalLine.print, ← tokens]
        simp [Part.print, Decorator.print, above, ReadLine.print]
    case h_3 head front first later _ =>
      split at made
      case isTrue => cases made
      case isFalse bare =>
        rcases childless (eq_false_of_ne_true bare) with ⟨rfl, rfl⟩
        refine spells_of_suite newline readable made ?_
        simp [Suite.print, printOutlines, printBlanks]
    case h_4 front =>
      split at made
      case isTrue => cases made
      case isFalse =>
        rcases Option.bind_eq_some_iff.1 made with ⟨parts, inner, made⟩
        rcases Option.bind_eq_some_iff.1 made with ⟨clauses, only, made⟩
        have block := spells_readOutlines newline children fits inner
        refine spells_of_suite newline readable made ?_
        simp [Suite.print, Layout.deeper, print_casesOnly _ only, block.2, below, printItems]
    case h_5 head front _ _ =>
      split at made
      case isTrue => cases made
      case isFalse =>
        rcases Option.bind_eq_some_iff.1 made with ⟨parts, inner, made⟩
        rcases Option.bind_eq_some_iff.1 made with ⟨body, assembled, made⟩
        have block := spells_readOutlines newline children fits inner
        refine spells_of_suite newline readable made ?_
        simp [Suite.print, Layout.deeper, print_assemble _ block.1 assembled, printClauses,
          block.2, below, printItems]

theorem spells_readOutlines (newline : Text) {amongCases : Bool} :
    ∀ (outlines : List Outline) {indent : Text} {parts : List Part},
      OutlinesFit indent outlines → readOutlines amongCases outlines = some parts →
        (∀ part ∈ parts, part.IsBare) ∧
          printParts ⟨indent, newline⟩ parts = printOutlines newline outlines
  | [], indent, parts, _, read => by
    cases read
    exact ⟨nofun, rfl⟩
  | first :: later, indent, parts, fits, read => by
    rw [readOutlines] at read
    rcases Option.bind_eq_some_iff.1 read with ⟨part, front, read⟩
    rcases Option.bind_eq_some_iff.1 read with ⟨others, back, same⟩
    cases same
    rcases fits with ⟨rfl, own, others⟩
    have spelled := first.spells_read newline own front
    have behind := spells_readOutlines newline later others back
    refine ⟨List.forall_mem_cons.2 ⟨spelled.isBare, behind.1⟩, ?_⟩
    rw [printOutlines, ← behind.2, ← spelled.print_eq]
    exact List.flatMap_cons

end

/-! ## Files -/

theorem print_readStatements (newline : Text) {lines : List LogicalLine} {after : List BlankLine}
    {header footer : List Line} {body : List Statement} (enter : LinesEnter [[]] lines)
    (read : readStatements lines after = some (header, body, footer)) :
    printLines ⟨[], newline⟩ header ++
        (printStatements ⟨[], newline⟩ body ++ printLines ⟨[], newline⟩ footer) =
      printLogical newline lines after := by
  have blanks : ∀ blanks : List BlankLine, printLines ⟨[], newline⟩ (blanks.map (.within [])) =
      printBlanks newline blanks := printLines_within ⟨[], newline⟩
  have written := Forest.print_ofLines newline lines after
  have fits := Forest.rootsFit_ofLines after enter
  unfold readStatements at read
  generalize Forest.ofLines lines after = forest at written fits read
  rcases forest with ⟨_ | ⟨first, later⟩, behind⟩
  · cases read
    rw [blanks, ← written]
    exact List.append_nil _
  · dsimp only at read
    split at read
    case isTrue => cases read
    case isFalse flat =>
      rcases Option.bind_eq_some_iff.1 read with ⟨parts, found, read⟩
      rcases Option.bind_eq_some_iff.1 read with ⟨statements, assembled, same⟩
      cases same
      have level : ∀ root ∈ first :: later, root.line.depth = 0 := by simpa using flat
      have fit : OutlinesFit [] (first.withAbove [] :: later) := by
        rcases fits.outlinesFit level with ⟨margin, own, others⟩
        refine ⟨?_, (Outline.fits_withAbove []).2 own, others⟩
        cases first
        exact margin
      rcases spells_readOutlines newline _ fit found with ⟨bare, spelled⟩
      have top := first.print_withAbove newline (List.append_nil first.line.above)
      rw [blanks, blanks, print_assemble _ bare assembled, spelled, ← written, printOutlines,
        printOutlines, ← top]
      simp only [printClauses, List.flatMap_nil, List.nil_append, List.append_assoc]

end Source
end OpenRecord
