import OpenRecord.Proofs.Source.LineScanning
import OpenRecord.Proofs.Source.OpeningStatement

namespace OpenRecord
namespace Source

/-!
# Margins

What a logical line starts with is kept as the indentation of its block, which is that of the first line
of the block.  The others may start with other blanks of the same two widths, and a deeper block need
not start with the blanks of the one around it.  But if every logical line of a text starts with what its
block was opened with, and this goes on with what the block around it was opened with, then the logical
lines spell the text, up to a last line break.

Only what stands in front of a logical line is asked for.  Within a literal, within brackets and behind a
backslash a line may start with any blanks.
-/

/-! ## Even indentation -/

/-- A text starts with a line of code: behind blanks there is something else than a comment or a line
break. -/
def StartsCode (text : Text) : Prop :=
  ∃ c, (text.dropWhile Text.isIndent).head? = some c ∧ c ≠ '#' ∧ Text.isBreak c = false

/-- What is left of a text where a logical line or a blank line starts, with the indentations of the
blocks that are open above it, the innermost first. -/
inductive LeavesOpen (text : Text) : List Indentation → Text → Prop
  | front : LeavesOpen text [⟨[], 0, 0⟩] text
  | blank {stack : List Indentation} {rest next : Text} {line : BlankLine} :
    LeavesOpen text stack rest → blankLine (usualBreak text) rest = some (line, next) →
    LeavesOpen text stack next
  | code {stack below : List Indentation} {top : Indentation} {rest next : Text}
    {tokens : List Token} {ending : LineEnd} :
    LeavesOpen text stack rest → StartsCode rest →
    reindentStack (.measure (rest.takeWhile Text.isIndent)) stack = some (top :: below) →
    logicalLine ⟨usualBreak text, top.chars⟩ ((rest.dropWhile Text.isIndent).length + 1) []
      (rest.dropWhile Text.isIndent) = some (tokens, ending, next) →
    LeavesOpen text (top :: below) next

/-- Every logical line starts with what its block was opened with, and this goes on with what the block
around it was opened with. -/
def EvenlyIndented (text : Text) : Prop :=
  ∀ stack rest top below, LeavesOpen text stack rest → StartsCode rest →
    reindentStack (.measure (rest.takeWhile Text.isIndent)) stack = some (top :: below) →
    top.chars = rest.takeWhile Text.isIndent ∧ ∀ outer ∈ below.head?, outer.chars <+: top.chars

theorem StartsLine.suffix {rest text : Text} (starts : StartsLine rest text) : rest <:+ text := by
  rcases starts with ⟨front, c, -, parts⟩
  exact ⟨front ++ [c], by simp [parts]⟩

theorem suffix_of_startsLine {rest text : Text} (left : rest = [] ∨ StartsLine rest text) :
    rest <:+ text := by
  rcases left with rfl | starts
  · exact List.nil_suffix
  · exact starts.suffix

theorem LeavesOpen.suffix {text rest : Text} {stack : List Indentation}
    (left : LeavesOpen text stack rest) : rest <:+ text := by
  induction left with
  | front => exact List.suffix_refl text
  | blank _ scanned ih => exact (suffix_of_startsLine (blankLine_startsLine scanned)).trans ih
  | code _ _ _ scanned ih =>
    exact ((suffix_of_startsLine (logicalLine_startsLine scanned)).trans
      (List.dropWhile_suffix _)).trans ih

/-- Blanks up to something else than a continued line are a run. -/
theorem blankRun_eq {text : Text} (plain : (text.dropWhile Text.isIndent).head? ≠ some '\x5c') :
    blankRun text = (text.takeWhile Text.isIndent, text.dropWhile Text.isIndent) := by
  fun_induction blankRun text with
  | case1 => exact absurd rfl plain
  | case2 => exact absurd rfl plain
  | case3 => exact absurd rfl plain
  | case4 c rest _ _ _ blank ih =>
    rw [List.dropWhile_cons_of_pos blank] at plain
    rw [List.takeWhile_cons_of_pos blank, List.dropWhile_cons_of_pos blank, ih plain]
    rfl
  | case5 c rest _ _ _ solid =>
    rw [List.takeWhile_cons_of_neg solid, List.dropWhile_cons_of_neg solid]
  | case6 => rfl

/-- Where there is no blank line, a comment and a line break are missing: either something else stands
there, or a continued line is the end of the text. -/
theorem blankLine_eq_none {usual text : Text} (solid : text ≠ [])
    (missing : blankLine usual text = none) :
    (comment (blankRun text).2).1 = [] ∧
      ((comment (blankRun text).2).2 = [] ∧ (blankRun text).1.getLast?.any Text.isBreak = true ∨
        Text.splitBreak (comment (blankRun text).2).2 = none ∧
          (comment (blankRun text).2).2 ≠ []) := by
  unfold blankLine at missing
  dsimp only at missing
  split at missing
  case h_1 => cases missing
  case h_2 ended _ =>
    split at missing
    case isTrue continued =>
      rw [Bool.or_eq_true, Bool.and_eq_true, decide_eq_true_eq, decide_eq_true_eq] at continued
      rcases continued.resolve_left solid with ⟨bare, last⟩
      exact ⟨bare, .inl ⟨ended, last⟩⟩
    case isFalse => cases missing
  case h_3 whole going => exact ⟨comment_eq_nil going whole, .inr ⟨whole, going⟩⟩

theorem startsCode_of_blankLine {usual text : Text} (solid : text ≠ [])
    (missing : blankLine usual text = none) : StartsCode text := by
  rcases blankLine_eq_none solid missing with ⟨bare, left⟩
  cases first : (text.dropWhile Text.isIndent).head? with
  | none =>
    exfalso
    have ended := List.head?_eq_none_iff.1 first
    rw [blankRun_eq (by rw [first]; nofun), ended] at left
    rcases left with ⟨-, last⟩ | ⟨-, going⟩
    · refine not_endsBroken (fun c member => ?_) last
      exact isUnbroken_of Text.isIndent (by decide) c (List.mem_takeWhile_imp member)
    · exact going rfl
  | some c =>
    rcases List.head?_eq_some_iff.1 first with ⟨later, parts⟩
    refine ⟨c, first, ?_, ?_⟩
    · rintro rfl
      rw [blankRun_eq (by rw [first]; nofun), parts] at bare
      cases bare
    · by_contra broken
      rw [Bool.not_eq_false] at broken
      have noRemark : comment (c :: later) = ([], c :: later) := by
        unfold comment
        split
        case h_1 same =>
          cases same
          cases broken
        case h_2 => rfl
      have plain : (text.dropWhile Text.isIndent).head? ≠ some '\x5c' := by
        rw [first]
        rintro same
        cases same
        cases broken
      rw [blankRun_eq plain, parts, noRemark] at left
      rcases left with ⟨ended, -⟩ | ⟨whole, -⟩
      · cases ended
      · exact splitBreak_ne_none broken later whole

/-! ## Open blocks -/

/-- What becomes of the indentations of the open blocks, the innermost first, at a line with an
indentation and some number of blocks around its own: the line stays in an open block, or it opens a
block whose indentation goes on with the one before. -/
inductive Enters (indent : Text) (depth : Nat) : List Text → List Text → Prop
  | stays (inner below : List Text) : below.length = depth →
    Enters indent depth (inner ++ indent :: below) (indent :: below)
  | opens (outer : Text) (below : List Text) : below.length + 1 = depth → outer <+: indent →
    Enters indent depth (outer :: below) (indent :: outer :: below)

/-- Closing blocks goes back to an open one. -/
theorem suffix_of_close {line : Indentation} {stack left : List Indentation}
    (closed : reindentStack.close line stack = some left) : left <:+ stack := by
  induction stack with
  | nil => cases closed
  | cons first others ih =>
    unfold reindentStack.close at closed
    split at closed
    · exact (ih closed).trans (List.suffix_cons first others)
    · split at closed <;> cases closed
      exact List.suffix_refl _

/-- A line stays in an open block, or it opens one in the innermost of them. -/
theorem reindentStack_cases {line top first : Indentation} {others below : List Indentation}
    (stacked : reindentStack line (first :: others) = some (top :: below)) :
    top :: below <:+ first :: others ∨
      top = line ∧ below = first :: others ∧ first.narrow < line.narrow := by
  rw [reindentStack.eq_2] at stacked
  split at stacked
  case isTrue =>
    split at stacked <;> cases stacked
    exact .inl (List.suffix_refl _)
  case isFalse =>
    split at stacked
    case isTrue =>
      split at stacked
      case isTrue deeper =>
        cases stacked
        exact .inr ⟨rfl, rfl, deeper⟩
      case isFalse => cases stacked
    case isFalse => exact .inl (suffix_of_close stacked)

theorem EvenlyIndented.enters {text rest : Text} {top first : Indentation}
    {others below : List Indentation} (even : EvenlyIndented text)
    (left : LeavesOpen text (first :: others) rest) (code : StartsCode rest)
    (stacked : reindentStack (.measure (rest.takeWhile Text.isIndent)) (first :: others) =
      some (top :: below)) :
    top.chars = rest.takeWhile Text.isIndent ∧
      Enters top.chars below.length ((first :: others).map (·.chars))
        ((top :: below).map (·.chars)) := by
  rcases even _ _ _ _ left code stacked with ⟨kept, nested⟩
  have length : (below.map (·.chars)).length = below.length := List.length_map ..
  refine ⟨kept, ?_⟩
  rcases reindentStack_cases stacked with ⟨inner, parts⟩ | ⟨-, rfl, -⟩
  · rw [← parts, List.map_append, List.map_cons]
    exact .stays (inner.map (·.chars)) _ length
  · rw [List.map_cons, List.map_cons]
    rw [List.length_map] at length
    exact .opens first.chars _ (by simp) (nested first rfl)

/-- Every line enters a block from those that are open behind the line before it. -/
inductive LinesEnter : List Text → List LogicalLine → Prop
  | nil (opened : List Text) : LinesEnter opened []
  | cons {opened inner : List Text} {line : LogicalLine} {later : List LogicalLine} :
    Enters line.indent line.depth opened inner → LinesEnter inner later →
    LinesEnter opened (line :: later)

/-! ## Lines as they are written -/

def printBlanks (newline : Text) (blanks : List BlankLine) : Text :=
  blanks.flatMap fun blank => blank.chars ++ blank.lineBreak.print ⟨[], newline⟩

/-- A logical line, with the blank lines above it, as it is written with the indentation of its
block. -/
def LogicalLine.print (newline : Text) (line : LogicalLine) : Text :=
  let layout : Layout := ⟨line.indent, newline⟩
  printBlanks newline line.above ++
    (line.indent ++ (printTokens layout line.tokens ++ line.ending.print layout))

def printLogical (newline : Text) (lines : List LogicalLine) (after : List BlankLine) : Text :=
  lines.flatMap (·.print newline) ++ printBlanks newline after

theorem printBlanks_append (newline : Text) (front back : List BlankLine) :
    printBlanks newline (front ++ back) = printBlanks newline front ++ printBlanks newline back :=
  List.flatMap_append

theorem printLogical_cons (newline : Text) (first : LogicalLine) (later : List LogicalLine)
    (after : List BlankLine) :
    printLogical newline (first :: later) after =
      first.print newline ++ printLogical newline later after := by
  rw [printLogical, List.flatMap_cons, List.append_assoc]
  rfl

theorem SpellsLine.trans {newline first second rest text : Text}
    (spells : SpellsLine newline first rest text) (others : SpellsLine newline second [] rest)
    (empty : rest = [] → second = []) : SpellsLine newline (first ++ second) [] text := by
  rcases spells with whole | ⟨rfl, whole, unbroken⟩
  · by_cases ended : rest = []
    · rw [empty ended]
      subst ended
      exact .inl (by rwa [List.append_nil])
    · rcases others with exact_ | ⟨-, written, unbroken⟩
      · left
        rw [List.append_nil] at exact_ ⊢
        rw [exact_, whole]
      · refine .inr ⟨rfl, by rw [written, ← List.append_assoc, whole], ?_⟩
        rwa [← whole, endsBroken_append first ended]
  · rw [empty rfl, List.append_nil]
    exact .inr ⟨rfl, whole, unbroken⟩

theorem logicalLines_nil {usual : Text} {fuel number : Nat} {stack : List Indentation}
    {above after : List BlankLine} {lines : List LogicalLine}
    (scanned : logicalLines usual fuel number stack above [] = some (lines, after)) :
    lines = [] ∧ after = above := by
  cases fuel with
  | zero => cases scanned
  | succ fuel =>
    cases scanned
    exact ⟨rfl, rfl⟩

/-- The lines at the end of an evenly indented text enter the blocks they stand in, and spell the end of
the text, behind the blank lines above it and up to a last line break. -/
theorem logicalLines_spells {whole : Text} {fuel number : Nat} {first : Indentation}
    {others : List Indentation} {above after : List BlankLine} {text : Text}
    {lines : List LogicalLine} (even : EvenlyIndented whole)
    (left : LeavesOpen whole (first :: others) text)
    (scanned : logicalLines (usualBreak whole) fuel number (first :: others) above text =
      some (lines, after)) :
    LinesEnter ((first :: others).map (·.chars)) lines ∧
      ∃ written, printLogical (usualBreak whole) lines after =
          printBlanks (usualBreak whole) above ++ written ∧
        SpellsLine (usualBreak whole) written [] text ∧ (text = [] → written = []) := by
  induction fuel generalizing number first others above text lines with
  | zero => cases scanned
  | succ fuel ih =>
    by_cases solid : text = []
    · subst solid
      rcases logicalLines_nil scanned with ⟨rfl, rfl⟩
      exact ⟨.nil _, [], (List.append_nil _).symm, .inl rfl, fun _ => rfl⟩
    unfold logicalLines at scanned
    split at scanned
    case h_1 line next blank =>
      rcases ih (left.blank blank) scanned with ⟨enter, written, printed, spells, empty⟩
      refine ⟨enter, _, ?_, (blankLine_spells blank).trans spells empty,
        fun nothing => absurd nothing solid⟩
      rw [printed, printBlanks_append, List.append_assoc]
      congr 1
      exact congrArg (· ++ written) (List.append_nil _)
    case h_2 missing =>
      rw [if_neg solid] at scanned
      dsimp only at scanned
      split at scanned
      case h_1 => cases scanned
      case h_2 => cases scanned
      case h_3 top below stacked =>
        split at scanned
        case h_1 => cases scanned
        case h_2 => cases scanned
        case h_3 tokens ending next _ line =>
          split at scanned
          case h_1 => cases scanned
          case h_2 later after more =>
            cases scanned
            have code := startsCode_of_blankLine solid missing
            rcases even.enters left code stacked with ⟨margin, enters⟩
            rcases ih (left.code code stacked line) more with
              ⟨enter, written, printed, spells, empty⟩
            have nested : NestUnbroken [] := List.forall_mem_nil _
            have unbroken : text.dropWhile Text.isIndent = [] →
                ¬ EndsBroken (text.takeWhile Text.isIndent) := fun _ => not_endsBroken
              fun c member => isUnbroken_of Text.isIndent (by decide) c
                (List.mem_takeWhile_imp member)
            have front := (logicalLine_spells nested line).push unbroken
            rw [List.takeWhile_append_dropWhile, ← margin] at front
            refine ⟨.cons enters enter, _, ?_, front.trans spells empty,
              fun nothing => absurd nothing solid⟩
            rw [printLogical_cons, printed, LogicalLine.print]
            exact List.append_assoc ..

/-! ## Texts with like margins -/

/-- The blanks in front of a logical line of a text. -/
def IsMargin (text margin : Text) : Prop :=
  ∃ stack rest, LeavesOpen text stack rest ∧ StartsCode rest ∧ margin = rest.takeWhile Text.isIndent

theorem Indentation.chars_measure (blanks : Text) : (Indentation.measure blanks).chars = blanks := by
  have kept : ∀ (rest : Text) (sofar : Indentation),
      (rest.foldl Indentation.measure.step sofar).chars = sofar.chars := by
    intro rest
    induction rest with
    | nil => intro sofar; rfl
    | cons first later ih =>
      intro sofar
      rw [List.foldl_cons, ih, Indentation.measure.step]
      split
      · rfl
      · split <;> rfl
  exact kept blanks _

/-- Measuring blanks without a form feed counts them. -/
theorem narrow_measure {blanks : Text} (plain : '\x0c' ∉ blanks) :
    (Indentation.measure blanks).narrow = blanks.length := by
  have onward : ∀ sofar : Indentation,
      (blanks.foldl Indentation.measure.step sofar).narrow = sofar.narrow + blanks.length := by
    induction blanks with
    | nil => exact fun sofar => rfl
    | cons c blanks ih =>
      intro sofar
      rw [List.mem_cons, not_or] at plain
      have one : (Indentation.measure.step sofar c).narrow = sofar.narrow + 1 := by
        unfold Indentation.measure.step
        split
        · rfl
        · rw [if_neg (by simpa using Ne.symm plain.1)]
      rw [List.foldl_cons, ih plain.2, one, List.length_cons]
      omega
  exact (onward ⟨blanks, 0, 0⟩).trans (Nat.zero_add _)

def Indentation.GoesOn (inner outer : Indentation) : Prop :=
  outer.chars <+: inner.chars

/-- Indentations whose widths count their characters, each a margin of a text or nothing, and each going
on with those around it. -/
structure AreNested (text : Text) (stack : List Indentation) : Prop where
  narrow : ∀ level ∈ stack, level.narrow = level.chars.length
  chars : ∀ level ∈ stack, level.chars = [] ∨ IsMargin text level.chars
  nested : stack.Pairwise Indentation.GoesOn

namespace AreNested

variable {text margin : Text} {line top first : Indentation} {stack below : List Indentation}

theorem of_suffix (nested : AreNested text stack) (part : below <:+ stack) :
    AreNested text below where
  narrow level member := nested.narrow level (part.subset member)
  chars level member := nested.chars level (part.subset member)
  nested := nested.nested.sublist part.sublist

/-- Of two indentations the longer goes on with the shorter if of two margins it does. -/
theorem goesOn (like : ∀ one other, IsMargin text one → IsMargin text other →
      one <+: other ∨ other <+: one)
    (nested : AreNested text stack) (member : first ∈ stack) (isMargin : IsMargin text margin)
    (order : first.narrow ≤ margin.length) : first.chars <+: margin := by
  rw [nested.narrow first member] at order
  rcases nested.chars first member with empty | known
  · rw [empty]
    exact List.nil_prefix
  · rcases like _ _ known isMargin with goes | back
    · exact goes
    · have same := back.eq_of_length_le order
      exact ⟨[], by rw [List.append_nil, same]⟩

/-- The indentations that are open at a line start with its margin. -/
theorem reindentStack (visible : ∀ margin, IsMargin text margin → '\x0c' ∉ margin)
    (like : ∀ one other, IsMargin text one → IsMargin text other →
      one <+: other ∨ other <+: one)
    (nested : AreNested text stack) (isMargin : IsMargin text margin)
    (stacked : Source.reindentStack (.measure margin) stack = some (top :: below)) :
    AreNested text (top :: below) ∧ top.chars = margin := by
  have narrow := narrow_measure (visible margin isMargin)
  have chars := Indentation.chars_measure margin
  cases stack with
  | nil =>
    cases stacked
    refine ⟨⟨?_, ?_, List.pairwise_singleton _ _⟩, chars⟩
    · exact List.forall_mem_singleton.2 (by rw [narrow, chars])
    · exact List.forall_mem_singleton.2 (.inr (by rwa [chars]))
  | cons first others =>
    have width := (width_of_reindentStack stacked).2
    rcases reindentStack_cases stacked with part | ⟨rfl, rfl, deeper⟩
    · have known := nested.of_suffix part
      refine ⟨known, (known.goesOn like List.mem_cons_self isMargin ?_).eq_of_length ?_⟩
      · rw [← width, narrow]
      · rw [← known.narrow top List.mem_cons_self, ← width, narrow]
    · have goes := nested.goesOn like List.mem_cons_self isMargin (narrow ▸ deeper.le)
      refine ⟨⟨?_, ?_, ?_⟩, chars⟩
      · exact List.forall_mem_cons.2 ⟨by rw [narrow, chars], nested.narrow⟩
      · exact List.forall_mem_cons.2 ⟨.inr (by rwa [chars]), nested.chars⟩
      · rw [← chars] at goes
        refine List.pairwise_cons.2 ⟨List.forall_mem_cons.2 ⟨goes, ?_⟩, nested.nested⟩
        exact fun outer member => (List.rel_of_pairwise_cons nested.nested member).trans goes

end AreNested

/-- A text is evenly indented if of any two of its margins the longer goes on with the shorter, and there
is no form feed in them. -/
theorem evenlyIndented_of_margins {text : Text}
    (visible : ∀ margin, IsMargin text margin → '\x0c' ∉ margin)
    (like : ∀ one other, IsMargin text one → IsMargin text other →
      one <+: other ∨ other <+: one) : EvenlyIndented text := by
  have nested : ∀ {stack rest}, LeavesOpen text stack rest → AreNested text stack := by
    intro stack rest left
    induction left with
    | front =>
      exact ⟨List.forall_mem_singleton.2 rfl, List.forall_mem_singleton.2 (.inl rfl),
        List.pairwise_singleton _ _⟩
    | blank _ _ ih => exact ih
    | code left code stacked _ ih =>
      exact (ih.reindentStack visible like ⟨_, _, left, code, rfl⟩ stacked).1
  intro stack rest top below left code stacked
  rcases (nested left).reindentStack visible like ⟨_, _, left, code, rfl⟩ stacked with
    ⟨known, same⟩
  refine ⟨same, fun outer member => ?_⟩
  exact List.rel_of_pairwise_cons known.nested (List.mem_of_mem_head? member)

/-- A text is evenly indented if there are no blanks in it but those of one character, which is no form
feed. -/
theorem evenlyIndented_of_blanks {mark : Char} {text : Text} (plain : mark ≠ '\x0c')
    (blanks : ∀ c ∈ text, Text.isIndent c = true → c = mark) : EvenlyIndented text := by
  have made : ∀ margin, IsMargin text margin → ∀ c ∈ margin, c = mark := by
    rintro _ ⟨stack, rest, left, -, rfl⟩ c member
    have inside : c ∈ text := left.suffix.subset ((List.takeWhile_prefix _).subset member)
    exact blanks c inside (List.mem_takeWhile_imp member)
  apply evenlyIndented_of_margins
  · intro margin isMargin member
    exact plain (made margin isMargin _ member).symm
  · intro first second isFirst isSecond
    have firstAll := List.eq_replicate_of_mem (made first isFirst)
    have secondAll := List.eq_replicate_of_mem (made second isSecond)
    have extended : ∀ {fewer more : Nat}, fewer ≤ more →
        List.replicate fewer mark <+: List.replicate more mark := fun {fewer more} order =>
      ⟨List.replicate (more - fewer) mark, by
        rw [List.replicate_append_replicate, Nat.add_sub_cancel' order]⟩
    rw [firstAll, secondAll]
    exact (Nat.le_total first.length second.length).imp extended extended

end Source
end OpenRecord
