import OpenRecord.Proofs.Source.OpeningWords
import OpenRecord.Proofs.Source.Reading

namespace OpenRecord
namespace Source

/-!
# Statements that open with a definition

If a text that starts with the opening words of a definition, or with a decorator line above them,
can be read as a single statement, that statement is a definition of the name in the opening, and
it has no other decorator.  The lines of a text with a margin open in the same way, so that the law
of outlines applies to a block as well as to a whole text.
-/

/-! ## Lines in a file -/

/-- The first line of a text that starts with a token behind some blanks, and what the lines below
it are read from. -/
theorem logicalLines_append {usual : Text} {fuel number : Nat} {stack : List Indentation}
    {above : List BlankLine} {blanks rest : Text} {c : Char} {lines : List LogicalLine}
    {after : List BlankLine} (blank : ∀ x ∈ blanks, Text.isIndent x = true)
    (start : StartsToken c)
    (scanned : logicalLines usual fuel number stack above (blanks ++ c :: rest) =
      some (lines, after)) :
    ∃ top below tokens ending next later fuel' number',
      reindentStack (.measure blanks) stack = some (top :: below) ∧
        logicalLine ⟨usual, top.chars⟩ (rest.length + 2) [] (c :: rest) =
          some (tokens, ending, next) ∧
        lines = ⟨above, top.chars, below.length, number, tokens, ending⟩ :: later ∧
        logicalLines usual fuel' number' (top :: below) [] next = some (later, after) := by
  cases fuel with
  | zero => cases scanned
  | succ fuel =>
    unfold logicalLines at scanned
    rw [blankLine_append blank start] at scanned
    simp only [takeWhile_isIndent blank start, dropWhile_isIndent blank start,
      List.append_eq_nil_iff, reduceCtorEq, and_false, if_false, List.length_cons] at scanned
    split at scanned
    · cases scanned
    · cases scanned
    case h_3 top below stacked =>
      split at scanned
      · cases scanned
      · cases scanned
      case h_3 tokens ending next some_token read =>
        split at scanned
        · cases scanned
        case h_2 later after' others =>
          cases scanned
          exact ⟨top, below, tokens, ending, next, later, _, _, stacked, read, rfl, others⟩

/-- Closing blocks stops at a block of the width of the line. -/
theorem width_of_close {line top : Indentation} {stack below : List Indentation}
    (closed : reindentStack.close line stack = some (top :: below)) :
    line.wide = top.wide ∧ line.narrow = top.narrow := by
  induction stack with
  | nil => cases closed
  | cons first others ih =>
    unfold reindentStack.close at closed
    split at closed
    · exact ih closed
    · split at closed
      case isTrue same =>
        cases closed
        simpa using same
      · cases closed

theorem width_of_reindentStack {line top : Indentation} {stack below : List Indentation}
    (stacked : reindentStack line stack = some (top :: below)) :
    line.wide = top.wide ∧ line.narrow = top.narrow := by
  cases stack with
  | nil =>
    cases stacked
    exact ⟨rfl, rfl⟩
  | cons first others =>
    rw [reindentStack.eq_2] at stacked
    split at stacked
    case isTrue wide =>
      split at stacked
      case isTrue narrow =>
        cases stacked
        exact ⟨wide, narrow⟩
      · cases stacked
    · split at stacked
      · split at stacked
        · cases stacked
          exact ⟨rfl, rfl⟩
        · cases stacked
      · exact width_of_close stacked

/-- A line indented like the one above it stays in the same block. -/
theorem reindentStack_again {line top : Indentation} {stack below : List Indentation}
    (stacked : reindentStack line stack = some (top :: below)) :
    reindentStack line (top :: below) = some (top :: below) := by
  simp [reindentStack, width_of_reindentStack stacked]

/-! ## Outlines that open with a definition -/

def LogicalLine.Defines (line : LogicalLine) (name : Text) : Prop :=
  ∀ read, readLine false line.tokens = some read →
    ∃ role front items, read = .header (.definition role) front items ∧ role.name = name

def LogicalLine.Decorates (line : LogicalLine) (value : Expression) : Prop :=
  readLine false line.tokens = some (.header (.decorator value) line.tokens [])

theorem LogicalLine.Defines.read_eq_some {line : LogicalLine} {name : Text}
    {children : List Outline} {foot : List BlankLine} {part : Part} (defines : line.Defines name)
    (read : (Outline.node line children foot).read false = some part) :
    ∃ head body, part = .definition head body ∧ head.role.name = name ∧ head.decorators = [] := by
  have whole := read
  rw [Outline.read] at whole
  rcases Option.bind_eq_some_iff.1 whole with ⟨header, readable, -⟩
  rcases defines header readable with ⟨role, front, items, rfl, named⟩
  rcases read_of_definition readable read with ⟨head, suite, rfl, rfl, plain, -⟩
  exact ⟨head, suite, rfl, named, plain⟩

theorem LogicalLine.Decorates.read_eq_some {line : LogicalLine} {value : Expression}
    {children : List Outline} {foot : List BlankLine} {part : Part}
    (decorates : line.Decorates value)
    (read : (Outline.node line children foot).read false = some part) :
    ∃ decorator, part = .decorator decorator ∧ decorator.expression = value := by
  rw [Outline.read, decorates] at read
  simp only [Option.bind_eq_bind, Option.bind_some] at read
  split at read
  · cases read
  · cases read
    exact ⟨_, rfl, rfl⟩

/-- Outlines of which the first makes a definition of a name, alone or below one decorator. -/
inductive OpensWith (name : Text) (depth : Nat) : Option Expression → List Outline → Prop
  | alone {line : LogicalLine} {children : List Outline} {foot : List BlankLine}
      {others : List Outline} : line.depth = depth → line.Defines name →
    OpensWith name depth none (.node line children foot :: others)
  | decorated {value : Expression} {above line : LogicalLine} {children below : List Outline}
      {foot behind : List BlankLine} {others : List Outline} : above.depth = depth →
    above.Decorates value → line.depth = depth → line.Defines name →
    OpensWith name depth (some value)
      (.node above children foot :: .node line below behind :: others)

/-- A statement that is a definition of a name, with at most the given decorator. -/
def Statement.DefinesAs (statement : Statement) (name : Text) (value : Option Expression) : Prop :=
  ∃ head body, statement = .definition head body ∧ head.role.name = name ∧
    head.decorators.map (·.expression) = value.toList

theorem OpensWith.definesAs {name : Text} {depth : Nat} {value : Option Expression}
    {outlines : List Outline} {parts : List Part} {statements : List Statement}
    (opens : OpensWith name depth value outlines) (read : readOutlines false outlines = some parts)
    (assembled : assemble [] [] parts = some statements) :
    ∃ first others, statements = first :: others ∧ first.DefinesAs name value := by
  cases opens with
  | alone depth defines =>
    rw [readOutlines] at read
    rcases Option.bind_eq_some_iff.1 read with ⟨part, first, read⟩
    rcases Option.bind_eq_some_iff.1 read with ⟨later, -, same⟩
    cases same
    rcases defines.read_eq_some first with ⟨head, body, rfl, named, plain⟩
    rcases assemble_definition assembled with ⟨others, rfl⟩
    exact ⟨_, others, rfl, head, body, rfl, named, by simp [plain]⟩
  | decorated depth decorates depth' defines =>
    rw [readOutlines, readOutlines] at read
    rcases Option.bind_eq_some_iff.1 read with ⟨part, first, read⟩
    rcases Option.bind_eq_some_iff.1 read with ⟨inner, next, same⟩
    cases same
    rcases Option.bind_eq_some_iff.1 next with ⟨part', second, read⟩
    rcases Option.bind_eq_some_iff.1 read with ⟨later, -, same⟩
    cases same
    rcases decorates.read_eq_some first with ⟨decorator, rfl, expression⟩
    rcases defines.read_eq_some second with ⟨head, body, rfl, named, plain⟩
    rw [assemble_decorator] at assembled
    rcases assemble_definition assembled with ⟨others, rfl⟩
    exact ⟨_, others, rfl, _, body, rfl, named, by simp [Definition.decorated, expression]⟩

/-- Outlines that are deeper than a line stay in front if only those that are deeper are kept. -/
theorem OpensWith.takeWhile {name : Text} {depth : Nat} {value : Option Expression}
    {outlines : List Outline} (opens : OpensWith name depth value outlines) {line : LogicalLine}
    (deeper : line.depth < depth) :
    OpensWith name depth value (outlines.takeWhile (line.depth < ·.line.depth)) := by
  cases opens with
  | alone same defines =>
    rw [List.takeWhile_cons, if_pos (by simpa [Outline.line, same] using deeper)]
    exact .alone same defines
  | decorated same decorates same' defines =>
    rw [List.takeWhile_cons, if_pos (by simpa [Outline.line, same] using deeper),
      List.takeWhile_cons, if_pos (by simpa [Outline.line, same'] using deeper)]
    exact .decorated same decorates same' defines

theorem OpensWith.takeWhile_eq_nil {name : Text} {depth : Nat} {value : Option Expression}
    {outlines : List Outline} (opens : OpensWith name depth value outlines) {line : LogicalLine}
    (shallow : ¬ line.depth < depth) :
    outlines.takeWhile (line.depth < ·.line.depth) = [] := by
  cases opens with
  | alone same defines =>
    rw [List.takeWhile_cons, if_neg (by simpa [Outline.line, same] using shallow)]
  | decorated same decorates same' defines =>
    rw [List.takeWhile_cons, if_neg (by simpa [Outline.line, same] using shallow)]

/-- Lines of which the first defines a name, alone or below one decorator. -/
inductive LinesOpenWith (name : Text) (depth : Nat) : Option Expression → List LogicalLine → Prop
  | alone {line : LogicalLine} {later : List LogicalLine} : line.depth = depth →
    line.Defines name → LinesOpenWith name depth none (line :: later)
  | decorated {value : Expression} {above line : LogicalLine} {later : List LogicalLine} :
    above.depth = depth → above.Decorates value → line.depth = depth → line.Defines name →
    LinesOpenWith name depth (some value) (above :: line :: later)

theorem LinesOpenWith.opensWith {name : Text} {depth : Nat} {value : Option Expression}
    {lines : List LogicalLine} (opens : LinesOpenWith name depth value lines)
    (after : List BlankLine) :
    OpensWith name depth value (Forest.ofLines lines after).roots := by
  cases opens with
  | @alone line later same defines =>
    rcases Forest.roots_place line (Forest.ofLines later after) with ⟨foot, others, placed, -⟩
    exact placed ▸ .alone same defines
  | @decorated value above line later same decorates same' defines =>
    rcases Forest.roots_place line (Forest.ofLines later after) with ⟨foot, others, inner, -⟩
    rcases Forest.roots_place above (Forest.ofLines (line :: later) after) with
      ⟨foot', others', outer, -, behind⟩
    -- the definition line is as deep as the decorator, so that it comes behind it, not below it
    generalize (Forest.ofLines later after).roots.takeWhile (line.depth < ·.line.depth) = below
      at inner
    have kept : (Forest.ofLines (line :: later) after).roots.dropWhile
        (above.depth < ·.line.depth) = .node line below foot :: others := by
      change (Forest.place line (Forest.ofLines later after)).roots.dropWhile _ = _
      rw [inner, List.dropWhile_cons, if_neg (by simp [Outline.line, same, same'])]
    change OpensWith name depth _ (Forest.place above (Forest.ofLines (line :: later) after)).roots
    rw [outer]
    rcases behind with rfl | ⟨next, rest, blanks, split, rfl⟩
    · rw [kept]
      exact .decorated same decorates same' defines
    · cases kept.symm.trans split
      exact .decorated same decorates same' defines

theorem OpensWith.withAbove {name : Text} {depth : Nat} {value : Option Expression}
    {first : Outline} {later : List Outline} (opens : OpensWith name depth value (first :: later))
    (above : List BlankLine) : OpensWith name depth value (first.withAbove above :: later) := by
  cases opens with
  | alone same defines => exact .alone same defines
  | decorated same decorates same' defines => exact .decorated same decorates same' defines

/-! ## Texts that open with a definition -/

/-- The first line of a definition with at most one decorator line above it. -/
structure Headline where
  decorator : Option DecoratorLine
  opening : Opening

namespace Headline

def name (headline : Headline) : Text :=
  headline.opening.name

def value (headline : Headline) : Option Expression :=
  headline.decorator.map (·.value)

def text (headline : Headline) (margin : Text) : Text :=
  (match headline.decorator with
    | none => []
    | some line => margin ++ (line.chars ++ ['\n'])) ++ (margin ++ headline.opening.text)

theorem linesOpenWith {headline : Headline} {margin usual rest : Text} {fuel number : Nat}
    {stack : List Indentation} {above : List BlankLine} {lines : List LogicalLine}
    {after : List BlankLine} (blank : ∀ x ∈ margin, Text.isIndent x = true)
    (scanned : logicalLines usual fuel number stack above (headline.text margin ++ rest) =
      some (lines, after)) :
    ∃ depth, LinesOpenWith headline.name depth headline.value lines := by
  rcases headline with ⟨decorator, opening⟩
  rcases List.exists_cons_of_ne_nil opening.opener.text_ne_nil with ⟨letter, letters, opener⟩
  have start : StartsToken letter :=
    startsToken_of_isWordChar (opening.opener.chars_text letter (by simp [opener])).1
  have written : opening.text ++ rest =
      letter :: (letters ++ ' ' :: (opening.name ++ opening.behind :: rest)) := by
    simp [Opening.text, opener]
  cases decorator with
  | none =>
    simp only [text, List.nil_append, List.append_assoc, written] at scanned
    rcases logicalLines_append blank start scanned with
      ⟨top, below, tokens, ending, next, later, fuel', number', -, line, rfl, -⟩
    rw [← written] at line
    exact ⟨_, .alone rfl fun read readable => Opening.defines line readable⟩
  | some decorator =>
    rcases decorator with ⟨chars, decoration, value, head, unbroken, known, readable⟩
    rcases List.head?_eq_some_iff.1 head with ⟨inner, rfl⟩
    have sign : StartsToken '@' := ⟨by decide, by decide, by decide, by decide⟩
    simp only [text, List.append_assoc, List.cons_append, written] at scanned
    rcases logicalLines_append blank sign scanned with
      ⟨top, below, tokens, ending, next, later, fuel', number', stacked, line, rfl, others⟩
    generalize behind :
      letter :: (letters ++ ' ' :: (opening.name ++ opening.behind :: rest)) = body at *
    have first := known ⟨usual, top.chars⟩ ((margin ++ body).length + 1) (margin ++ body)
    rw [show (margin ++ body).length + 1 + ('@' :: inner).length + 1 =
      (inner ++ '\n' :: (margin ++ body)).length + 2 by simp; omega] at first
    cases line.symm.trans first
    subst behind
    rcases logicalLines_append blank start others with
      ⟨top', below', tokens', ending', next', later', fuel'', number'', stacked', line', rfl, -⟩
    cases (reindentStack_again stacked).symm.trans stacked'
    rw [← written] at line'
    exact ⟨_, .decorated rfl readable rfl fun read found => Opening.defines line' found⟩

theorem withoutByteOrderMark_text (headline : Headline) (rest : Text) :
    withoutByteOrderMark (headline.text [] ++ rest) = headline.text [] ++ rest := by
  rcases headline with ⟨decorator, opening⟩
  cases decorator with
  | none =>
    rcases List.exists_cons_of_ne_nil opening.opener.text_ne_nil with ⟨letter, letters, opener⟩
    have plain := (opening.opener.chars_text letter (by simp [opener])).2.2
    simp only [text, Opening.text, opener, List.nil_append, List.append_assoc, List.cons_append]
    rw [withoutByteOrderMark.eq_2]
    rintro _ same
    exact plain (List.cons.inj same).1
  | some decorator =>
    rcases List.head?_eq_some_iff.1 decorator.head with ⟨inner, chars⟩
    simp only [text, chars, List.nil_append, List.append_assoc, List.cons_append]
    rfl

end Headline

theorem LinesOpenWith.definesAs {name : Text} {depth : Nat} {value : Option Expression}
    {lines : List LogicalLine} {after : List BlankLine} {header footer : List Line}
    {statements : List Statement} (opens : LinesOpenWith name depth value lines)
    (read : readStatements lines after = some (header, statements, footer)) :
    ∃ first others, statements = first :: others ∧ first.DefinesAs name value := by
  have outlines := opens.opensWith after
  generalize roots : (Forest.ofLines lines after).roots = found at outlines
  cases found with
  | nil => cases outlines
  | cons first later =>
    rcases readStatements_eq_some roots read with ⟨parts, readParts, assembled⟩
    exact (outlines.withAbove []).definesAs readParts assembled

/-- A text that starts with a headline is read as a definition of its name, if it is a statement. -/
theorem Headline.definesAs_of_parse? {headline : Headline} {rest : Text} {statement : Statement}
    (parsed : Statement.parse? (headline.text [] ++ rest) = some statement) :
    statement.DefinesAs headline.name headline.value := by
  unfold Statement.parse? at parsed
  rw [headline.withoutByteOrderMark_text] at parsed
  rcases Option.bind_eq_some_iff.1 parsed with ⟨⟨lines, after⟩, scanned, parsed⟩
  rcases Option.bind_eq_some_iff.1 parsed with ⟨⟨header, statements, footer⟩, read, only⟩
  rcases headline.linesOpenWith (by simp) scanned with ⟨depth, opens⟩
  rcases opens.definesAs read with ⟨first, others, rfl, defines⟩
  split at only
  · case h_1 same =>
    cases same
    cases only
    exact defines
  · cases only

end Source
end OpenRecord
