import OpenRecord.Proofs.Code.EmittedLines
import OpenRecord.Proofs.Code.ReadableTerms

namespace OpenRecord
namespace Code

/-!
# Commands that can be read

Commands are emitted as rows and blocks if their terms can be read.  So is documentation, if it needs no
escapes.  A block is never empty.
-/

open Source

/-! ## Bodies -/

/-- Lines that make up statements, none perhaps. -/
def IsCode (place : Nat → Text → Text) (lines : List Text) : Prop :=
  ∃ shapes, CodeLines place lines shapes ∧ Grouped shapes

/-- Lines of a block. -/
def IsBody (place : Nat → Text → Text) (lines : List Text) : Prop :=
  ∃ shapes, CodeLines place lines shapes ∧ Grouped shapes ∧ shapes ≠ []

section Bodies

variable {place : Nat → Text → Text} {front back : List Text}

theorem IsBody.isCode (body : IsBody place front) : IsCode place front := by
  rcases body with ⟨shapes, code, grouped, -⟩
  exact ⟨shapes, code, grouped⟩

theorem IsCode.append (first : IsCode place front) (second : IsCode place back) :
    IsCode place (front ++ back) := by
  rcases first with ⟨shapes, code, grouped⟩
  rcases second with ⟨others, more, together⟩
  exact ⟨shapes ++ others, code.append more, grouped.append together⟩

theorem IsBody.append (first : IsBody place front) (second : IsCode place back) :
    IsBody place (front ++ back) := by
  rcases first with ⟨shapes, code, grouped, solid⟩
  rcases second with ⟨others, more, together⟩
  exact ⟨shapes ++ others, code.append more, grouped.append together, by simp [solid]⟩

theorem IsCode.empty (code : IsCode place front) : IsCode place ([] :: front) := by
  rcases code with ⟨shapes, code, grouped⟩
  exact ⟨shapes, .empty code, grouped⟩

end Bodies

theorem isBody_of_row {place : Nat → Text → Text} {first : Text} {more : List Text}
    (row : IsRow place first more fun tokens => ∃ form, IsItem form tokens) :
    IsBody place (first :: more) := by
  have alone := CodeLines.item row .none
  rw [List.append_nil] at alone
  exact ⟨_, alone, .statement .none, by simp⟩

theorem isRow_line (place : Nat → Text → Text) {line : Text} {follows : Char → Prop}
    {known : List Token → Prop} (scans : ScansAs [] [] follows line known) (ends : follows '\n') :
    IsRow place line [] known where
  starts := scans.starts
  scans depth := by
    rw [List.map_nil, joined, List.flatMap_nil, List.append_nil]
    exact scans.narrow fun c same => same ▸ ends

/-- A statement on one line. -/
theorem isBody_of_scans (place : Nat → Text → Text) {line : Text} {follows : Char → Prop}
    {known : List Token → Prop} (scans : ScansAs [] [] follows line known) (ends : follows '\n')
    (reads : ∀ tokens, known tokens → ∃ form, IsItem form tokens) : IsBody place [line] :=
  isBody_of_row (isRow_line place (scans.mono reads) ends)

/-! ## Commands -/

mutual

def Command.Readable : Command → Prop
  | .assign target value => target.Dotted ∧ value.Built
  | .evaluate value => value.Readable ∧ value.leading ≠ "match"
  | .return value => value.Built
  | .whenAbsent value body => value.Readable ∧ CommandsReadable body ∧ body ≠ []
  | .raise value => value.Readable
  | .finally body cleanup =>
    (CommandsReadable body ∧ body ≠ []) ∧ CommandsReadable cleanup ∧ cleanup ≠ []

def CommandsReadable : List Command → Prop
  | [] => True
  | first :: later => first.Readable ∧ CommandsReadable later

end

theorem commandsReadable_iff {commands : List Command} :
    CommandsReadable commands ↔ ∀ command ∈ commands, command.Readable := by
  induction commands with
  | nil => simp [CommandsReadable]
  | cons first later ih => rw [CommandsReadable, ih, List.forall_mem_cons]

theorem Term.Readable.lines_eq {term : Term} (readable : term.Readable) : term.lines = [term.line] := by
  cases term <;> first | rfl | cases readable

section Placed

variable {level : Nat → Text} {place : Nat → Text → Text} (placing : Placing level place)

include placing

/-- A value behind a word. -/
theorem isBody_leadWith {term : Term} (built : term.Built) (word : Text) (keyword : Keyword)
    (spelled : (word, keyword) ∈ Keyword.spellings)
    (reads : ∀ gap value tokens, IsPrimary value tokens →
      ∃ form, IsItem form (⟨gap, .keyword keyword, word⟩ :: tokens)) :
    IsBody place (leadWith (word ++ [' ']) term.lines) := by
  rcases built.exists_lines placing with ⟨first, more, split, -, scans⟩
  have opening := scansAs_keyword word keyword spelled []
  rw [split]
  refine isBody_of_row ⟨?_, fun depth => ?_⟩
  · exact (opening.starts.append _).append _
  · have whole := opening.append (scans depth) (separates_space .outside)
      (begins_cons (by decide) _)
    rw [joined_append, List.append_assoc]
    refine (whole.mono ?_).narrow fun c same => by subst same; decide
    rintro _ ⟨_, tokens, rfl, front, value, primary⟩
    rcases Shows.exists_singleton front with ⟨gap, rfl⟩
    exact reads gap value tokens primary

theorem isBody_assign {target value : Term} (dotted : target.Dotted) (built : value.Built) :
    IsBody place (Command.assign target value).lines := by
  rcases built.exists_lines placing with ⟨first, more, split, -, scans⟩
  have written := dotted.scansAs .outside
  have equal := scansAs_equal .outside
  rw [Command.lines, split]
  refine isBody_of_row ⟨(written.starts.append _).append _, fun depth => ?_⟩
  have space := separates_space .outside
  have behind := equal.append (scans depth) space (begins_cons (by decide) _)
  have whole := written.append behind space (begins_cons (by decide) _)
  rw [joined_append, List.append_assoc]
  refine (whole.mono ?_).narrow fun c same => by subst same; decide
  rintro _ ⟨_, _, rfl, front, _, tokens, rfl, sign, found, primary⟩
  rcases Shows.exists_singleton sign with ⟨gap, rfl⟩
  rcases front.leads with ⟨nameGap, later, rfl, second⟩
  exact ⟨_, isItem_assignment front.primary dotted.isTarget rfl primary fun _ _ _ _ next among => by
    simp [StartsNothing, second next among]⟩

omit placing in
theorem isBody_evaluate {value : Term} (readable : value.Readable)
    (other : value.leading ≠ "match".toList) : IsBody place value.lines := by
  rw [readable.lines_eq]
  refine isBody_of_scans place (readable.scansAs .outside) (by decide) fun tokens reads => ?_
  rcases reads.primary with ⟨found, primary⟩
  exact ⟨_, primary.isItem fun first among called same =>
    absurd ((reads.leads first among called).symm.trans same) other⟩

omit placing in
/-- A header with nothing behind its colon. -/
theorem isRow_header (place : Nat → Text → Text) (shape : PartShape) {line : Text}
    {known : List Token → Prop}
    (scans : ScansAs [] [] EndsSymbol line known)
    (reads : ∀ tokens, known tokens → ∃ head, Heads head shape ∧ IsHeader head tokens) :
    IsRow place line [] fun tokens => ∃ head, Heads head shape ∧ IsHeader head tokens :=
  isRow_line place (scans.mono reads) (by decide)

omit placing in
theorem scansAs_colon : ScansAs [] [] EndsSymbol [':'] (Shows [(.symbol .colon, [':'])]) :=
  scansAs_symbol .outside (by decide) rfl

omit placing in
theorem isRow_clause (kind : ClauseKind) (word : Text) (keyword : Keyword)
    (spelled : (word, keyword) ∈ Keyword.spellings) (other : kind ≠ .matchClause)
    (known : (kind, keyword) ∈
      [(ClauseKind.tryClause, Keyword.tryWord), (.finallyClause, .finallyWord)]) :
    IsRow place (word ++ [':']) [] fun tokens =>
      ∃ head, Heads head (.clause kind) ∧ IsHeader head tokens := by
  refine isRow_header place (.clause kind) ((scansAs_keyword word keyword spelled []).append scansAs_colon
    (separates_nothing .outside) (begins_cons (by decide) _)) ?_
  rintro _ ⟨_, _, rfl, first, second⟩
  rcases Shows.exists_singleton first with ⟨gap, rfl⟩
  rcases Shows.exists_singleton second with ⟨colonGap, rfl⟩
  exact ⟨_, .clause other, isHeader_clause known⟩

omit placing in
theorem isRow_ifAbsent {value : Term} (readable : value.Readable) :
    IsRow place ("if " ++ value.line ++ " is None:") [] fun tokens =>
      ∃ head, Heads head (.clause .ifClause) ∧ IsHeader head tokens := by
  have space := separates_space .outside
  have joint := separates_nothing .outside
  have absent := scansAs_keyword "None" .noneWord (by decide) []
  have is := scansAs_keyword "is" .isWord (by decide) []
  have opening := scansAs_keyword "if" .ifWord (by decide) []
  have last := absent.append scansAs_colon joint (begins_cons (by decide) _)
  have test := is.append last space (begins_cons (by decide) _)
  have valued := (readable.scansAs .outside).append test space (begins_cons (by decide) _)
  have whole := opening.append valued space (begins_cons (by decide) _)
  have row := isRow_header place (.clause .ifClause) whole ?_
  · simpa using row
  · rintro _ ⟨_, _, rfl, first, tokens, _, rfl, reads, _, _, rfl, second, _, _, rfl, third, fourth⟩
    rcases Shows.exists_singleton first with ⟨gap, rfl⟩
    rcases Shows.exists_singleton second with ⟨isGap, rfl⟩
    rcases Shows.exists_singleton third with ⟨noneGap, rfl⟩
    rcases Shows.exists_singleton fourth with ⟨colonGap, rfl⟩
    rcases reads.primary with ⟨found, primary⟩
    exact ⟨_, .clause (by decide), isHeader_ifAbsent primary gap isGap noneGap colonGap _ _ _ _⟩

omit placing in
theorem codeLines_block {first : Text} {inner later : List Text} {shape : PartShape} {shapes : List PartShape}
    (row : IsRow place first [] fun tokens => ∃ head, Heads head shape ∧ IsHeader head tokens)
    (body : IsBody place inner) (others : CodeLines place later shapes) :
    CodeLines place (first :: (indent inner 1 ++ later)) (shape :: shapes) := by
  rcases body with ⟨shapes, code, grouped, solid⟩
  exact .block row code grouped solid others

omit placing in
theorem Term.Readable.built {term : Term} (readable : term.Readable) : term.Built := by
  cases term <;> first | exact readable | cases readable

end Placed

mutual

/-- Commands are read from their lines. -/
theorem Command.Readable.isBody {level : Nat → Text} {place : Nat → Text → Text}
    (placing : Placing level place) :
    ∀ {command : Command}, command.Readable → IsBody place command.lines
  | .assign _ _, ⟨dotted, built⟩ => isBody_assign placing dotted built
  | .evaluate _, ⟨readable, other⟩ => isBody_evaluate readable other
  | .return _, built =>
    isBody_leadWith placing built "return" .returnWord (by decide)
      fun _ _ _ primary => ⟨_, isItem_return rfl primary⟩
  | .raise _, readable =>
    isBody_leadWith placing (Term.Readable.built readable) "raise" .raiseWord (by decide)
      fun _ _ _ primary => ⟨_, isItem_raise rfl primary⟩
  | .whenAbsent _ _, ⟨readable, inner, solid⟩ => by
    have code := codeLines_block (isRow_ifAbsent readable)
      (isBody_commandLines placing inner solid) .none
    rw [List.append_nil] at code
    exact ⟨_, code, .test .none, by simp⟩
  | .finally _ _, ⟨⟨inner, solid⟩, last, filled⟩ => by
    have final := codeLines_block (isRow_clause .finallyClause "finally" .finallyWord
      (by decide) (by decide) (by decide))
      (isBody_commandLines placing last filled) .none
    have code := codeLines_block (isRow_clause .tryClause "try" .tryWord
      (by decide) (by decide) (by decide))
      (isBody_commandLines placing inner solid) final
    rw [List.append_nil] at code
    exact ⟨_, code, .cleanup .none, by simp⟩

theorem isBody_commandLines {level : Nat → Text} {place : Nat → Text → Text}
    (placing : Placing level place) : ∀ {commands : List Command}, CommandsReadable commands →
    commands ≠ [] → IsBody place (commandLines commands)
  | [], _, solid => absurd rfl solid
  | [_], ⟨readable, _⟩, _ => by
    rw [commandLines, commandLines, List.append_nil]
    exact readable.isBody placing
  | _ :: second :: later, ⟨readable, others⟩, _ => by
    rw [commandLines]
    have rest := isBody_commandLines placing others (List.cons_ne_nil second later)
    exact (readable.isBody placing).append rest.isCode

end

/-! ## Documentation -/

theorem indent_zero (lines : List Text) : indent lines 0 = lines := by
  refine (List.map_congr_left fun line _ => ?_).trans (List.map_id lines)
  split
  case isTrue empty => exact empty.symm
  case isFalse => rfl

theorem docstring_eq_indent (text : Text) (depth : Nat) :
    docstring text depth = indent (docstring text 0) depth := by
  unfold docstring
  split <;> rw [indent_zero]

theorem isItem_literal (gap : List Piece) (text : Text) :
    IsItem (.value .literal) [⟨gap, .literal, text⟩] :=
  (IsPrimary.literal gap text).isItem (by rintro _ ⟨⟩ ⟨⟩)

/-- A text without double marks and backslashes. -/
def Unmarked (text : Text) : Prop :=
  ∀ c ∈ text, c ≠ Text.doubleMark ∧ c ≠ '\x5c'

instance (text : Text) : Decidable (Unmarked text) :=
  List.decidableBAll (fun c => c ≠ Text.doubleMark ∧ c ≠ '\x5c') text

theorem unmarked_append_iff {front back : Text} :
    Unmarked (front ++ back) ↔ Unmarked front ∧ Unmarked back :=
  List.forall_mem_append

section Documentation

variable {level : Nat → Text} {place : Nat → Text → Text} (placing : Placing level place)

include placing

/-- Lines without marks have none where they are placed, up to the level of a line below them. -/
theorem unmarked_placed {lines : List Text} (each : ∀ line ∈ lines, Unmarked line) (depth : Nat) :
    Unmarked ((lines.map (place depth)).flatMap ('\n' :: ·) ++ '\n' :: level depth) := by
  have blank : ∀ c, Text.isIndent c = true → c ≠ Text.doubleMark ∧ c ≠ '\x5c' := by
    rintro c isBlank
    constructor <;> rintro rfl <;> cases isBlank
  intro c member
  rcases List.mem_append.1 member with inside | outside
  · rcases List.mem_flatMap.1 inside with ⟨line, among, within⟩
    rcases List.mem_map.1 among with ⟨own, listed, rfl⟩
    rcases List.mem_cons.1 within with rfl | here
    · decide
    · exact (placing.chars depth own c here).elim (blank c) (each own listed c)
  · rcases List.mem_cons.1 outside with rfl | indented
    · decide
    · exact blank c (placing.levels.blank depth c indented)

/-- A documentation literal without marks and backslashes in it is read as it was emitted. -/
theorem isBody_docstring {text : Text} (plain : Unmarked text) :
    IsBody place (docstring text 0) := by
  have each : ∀ line ∈ Text.lines text.trim, Unmarked line :=
    fun line member c inside => plain c (Text.mem_of_mem_trim (Text.mem_of_mem_lines member c inside).1)
  have known : ∀ {kinds : Text} {tokens : List Token}, Shows [(.literal, kinds)] tokens →
      ∃ form, IsItem form tokens := by
    intro kinds tokens shows
    rcases Shows.exists_singleton shows with ⟨gap, rfl⟩
    exact ⟨_, isItem_literal gap kinds⟩
  have marks : isMark Text.doubleMark = true := rfl
  unfold docstring
  split
  case h_1 only same =>
    rw [same, List.forall_mem_singleton] at each
    have scans := (scansAs_documentation marks each []).mono
      fun tokens shows => known shows
    rw [indent_zero]
    exact isBody_of_row (isRow_line place (by simpa [docMarks] using scans) trivial)
  case h_2 =>
    rw [indent_zero, List.cons_append]
    refine isBody_of_row ⟨begins_cons (solid_of_isMark (by decide)).2 _, fun depth => ?_⟩
    have last : place depth docMarks = level depth ++ docMarks :=
      placing.solid depth (by decide) (by decide)
    have scans := (scansAs_documentation marks (unmarked_placed placing each depth) []).mono
      fun tokens shows => known shows
    have shape : joined docMarks ((Text.lines text.trim ++ [docMarks]).map (place depth)) =
        Text.doubleMark :: Text.doubleMark :: Text.doubleMark ::
          (((Text.lines text.trim).map (place depth)).flatMap ('\n' :: ·) ++ '\n' :: level depth) ++
            [Text.doubleMark, Text.doubleMark, Text.doubleMark] := by
      rw [joined, List.map_append, List.map_singleton, last, List.flatMap_append]
      simp [docMarks]
    rw [shape]
    exact scans.narrow fun c _ => trivial

end Documentation

end Code
end OpenRecord
