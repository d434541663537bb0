import Mathlib.Data.List.TakeWhile
import OpenRecord.Source.Lexer

namespace OpenRecord
namespace Source

/-!
# What the lexer takes and what it leaves

What the lexer takes off the front of a text and what it leaves are the text again.  This is shown of
gaps, numbers, quoted literals, templates and symbols, and so of every token.  No token that stands
outside of brackets ends with a line break.  For this to be so no part of a literal may wait for one.
-/

/-! ## Line breaks -/

/-- A text ends with a character of a line break. -/
def EndsBroken (text : Text) : Prop :=
  text.getLast?.any Text.isBreak = true

theorem endsBroken_append {text : Text} (front : Text) (solid : text ≠ []) :
    EndsBroken (front ++ text) ↔ EndsBroken text := by
  unfold EndsBroken
  rw [List.getLast?_append, List.getLast?_eq_some_getLast solid]
  rfl

theorem not_endsBroken {text : Text} (unbroken : ∀ c ∈ text, Text.isBreak c = false) :
    ¬ EndsBroken text := by
  unfold EndsBroken
  cases last : text.getLast? with
  | none => nofun
  | some c => simp [unbroken c (List.mem_of_getLast? last)]

theorem not_endsBroken_concat {c : Char} (front : Text) (solid : Text.isBreak c = false) :
    ¬ EndsBroken (front ++ [c]) := by
  rw [endsBroken_append front (List.cons_ne_nil c [])]
  exact not_endsBroken (List.forall_mem_singleton.2 solid)

theorem splitBreak_spells {text found rest : Text}
    (cut : Text.splitBreak text = some (found, rest)) : found ++ rest = text := by
  unfold Text.splitBreak at cut
  split at cut <;> cases cut <;> rfl

/-- A text that starts with a character of a line break starts with a line break. -/
theorem splitBreak_ne_none {c : Char} (broken : Text.isBreak c = true) (rest : Text) :
    Text.splitBreak (c :: rest) ≠ none := by
  unfold Text.isBreak at broken
  rw [Bool.or_eq_true, beq_iff_eq, beq_iff_eq] at broken
  rcases broken with rfl | rfl
  · nofun
  · unfold Text.splitBreak
    split <;> simp_all

/-! ## Gaps -/

theorem blankRun_spells (text : Text) : (blankRun text).1 ++ (blankRun text).2 = text := by
  have push : ∀ front pair, (blankRun.push front pair).1 ++ (blankRun.push front pair).2 =
      front ++ (pair.1 ++ pair.2) := fun _ _ => List.append_assoc ..
  fun_induction blankRun text with
  | case1 rest ih => rw [push, ih]; rfl
  | case2 rest ih => rw [push, ih]; rfl
  | case3 rest _ ih => rw [push, ih]; rfl
  | case4 c rest _ _ _ _ ih => rw [push, ih]; rfl
  | case5 => rfl
  | case6 => rfl

theorem blankRun_suffix (text : Text) : (blankRun text).2 <:+ text :=
  ⟨_, blankRun_spells text⟩

theorem comment_spells (text : Text) : (comment text).1 ++ (comment text).2 = text := by
  unfold comment
  split
  · exact List.takeWhile_append_dropWhile
  · rfl

theorem comment_suffix (text : Text) : (comment text).2 <:+ text :=
  ⟨_, comment_spells text⟩

theorem unbroken_comment (text : Text) : ∀ c ∈ (comment text).1, Text.isBreak c = false := by
  unfold comment
  split
  · intro c member
    simpa using List.mem_takeWhile_imp member
  · nofun

theorem comment_eq_nil {text : Text} (solid : (comment text).2 ≠ [])
    (whole : Text.splitBreak (comment text).2 = none) : (comment text).1 = [] := by
  unfold comment at *
  split at *
  case h_1 later =>
    exfalso
    cases rest : List.dropWhile (!Text.isBreak ·) ('#' :: later) with
    | nil => exact solid rest
    | cons c rest =>
      rw [rest] at whole
      have stops := List.head?_dropWhile_not (!Text.isBreak ·) ('#' :: later)
      rw [rest] at stops
      exact splitBreak_ne_none (by simpa using stops) _ whole
  case h_2 => rfl

/-- What a file takes from its blocks and its beginning is also what its pieces are printed with. -/
def LineContext.layout (context : LineContext) : Layout :=
  ⟨context.indent, context.usual⟩

def printGap (layout : Layout) (gap : List Piece) : Text :=
  gap.flatMap (·.print layout)

theorem printGap_append (layout : Layout) (front back : List Piece) :
    printGap layout (front ++ back) = printGap layout front ++ printGap layout back :=
  List.flatMap_append

theorem printGap_cons (layout : Layout) (first : Piece) (later : List Piece) :
    printGap layout (first :: later) = first.print layout ++ printGap layout later :=
  List.flatMap_cons

theorem printGap_run (layout : Layout) (text : Text) : printGap layout (Piece.run text) = text := by
  unfold Piece.run
  split
  case isTrue empty => exact empty.symm
  case isFalse => exact List.append_nil text

theorem bracketGap_spells (context : LineContext) (fuel : Nat) (text : Text) :
    printGap context.layout (bracketGap context fuel text).1 ++ (bracketGap context fuel text).2 =
      text := by
  induction fuel generalizing text with
  | zero => rfl
  | succ fuel ih =>
    have front : (blankRun text).1 ++ (comment (blankRun text).2).1 ++
        (comment (blankRun text).2).2 = text := by
      rw [List.append_assoc, comment_spells, blankRun_spells]
    simp only [bracketGap]
    split
    case h_1 =>
      rw [printGap_run]
      exact front
    case h_2 found next cut =>
      have ending : printGap context.layout (Piece.run ((blankRun text).1 ++
          (comment (blankRun text).2).1) ++ [.lineBreak (.read context.usual found)]) ++ next =
          text := by
        have broken : (LineBreak.read context.usual found).print context.layout = found :=
          LineBreak.print_read context.layout found
        rw [printGap_append, printGap_run, printGap_cons, Piece.print, broken]
        change _ ++ (found ++ []) ++ next = text
        rw [List.append_nil, List.append_assoc, splitBreak_spells cut, front]
      split
      case isTrue margin =>
        have indented : context.indent ++ next.drop context.indent.length = next :=
          List.prefix_iff_eq_append.1 (List.isPrefixOf_iff_prefix.1 margin)
        rw [printGap_append, printGap_cons, List.append_assoc, List.append_assoc, ih]
        change _ ++ (context.indent ++ _) = text
        rw [indented, ending]
      case isFalse =>
        rw [printGap_append, List.append_assoc, ih, ending]

/-! ## Numbers and quoted literals -/

/-- A scanned run is the front of a text and has no other characters than are allowed. -/
def Scan.Spells (allowed : Char → Prop) (scan : Scan) (text : Text) : Prop :=
  ∀ run rest, scan = some (run, rest) → run ++ rest = text ∧ ∀ c ∈ run, allowed c

namespace Scan

variable {allowed : Char → Prop} {scan : Scan} {text : Text}

theorem spells_none : Scan.Spells allowed none text :=
  nofun

/-- An empty run was scanned. -/
theorem spells_nil : Scan.Spells allowed (some ([], text)) text := by
  rintro _ _ same
  cases same
  exact ⟨rfl, nofun⟩

theorem Spells.push {front : Text} (spells : scan.Spells allowed text)
    (fits : ∀ c ∈ front, allowed c) : (scan.push front).Spells allowed (front ++ text) := by
  intro run rest same
  cases scan with
  | none => cases same
  | some found =>
    rcases spells _ _ rfl with ⟨whole, chars⟩
    cases same
    rw [List.append_assoc, whole]
    exact ⟨rfl, List.forall_mem_append.2 ⟨fits, chars⟩⟩

/-- A run is followed by another one. -/
theorem Spells.bind_push {next : Text → Scan} (spells : scan.Spells allowed text)
    (others : ∀ rest, (next rest).Spells allowed rest) :
    Scan.Spells allowed (scan.bind fun found => (next found.2).push found.1) text := by
  cases scan with
  | none => exact spells_none
  | some found =>
    rcases spells _ _ rfl with ⟨whole, chars⟩
    rw [← whole]
    exact (others found.2).push chars

end Scan

/-- A character of no line break. -/
def IsUnbroken (c : Char) : Prop :=
  Text.isBreak c = false

instance (c : Char) : Decidable (IsUnbroken c) :=
  inferInstanceAs (Decidable (_ = _))

/-- Characters of a kind that has none of those of line breaks. -/
theorem isUnbroken_of (kind : Char → Bool) (excludes : kind '\n' = false ∧ kind '\r' = false)
    (c : Char) (holds : kind c = true) : IsUnbroken c := by
  unfold IsUnbroken Text.isBreak
  rw [Bool.or_eq_false_iff, beq_eq_false_iff_ne, beq_eq_false_iff_ne]
  constructor
  · rintro rfl
    rw [excludes.1] at holds
    cases holds
  · rintro rfl
    rw [excludes.2] at holds
    cases holds

theorem digitRun_spells {isDigit : Char → Bool}
    (excludes : isDigit '\n' = false ∧ isDigit '\r' = false)
    (afterDigit : Bool) (text : Text) :
    (digitRun isDigit afterDigit text).Spells IsUnbroken text := by
  fun_induction digitRun isDigit afterDigit text with
  | case1 => exact Scan.spells_nil
  | case2 => exact Scan.spells_none
  | case3 afterDigit c rest digit ih =>
    exact ih.push (List.forall_mem_singleton.2 (isUnbroken_of _ excludes c digit))
  | case4 c rest digit joins ih =>
    rw [beq_iff_eq.1 joins]
    exact ih.push (List.forall_mem_singleton.2 (by decide))
  | case5 => exact Scan.spells_none
  | case6 => exact Scan.spells_nil
  | case7 => exact Scan.spells_none

/-- A mark of an imaginary number may go on with a run. -/
theorem marked_spells (text : Text) : ∀ scan : Scan, scan.Spells IsUnbroken text →
    Scan.Spells IsUnbroken (match scan with
      | some (run, mark :: rest) =>
        if mark == 'j' || mark == 'J' then some (run ++ [mark], rest) else some (run, mark :: rest)
      | other => other) text := by
  intro scan spells
  split
  case h_1 run mark rest =>
    rcases spells run (mark :: rest) rfl with ⟨whole, chars⟩
    split
    case isTrue known =>
      have solid := isUnbroken_of (fun c => c == 'j' || c == 'J') (by decide) mark known
      rintro _ _ same
      cases same
      exact ⟨(List.append_assoc run [mark] rest).trans whole,
        List.forall_mem_append.2 ⟨chars, List.forall_mem_singleton.2 solid⟩⟩
    case isFalse => exact spells
  case h_2 => exact spells

theorem exponentAndMark_spells (text : Text) :
    (exponentAndMark text).Spells IsUnbroken text := by
  have power : ∀ e : Char, (e == 'e' || e == 'E') = true → IsUnbroken e :=
    isUnbroken_of _ (by decide)
  have signed : ∀ e : Char, (e == '+' || e == '-') = true → IsUnbroken e :=
    isUnbroken_of _ (by decide)
  have digit : ∀ c : Char, Text.isAsciiDigit c = true → IsUnbroken c := isUnbroken_of _ (by decide)
  have digits : ∀ text, (digitRun Text.isAsciiDigit false text).Spells IsUnbroken text :=
    digitRun_spells (by decide) false
  unfold exponentAndMark
  refine marked_spells _ _ ?_
  split
  case h_1 e sign d rest =>
    split
    case isTrue known =>
      split
      case isTrue follows =>
        rw [Bool.and_eq_true] at follows
        exact (digits (d :: rest)).push (List.forall_mem_cons.2
          ⟨power e known, List.forall_mem_singleton.2 (signed sign follows.1)⟩)
      case isFalse =>
        split
        · exact (digits (sign :: d :: rest)).push (List.forall_mem_singleton.2 (power e known))
        · exact Scan.spells_nil
    case isFalse => exact Scan.spells_nil
  case h_2 e d =>
    split
    case isTrue known =>
      rw [Bool.and_eq_true] at known
      rintro _ _ same
      cases same
      exact ⟨rfl, List.forall_mem_cons.2
        ⟨power e known.1, List.forall_mem_singleton.2 (digit d known.2)⟩⟩
    case isFalse => exact Scan.spells_nil
  case h_3 => exact Scan.spells_nil

theorem fraction_spells (text : Text) : (fraction text).Spells IsUnbroken text := by
  unfold fraction
  split
  case h_1 d rest =>
    split
    · exact (digitRun_spells (by decide) _ _).bind_push exponentAndMark_spells
    · exact exponentAndMark_spells _
  case h_2 => exact Scan.spells_nil

theorem afterWhole_spells (text : Text) : (afterWhole text).Spells IsUnbroken text := by
  unfold afterWhole
  split
  case h_1 rest => exact (fraction_spells rest).push (List.forall_mem_singleton.2 (by decide))
  case h_2 => exact exponentAndMark_spells _

theorem number_spells (text : Text) : (number text).Spells IsUnbroken text := by
  have closed : ∀ scan : Scan, scan.Spells IsUnbroken text →
      (closeNumber scan).Spells IsUnbroken text := by
    intro scan spells run rest same
    exact spells run rest (Option.filter_eq_some_iff.1 same).1
  have based : ∀ isDigit x rest, (isDigit '\n' = false ∧ isDigit '\r' = false) → IsUnbroken x →
      (number.based isDigit x rest).Spells IsUnbroken ('0' :: x :: rest) := by
    intro isDigit x rest excludes solid
    have opening : ∀ c ∈ ['0', x], IsUnbroken c :=
      List.forall_mem_cons.2 ⟨by decide, List.forall_mem_singleton.2 solid⟩
    have joined : ∀ c ∈ ['0', x] ++ ['_'], IsUnbroken c :=
      List.forall_mem_append.2 ⟨opening, List.forall_mem_singleton.2 (by decide)⟩
    unfold number.based
    split
    case h_1 digits => exact (digitRun_spells excludes _ _).push joined
    case h_2 => exact (digitRun_spells excludes _ _).push opening
  have decimal : (number.decimalNumber text).Spells IsUnbroken text := by
    intro run rest same
    rcases Option.bind_eq_some_iff.1 same with ⟨⟨digits, behind⟩, first, same⟩
    rcases Option.bind_eq_some_iff.1 same with ⟨⟨tail, after⟩, second, same⟩
    rcases digitRun_spells (by decide) _ _ _ _ first with ⟨whole, chars⟩
    rcases afterWhole_spells _ _ _ second with ⟨wholeTail, charsTail⟩
    dsimp only at same wholeTail
    split at same
    · cases same
    · cases same
      rw [List.append_assoc, wholeTail, whole]
      exact ⟨rfl, List.forall_mem_append.2 ⟨chars, charsTail⟩⟩
  unfold number
  refine closed _ ?_
  split
  case h_1 rest => exact (fraction_spells rest).push (List.forall_mem_singleton.2 (by decide))
  case h_2 x rest =>
    split
    case isTrue known =>
      exact based _ _ _ (by decide)
        (isUnbroken_of (fun x => x == 'x' || x == 'X') (by decide) x known)
    case isFalse =>
      split
      case isTrue known =>
        exact based _ _ _ (by decide)
          (isUnbroken_of (fun x => x == 'o' || x == 'O') (by decide) x known)
      case isFalse =>
        split
        case isTrue known =>
          exact based _ _ _ (by decide)
            (isUnbroken_of (fun x => x == 'b' || x == 'B') (by decide) x known)
        case isFalse => exact decimal
  case h_3 => exact decimal

/-- A scanned run is the front of a text and ends with a mark. -/
def Scan.Closes (mark : Char) (scan : Scan) (text : Text) : Prop :=
  ∀ run rest, scan = some (run, rest) → run ++ rest = text ∧ ∃ front, run = front ++ [mark]

namespace Scan.Closes

variable {mark : Char} {scan : Scan} {text : Text}

theorem none : Scan.Closes mark none text :=
  nofun

theorem push (closes : scan.Closes mark text) (front : Text) :
    (scan.push front).Closes mark (front ++ text) := by
  intro run rest same
  cases scan with
  | none => cases same
  | some found =>
    rcases closes _ _ rfl with ⟨whole, inner, ends⟩
    cases same
    rw [List.append_assoc, whole, ends]
    exact ⟨rfl, front ++ inner, (List.append_assoc ..).symm⟩

end Scan.Closes

theorem singleQuoted_closes (mark : Char) (text : Text) :
    (singleQuoted mark text).Closes mark text := by
  fun_induction singleQuoted mark text with
  | case1 => exact .none
  | case2 rest ih => exact ih.push ['\x5c', '\r', '\n']
  | case3 c rest _ ih => exact ih.push ['\x5c', c]
  | case4 rest _ _ =>
    rintro _ _ same
    cases same
    exact ⟨rfl, [], rfl⟩
  | case5 => exact .none
  | case6 c rest _ _ _ _ ih => exact ih.push [c]

theorem tripleQuoted_closes (mark : Char) (text : Text) :
    (tripleQuoted mark text).Closes mark text := by
  fun_induction tripleQuoted mark text with
  | case1 => exact .none
  | case2 c rest ih => exact ih.push ['\x5c', c]
  | case3 c rest _ closing =>
    rw [Bool.and_eq_true, decide_eq_true_eq, List.isPrefixOf_iff_prefix] at closing
    rcases closing with ⟨rfl, behind, rfl⟩
    rintro _ _ same
    cases same
    exact ⟨rfl, [c, c], rfl⟩
  | case4 c rest _ _ ih => exact ih.push [c]

theorem templateText_spells (quotation : Quotation) (inSpecification : Bool) (mode : TemplateMode)
    (text : Text) :
    (templateText quotation inSpecification mode text).1 ++
      (templateText quotation inSpecification mode text).2 = text := by
  have keep : ∀ c pair, (templateText.keep c pair).1 ++ (templateText.keep c pair).2 =
      c :: (pair.1 ++ pair.2) := fun _ _ => rfl
  fun_induction templateText quotation inSpecification mode text
  all_goals first
    | rfl
    | (rename_i ih; simp only [keep, ih])

/-! ## Tokens -/

theorem symbol_spells {text chars rest : Text} {which : Symbol}
    (scanned : symbol text = some (which, chars, rest)) :
    chars ++ rest = text ∧ (which, chars) ∈ symbols := by
  unfold symbol at scanned
  split at scanned
  case h_1 which chars first =>
    cases scanned
    have front := List.find?_some first
    exact ⟨(List.prefix_iff_eq_append.1 (List.isPrefixOf_iff_prefix.1 front)),
      List.mem_of_find?_eq_some first⟩
  case h_2 => cases scanned

/-- No symbol has a character of a line break. -/
theorem unbroken_symbols : ∀ entry ∈ symbols, ∀ c ∈ entry.2, IsUnbroken c := by
  have all : symbols.all (fun entry => entry.2.all fun c => !Text.isBreak c) = true := by decide
  intro entry member c inside
  have solid := List.all_eq_true.1 (List.all_eq_true.1 all entry member) c inside
  rwa [Bool.not_eq_true'] at solid

/-- An open part of a literal waits for no line break. -/
def Nest.IsUnbroken : Nest → Prop
  | .bracket _ => True
  | .template quotation _ => Source.IsUnbroken quotation.mark
  | .field quotation => Source.IsUnbroken quotation.mark

/-- No open part of a literal waits for a line break. -/
def NestUnbroken (nest : List Nest) : Prop :=
  ∀ inner ∈ nest, inner.IsUnbroken

/-- What a token takes off a text, with what is open before it: its own characters.  It opens nothing
that waits for a line break, and where nothing is open behind it, it does not end the text with one. -/
structure Lexeme.Spells (found : Lexeme) (nest : List Nest) (gap : List Piece) (text : Text) :
    Prop where
  gap_eq : found.token.gap = gap
  spelled : found.token.text ++ found.rest = text
  opens : NestUnbroken nest → NestUnbroken found.nest
  solid : NestUnbroken nest → found.nest = [] → found.rest = [] → ¬ EndsBroken text

namespace Lexeme.Spells

variable {nest inner : List Nest} {gap : List Piece} {kind : TokenKind} {chars rest text : Text}

/-- A token of characters that are part of no line break. -/
theorem of_unbroken (spelled : chars ++ rest = text) (unbroken : ∀ c ∈ chars, IsUnbroken c)
    (opens : NestUnbroken nest → NestUnbroken inner) :
    Lexeme.Spells ⟨⟨gap, kind, chars⟩, inner, rest⟩ nest gap text where
  gap_eq := rfl
  spelled := spelled
  opens := opens
  solid := by
    rintro - - rfl
    rw [← spelled, List.append_nil]
    exact not_endsBroken unbroken

theorem of_open {innermost : Nest} (spelled : chars ++ rest = text)
    (opens : NestUnbroken nest → NestUnbroken (innermost :: inner)) :
    Lexeme.Spells ⟨⟨gap, kind, chars⟩, innermost :: inner, rest⟩ nest gap text where
  gap_eq := rfl
  spelled := spelled
  opens := opens
  solid _ closed := by cases closed

/-- A token that ends with a character that is part of no line break. -/
theorem of_last {c : Char} (spelled : chars ++ rest = text) (ends : ∃ front, chars = front ++ [c])
    (solid : IsUnbroken c) :
    Lexeme.Spells ⟨⟨gap, kind, chars⟩, nest, rest⟩ nest gap text where
  gap_eq := rfl
  spelled := spelled
  opens := id
  solid := by
    rintro - - rfl
    rcases ends with ⟨front, ends⟩
    rw [← spelled, List.append_nil, ends]
    exact not_endsBroken_concat front solid

end Lexeme.Spells

theorem symbolLexeme_spells {nest : List Nest} {gap : List Piece} {text : Text} {found : Lexeme}
    (scanned : symbolLexeme nest gap text = some found) : found.Spells nest gap text := by
  have close : ∀ {which chars rest}, (∀ c ∈ chars, IsUnbroken c) → chars ++ rest = text →
      symbolLexeme.close nest ⟨gap, which, chars⟩ rest = some found →
      found.Spells nest gap text := by
    intro which chars rest unbroken spelled closed
    unfold symbolLexeme.close at closed
    split at closed
    case h_1 closer outer =>
      split at closed <;> cases closed
      exact .of_unbroken spelled unbroken fun nested => (List.forall_mem_cons.1 nested).2
    case h_2 => cases closed
  unfold symbolLexeme at scanned
  split at scanned
  case h_1 quotation outer rest =>
    cases scanned
    refine .of_open rfl fun nested => List.forall_mem_cons.2 ⟨?_, nested⟩
    exact (List.forall_mem_cons.1 nested).1
  case h_2 quotation outer rest =>
    cases scanned
    exact .of_unbroken rfl (List.forall_mem_singleton.2 (by decide)) fun nested =>
      (List.forall_mem_cons.1 nested).2
  case h_3 quotation outer next rest =>
    split at scanned
    case isTrue same =>
      cases scanned
      rw [beq_iff_eq.1 same]
      exact .of_open rfl id
    case isFalse =>
      cases scanned
      exact .of_open rfl id
  case h_4 =>
    rcases Option.bind_eq_some_iff.1 scanned with ⟨⟨which, chars, rest⟩, front, found⟩
    rcases symbol_spells front with ⟨spelled, listed⟩
    have unbroken := unbroken_symbols _ listed
    have opens : ∀ closer, NestUnbroken nest → NestUnbroken (.bracket closer :: nest) :=
      fun closer nested => List.forall_mem_cons.2 ⟨trivial, nested⟩
    dsimp only at found
    split at found
    case h_1 => cases found; exact .of_open spelled (opens _)
    case h_2 => cases found; exact .of_open spelled (opens _)
    case h_3 => cases found; exact .of_open spelled (opens _)
    case h_4 => exact close unbroken spelled found
    case h_5 => exact close unbroken spelled found
    case h_6 => exact close unbroken spelled found
    case h_7 => cases found; exact .of_unbroken spelled unbroken id

/-- A quotation mark is part of no line break. -/
theorem unbroken_of_isMark {mark : Char} (marks : isMark mark = true) : IsUnbroken mark :=
  isUnbroken_of _ (by decide) mark marks

theorem literalLexeme_spells {nest : List Nest} {gap : List Piece} {letters text : Text}
    {flavour : LiteralFlavour} {found : Lexeme} (marks : text.head?.any isMark = true)
    (scanned : literalLexeme nest gap letters flavour text = some found) :
    found.Spells nest gap (letters ++ text) := by
  unfold literalLexeme at scanned
  split at scanned
  case h_1 => cases scanned
  case h_2 mark rest =>
    have solid : IsUnbroken mark := unbroken_of_isMark marks
    dsimp only at scanned
    -- The opening marks and what stands behind them.
    have parts : ∀ triple, triple = [mark, mark].isPrefixOf rest →
        (if triple then [mark, mark, mark] else [mark]) ++ (if triple then rest.drop 2 else rest) =
          mark :: rest := by
      intro triple decided
      cases triple with
      | false => rfl
      | true =>
        rcases List.isPrefixOf_iff_prefix.1 decided.symm with ⟨behind, rfl⟩
        rfl
    have parts := parts _ rfl
    revert scanned parts
    generalize [mark, mark].isPrefixOf rest = triple
    intro scanned parts
    split at scanned
    case isTrue =>
      cases scanned
      refine .of_open ?_ fun nested => List.forall_mem_cons.2 ⟨solid, nested⟩
      rw [List.append_assoc, parts]
    case isFalse =>
      split at scanned
      case h_1 => cases scanned
      case h_2 run after quoted =>
        cases scanned
        have closes : run ++ after = (if triple then rest.drop 2 else rest) ∧
            ∃ front, run = front ++ [mark] := by
          cases triple with
          | false => exact singleQuoted_closes _ _ _ _ quoted
          | true => exact tripleQuoted_closes _ _ _ _ quoted
        rcases closes with ⟨whole, front, ends⟩
        refine .of_last ?_ ?_ solid
        · rw [List.append_assoc, whole, List.append_assoc, parts]
        · rw [ends, ← List.append_assoc]
          exact ⟨_, rfl⟩

theorem wordLexeme_spells {nest : List Nest} {gap : List Piece} {text : Text} {found : Lexeme}
    (scanned : wordLexeme nest gap text = some found) : found.Spells nest gap text := by
  have parts : text.takeWhile isWordChar ++ text.dropWhile isWordChar = text :=
    List.takeWhile_append_dropWhile
  have unbroken : ∀ c ∈ text.takeWhile isWordChar, IsUnbroken c :=
    fun c member => isUnbroken_of isWordChar (by decide) c (List.mem_takeWhile_imp member)
  unfold wordLexeme at scanned
  dsimp only at scanned
  split at scanned
  case h_1 flavour flavoured =>
    split at flavoured
    case isTrue marks =>
      rw [← parts]
      exact literalLexeme_spells marks scanned
    case isFalse => cases flavoured
  case h_2 =>
    split at scanned
    case h_1 =>
      cases scanned
      exact .of_unbroken parts unbroken id
    case h_2 =>
      split at scanned <;> cases scanned
      exact .of_unbroken parts unbroken id

/-- A token outside of templates. -/
theorem lexeme_spells {nest : List Nest} {gap : List Piece} {text : Text} {found : Lexeme}
    (scanned : lexeme nest gap text = some found) : found.Spells nest gap text := by
  unfold lexeme at scanned
  split at scanned
  case h_1 => cases scanned
  case h_2 c rest =>
    split at scanned
    case isTrue =>
      split at scanned
      case h_1 => cases scanned
      case h_2 digits after counted =>
        cases scanned
        rcases number_spells _ _ _ counted with ⟨spelled, unbroken⟩
        exact .of_unbroken spelled unbroken id
    case isFalse =>
      split at scanned
      case isTrue marks =>
        have headed : (c :: rest).head?.any isMark = true := marks
        exact literalLexeme_spells headed scanned
      case isFalse =>
        split at scanned
        case isTrue => exact wordLexeme_spells scanned
        case isFalse => exact symbolLexeme_spells scanned

theorem templateLexeme_spells {quotation : Quotation} {inSpecification : Bool} {outer : List Nest}
    {text : Text} {found : Lexeme}
    (scanned : templateLexeme quotation inSpecification outer text = some found) :
    found.Spells (.template quotation inSpecification :: outer) [] text := by
  have spelled := templateText_spells quotation inSpecification .plain text
  unfold templateLexeme at scanned
  split at scanned
  case h_1 c run rest kept =>
    cases scanned
    rw [kept] at spelled
    exact .of_open spelled id
  case h_2 rest kept =>
    cases scanned
    rw [kept] at spelled
    refine .of_open spelled fun nested => List.forall_mem_cons.2 ⟨?_, nested⟩
    exact (List.forall_mem_cons.1 nested).1
  case h_3 rest kept =>
    rw [kept] at spelled
    split at scanned <;> cases scanned
    refine .of_unbroken spelled (List.forall_mem_singleton.2 (by decide)) fun nested => ?_
    exact (List.forall_mem_cons.1 (List.forall_mem_cons.1 nested).2).2
  case h_4 rest _ _ kept =>
    rw [kept] at spelled
    split at scanned
    case isTrue closing =>
      cases scanned
      rw [Bool.and_eq_true, List.isPrefixOf_iff_prefix, List.prefix_iff_eq_append] at closing
      have whole : quotation.marks ++ rest.drop quotation.marks.length = text :=
        closing.2.trans spelled
      refine ⟨rfl, whole, fun nested => (List.forall_mem_cons.1 nested).2, ?_⟩
      rintro nested - ended
      have solid : IsUnbroken quotation.mark := (List.forall_mem_cons.1 nested).1
      change rest.drop quotation.marks.length = [] at ended
      rw [← whole, ended, List.append_nil]
      apply not_endsBroken
      intro c member
      unfold Quotation.marks at member
      split at member <;> simp only [List.mem_cons, List.not_mem_nil, or_false, or_self] at member
      all_goals exact member ▸ solid
    case isFalse => cases scanned

end Source
end OpenRecord
