import OpenRecord.Proofs.Source.LineScanning
import OpenRecord.Proofs.Source.TreeLaw

namespace OpenRecord
namespace Source

/-!
# Decorators in a text

A decorator can be read only from a line that starts with an at sign.  If every at sign at the
start of a line of a text, behind blanks, starts a line that is known to hold a decorator of an
allowed kind, then all decorators in the statements that are read from the text are of this kind.

At signs further on in a line are of no concern, and neither are those in comments or literals,
unless they happen to start a line there.  A text with an at sign at the start of a continued line
is not covered: what follows the sign would be an operand, not a decorator.
-/

/-! ## At signs at the start of a line -/

/-- A text that starts with a line that holds an allowed decorator and nothing else. -/
def OpensDecorator (allowed : Expression → Prop) (text : Text) : Prop :=
  ∃ line : DecoratorLine, allowed line.value ∧ ∃ rest, text = line.chars ++ '\n' :: rest

/-- Every at sign that only blanks separate from the start of its line opens an allowed decorator.
`fresh` says that nothing but blanks stands in front of the text on its first line. -/
def DecoratesOnly (allowed : Expression → Prop) : Bool → Text → Prop
  | _, [] => True
  | fresh, c :: rest =>
    if Text.isBreak c then DecoratesOnly allowed true rest
    else if Text.isIndent c then DecoratesOnly allowed fresh rest
    else (fresh = true → c = '@' → OpensDecorator allowed (c :: rest)) ∧
      DecoratesOnly allowed false rest

section Decorates

variable {allowed : Expression → Prop} {fresh : Bool} {text rest : Text}

/-- Something in front of a text takes one sign at most out of consideration. -/
theorem DecoratesOnly.behind (decorates : DecoratesOnly allowed fresh text) :
    DecoratesOnly allowed false text := by
  induction text with
  | nil => trivial
  | cons c rest ih =>
    unfold DecoratesOnly at decorates ⊢
    split
    case isTrue mark => rwa [if_pos mark] at decorates
    case isFalse mark =>
      rw [if_neg mark] at decorates
      split
      case isTrue blank =>
        rw [if_pos blank] at decorates
        exact ih decorates
      case isFalse blank =>
        rw [if_neg blank] at decorates
        exact ⟨nofun, decorates.2⟩

theorem DecoratesOnly.of_suffix (decorates : DecoratesOnly allowed fresh text)
    (suffix : rest <:+ text) : DecoratesOnly allowed false rest := by
  rcases suffix with ⟨front, rfl⟩
  induction front generalizing fresh with
  | nil => exact decorates.behind
  | cons c front ih =>
    rw [List.cons_append, DecoratesOnly] at decorates
    split at decorates
    · exact ih decorates
    · split at decorates
      · exact ih decorates
      · exact ih decorates.2

theorem DecoratesOnly.of_startsLine (decorates : DecoratesOnly allowed fresh text)
    (starts : StartsLine rest text) : DecoratesOnly allowed true rest := by
  rcases starts with ⟨front, c, ends, rfl⟩
  have behind := decorates.of_suffix (List.suffix_append front (c :: rest))
  rwa [DecoratesOnly, if_pos ends] at behind

theorem DecoratesOnly.of_line (decorates : DecoratesOnly allowed fresh text)
    (left : rest = [] ∨ StartsLine rest text) : DecoratesOnly allowed true rest := by
  rcases left with rfl | starts
  · trivial
  · exact decorates.of_startsLine starts

theorem isBreak_of_isIndent {c : Char} (blank : Text.isIndent c = true) :
    Text.isBreak c = false := by
  simp only [Text.isIndent, Bool.or_eq_true, beq_iff_eq] at blank
  rcases blank with (rfl | rfl) | rfl <;> decide

theorem decoratesOnly_blank {c : Char} (blank : Text.isIndent c = true) :
    DecoratesOnly allowed fresh (c :: rest) ↔ DecoratesOnly allowed fresh rest := by
  rw [DecoratesOnly, if_neg (by simp [isBreak_of_isIndent blank]), if_pos blank]

theorem DecoratesOnly.dropWhile (decorates : DecoratesOnly allowed fresh text) :
    DecoratesOnly allowed fresh (text.dropWhile Text.isIndent) := by
  induction text with
  | nil => trivial
  | cons c rest ih =>
    rw [List.dropWhile_cons]
    split
    case isTrue blank => exact ih ((decoratesOnly_blank blank).1 decorates)
    case isFalse => exact decorates

theorem DecoratesOnly.blankRun (decorates : DecoratesOnly allowed true text) :
    DecoratesOnly allowed true (blankRun text).2 := by
  have joined : ∀ {c rest}, Text.isBreak c = true →
      DecoratesOnly allowed true ('\x5c' :: c :: rest) → DecoratesOnly allowed true rest :=
    fun ends whole => whole.of_startsLine ⟨['\x5c'], _, ends, rfl⟩
  fun_induction Source.blankRun text with
  | case1 rest ih => exact ih (decorates.of_startsLine ⟨['\x5c', '\r'], '\n', rfl, rfl⟩)
  | case2 rest ih => exact ih (joined rfl decorates)
  | case3 rest _ ih => exact ih (joined rfl decorates)
  | case4 c rest _ _ _ blank ih => exact ih ((decoratesOnly_blank blank).1 decorates)
  | case5 => exact decorates
  | case6 => trivial

theorem DecoratesOnly.opens (decorates : DecoratesOnly allowed true ('@' :: rest)) :
    OpensDecorator allowed ('@' :: rest) :=
  decorates.1 rfl rfl

/-- A line that, if it starts with an at sign, holds an allowed decorator and nothing else. -/
def DecoratesLine (allowed : Expression → Prop) (line : Text) : Prop :=
  ∀ rest, line.dropWhile Text.isIndent = '@' :: rest →
    ∃ known : DecoratorLine, allowed known.value ∧ known.chars = '@' :: rest

/-- What stands in the middle of a line does not matter. -/
theorem decoratesOnly_append {line : Text} (unbroken : ∀ x ∈ line, Text.isBreak x = false)
    (below : DecoratesOnly allowed true rest) :
    DecoratesOnly allowed false (line ++ '\n' :: rest) := by
  induction line with
  | nil => exact below
  | cons c line ih =>
    rw [List.forall_mem_cons] at unbroken
    rw [List.cons_append, DecoratesOnly, if_neg (by simp [unbroken.1])]
    split
    · exact ih unbroken.2
    · exact ⟨nofun, ih unbroken.2⟩

/-- A text may get a line that starts with no at sign or holds an allowed decorator. -/
theorem DecoratesLine.above {line : Text} (decorates : DecoratesLine allowed line)
    (unbroken : ∀ x ∈ line, Text.isBreak x = false) (below : DecoratesOnly allowed true rest) :
    DecoratesOnly allowed true (line ++ '\n' :: rest) := by
  induction line with
  | nil => exact below
  | cons c line ih =>
    have solid := unbroken c (List.mem_cons_self ..)
    have others : ∀ x ∈ line, Text.isBreak x = false :=
      fun x member => unbroken x (List.mem_cons_of_mem c member)
    unfold DecoratesLine at decorates
    rw [List.dropWhile_cons] at decorates
    rw [List.cons_append, DecoratesOnly, if_neg (by simp [solid])]
    split
    case isTrue blank =>
      rw [if_pos blank] at decorates
      exact ih decorates others
    case isFalse blank =>
      rw [if_neg blank] at decorates
      refine ⟨fun _ sign => ?_, decoratesOnly_append others below⟩
      subst sign
      rcases decorates line rfl with ⟨known, fine, chars⟩
      exact ⟨known, fine, rest, by rw [chars, List.cons_append]⟩

end Decorates

/-! ## The at sign of a line -/

theorem symbol_at {text chars rest : Text} (scanned : symbol text = some (.at, chars, rest)) :
    chars = ['@'] ∧ text = '@' :: rest := by
  have single : ∀ entry ∈ symbols, entry.1 = .at → entry.2 = ['@'] := by decide
  unfold symbol at scanned
  split at scanned
  case h_1 which known found =>
    cases scanned
    have chars := single _ (List.mem_of_find?_eq_some found) rfl
    have front := List.find?_some found
    dsimp only at chars front
    subst chars
    rcases List.isPrefixOf_iff_prefix.1 front with ⟨behind, rfl⟩
    exact ⟨rfl, rfl⟩
  · cases scanned

theorem literalLexeme_ne {nest : List Nest} {gap : List Piece} {letters text : Text}
    {flavour : LiteralFlavour} {found : Lexeme} {which : Symbol}
    (scanned : literalLexeme nest gap letters flavour text = some found) :
    found.token.kind ≠ .symbol which := by
  unfold literalLexeme at scanned
  split at scanned
  · cases scanned
  · dsimp only at scanned
    split at scanned
    · cases scanned
      nofun
    · split at scanned <;> cases scanned
      nofun

theorem wordLexeme_ne {nest : List Nest} {gap : List Piece} {text : Text} {found : Lexeme}
    {which : Symbol} (scanned : wordLexeme nest gap text = some found) :
    found.token.kind ≠ .symbol which := by
  unfold wordLexeme at scanned
  dsimp only at scanned
  split at scanned
  · exact literalLexeme_ne scanned
  · split at scanned
    · cases scanned
      nofun
    · split at scanned <;> cases scanned
      nofun

theorem symbolLexeme_at {gap : List Piece} {text : Text} {found : Lexeme}
    (scanned : symbolLexeme [] gap text = some found) (sign : found.token.kind = .symbol .at) :
    symbol text = some (.at, ['@'], found.rest) := by
  rcases Option.bind_eq_some_iff.1 (show (symbol text).bind _ = some found from scanned) with
    ⟨⟨which, chars, behind⟩, known, wrapped⟩
  dsimp only at wrapped
  split at wrapped <;> cases wrapped <;> cases sign
  rw [known, (symbol_at known).1]

/-- Behind an at sign outside brackets the text is scanned on as it stands, whatever the gap in
front of the sign. -/
theorem lexeme_at {gap : List Piece} {text : Text} {found : Lexeme}
    (scanned : lexeme [] gap text = some found) (sign : found.token.kind = .symbol .at) :
    text = '@' :: found.rest ∧
      ∀ gap', lexeme [] gap' text = some ⟨⟨gap', .symbol .at, ['@']⟩, [], found.rest⟩ := by
  unfold lexeme at scanned
  split at scanned
  · cases scanned
  case h_2 c rest =>
    split at scanned
    · split at scanned <;> cases scanned
      cases sign
    · split at scanned
      · exact absurd sign (literalLexeme_ne scanned)
      · split at scanned
        · exact absurd sign (wordLexeme_ne scanned)
        · have known := symbolLexeme_at scanned sign
          have same := (symbol_at known).2
          refine ⟨same, fun gap' => ?_⟩
          rw [same] at known ⊢
          change (symbol ('@' :: found.rest)).bind _ = _
          rw [known]
          rfl

/-- What stands behind a comment does not start with an at sign. -/
theorem comment_of_at {text rest : Text} (behind : (comment text).2 = '@' :: rest) :
    text = '@' :: rest := by
  unfold comment at behind
  split at behind
  case h_1 remark =>
    have last := List.head?_dropWhile_not (fun c => !Text.isBreak c) ('#' :: remark)
    dsimp only at behind
    rw [behind] at last
    cases last
  case h_2 => exact behind

/-- If the first token of a line is an at sign, the sign stands behind blanks and continued line
ends, and it would be scanned alike without them. -/
theorem lineStep_at {context : LineContext} {text : Text} {found : Lexeme}
    (scanned : lineStep context [] text = some (.go found))
    (sign : found.token.kind = .symbol .at) :
    (blankRun text).2 = '@' :: found.rest ∧ found.nest = [] ∧
      lineStep context [] ('@' :: found.rest) =
        some (.go ⟨⟨[], .symbol .at, ['@']⟩, [], found.rest⟩) := by
  have start : StartsToken '@' := ⟨by decide, by decide, by decide, by decide⟩
  unfold lineStep at scanned
  dsimp only at scanned
  split at scanned
  · cases scanned
  · split at scanned <;> cases scanned
  · rcases Option.map_eq_some_iff.1 scanned with ⟨next, token, same⟩
    cases same
    rcases lexeme_at token sign with ⟨text_eq, again⟩
    have alone : lineStep context [] ([] ++ '@' :: found.rest) = _ :=
      lineStep_append (by simp) start
    rw [text_eq] at again token
    refine ⟨comment_of_at text_eq, ?_, ?_⟩
    · have same := Option.some.inj ((again _).symm.trans token)
      rw [← same]
    · rw [List.nil_append] at alone
      rw [alone, again]
      rfl

theorem DecoratesOnly.exists_decoratorLine {allowed : Expression → Prop} {text : Text}
    (decorates : DecoratesOnly allowed true text) {context : LineContext} {sign : Token}
    {later : List Token} {ending : LineEnd} {after : Text} (isSign : sign.kind = .symbol .at)
    (scanned : logicalLine context (text.length + 1) [] text =
      some (sign :: later, ending, after)) :
    ∃ line : DecoratorLine, allowed line.value ∧
      line.tokens = ⟨[], .symbol .at, ['@']⟩ :: later := by
  unfold logicalLine at scanned
  split at scanned
  · cases scanned
  · cases scanned
  case h_3 token inner rest step =>
    split at scanned
    · cases scanned
    case h_2 others =>
      cases scanned
      rcases lineStep_at step isSign with ⟨behind, outside, alone⟩
      dsimp only at behind outside alone
      subst outside
      have decorates := decorates.blankRun
      have shorter := (blankRun_suffix text).length_le
      rw [behind] at decorates shorter
      rcases decorates.opens with ⟨line, fine, below, written⟩
      refine ⟨line, fine, ?_⟩
      -- the line is scanned with as much fuel as the whole text
      have fits : line.chars.length ≤ text.length := by
        rw [written, List.length_append] at shorter
        omega
      have known := line.scanned context (text.length - line.chars.length) below
      rw [Nat.sub_add_cancel fits, ← written] at known
      unfold logicalLine at known
      rw [alone] at known
      dsimp only at known
      rw [others] at known
      exact (Prod.mk.inj (Option.some.inj known)).1.symm

/-! ## Reading -/

/-- A line with the tokens of a decorator line is read as this decorator, whatever stands in front
of the sign. -/
theorem DecoratorLine.value_of_readLine (line : DecoratorLine) {amongCases : Bool} {sign : Token}
    {later : List Token} {read : ReadLine}
    (tokens : line.tokens = ⟨[], .symbol .at, ['@']⟩ :: later) (isSign : sign.kind = .symbol .at)
    (readable : readLine amongCases (sign :: later) = some read) :
    ∃ front items, read = .header (.decorator line.value) front items := by
  rcases sign with ⟨gap, kind, chars⟩
  cases isSign
  cases amongCases with
  | true => cases readable
  | false =>
    have known := line.readable
    rw [tokens] at known
    change withItems (32 * (later.length + 1 + 1)) _ ((named (32 * (later.length + 1 + 1)) later).bind
      fun found => some (.decorator found.1, found.2)) = _ at known readable
    cases found : named (32 * (later.length + 1 + 1)) later with
    | none =>
      rw [found] at known
      cases known
    | some pair =>
      rw [found] at known readable
      rcases withItems_eq_some known with ⟨front, items, same⟩
      rcases withItems_eq_some readable with ⟨front', items', rfl⟩
      have value := Head.decorator.inj (ReadLine.header.inj same).1
      exact ⟨front', items', by rw [value]⟩

/-- Only decorators are restricted, to those that are allowed. -/
def decoratorLaw (allowed : Expression → Prop) : TreeLaw :=
  ⟨fun _ => True, allowed, fun _ => True⟩

theorem DecoratesOnly.obeys {allowed : Expression → Prop} {text : Text}
    (decorates : DecoratesOnly allowed true text) {context : LineContext} {tokens : List Token}
    {ending : LineEnd} {after : Text}
    (scanned : logicalLine context (text.length + 1) [] text = some (tokens, ending, after))
    {amongCases : Bool} {read : ReadLine} (readable : readLine amongCases tokens = some read) :
    read.Obeys (decoratorLaw allowed) := by
  cases read with
  | items found => trivial
  | header head front found =>
    cases head with
    | clause kind => trivial
    | definition role => exact ⟨trivial, trivial⟩
    | decorator value =>
      cases headsLine_of_readLine readable with
      | decorator split sign =>
        subst split
        rcases decorates.exists_decoratorLine sign scanned with ⟨line, fine, tokens⟩
        rcases line.value_of_readLine tokens sign readable with ⟨front', items', same⟩
        cases same
        exact ⟨fine, trivial⟩

theorem DecoratesOnly.obeys_lines {allowed : Expression → Prop} {text : Text}
    (decorates : DecoratesOnly allowed true text) {usual : Text} {fuel number : Nat}
    {stack : List Indentation} {above : List BlankLine} {lines : List LogicalLine}
    {after : List BlankLine}
    (scanned : logicalLines usual fuel number stack above text = some (lines, after)) :
    ∀ line ∈ lines, line.Obeys (decoratorLaw allowed) := by
  induction fuel generalizing number stack above text lines with
  | zero => cases scanned
  | succ fuel ih =>
    unfold logicalLines at scanned
    split at scanned
    case h_1 blank => exact ih (decorates.of_line (blankLine_startsLine blank)) scanned
    case h_2 =>
      split at scanned
      · cases scanned
        simp
      · dsimp only at scanned
        split at scanned
        · cases scanned
        · cases scanned
        · split at scanned
          · cases scanned
          · cases scanned
          case h_3 tokens ending next some_token read =>
            split at scanned
            · cases scanned
            case h_2 later behind more =>
              cases scanned
              have start := decorates.dropWhile
              rw [List.forall_mem_cons]
              exact ⟨fun amongCases found readable => start.obeys read readable,
                ih (start.of_line (logicalLine_startsLine read)) more⟩

theorem DecoratesOnly.obeys_of_parse? {allowed : Expression → Prop} {text : Text}
    (decorates : DecoratesOnly allowed true text) (unmarked : withoutByteOrderMark text = text)
    {statement : Statement} (parsed : Statement.parse? text = some statement) :
    statement.Obeys (decoratorLaw allowed) := by
  unfold Statement.parse? at parsed
  rw [unmarked] at parsed
  rcases Option.bind_eq_some_iff.1 parsed with ⟨⟨lines, after⟩, scanned, parsed⟩
  rcases Option.bind_eq_some_iff.1 parsed with ⟨⟨header, statements, footer⟩, read, only⟩
  have lawful := obeys_readStatements (decorates.obeys_lines scanned) read
  split at only
  case h_1 same =>
    cases same
    cases only
    exact lawful.1
  · cases only

end Source
end OpenRecord
