import Mathlib.Data.List.Find
import OpenRecord.Proofs.Source.LineScanning
import OpenRecord.Proofs.Source.LineTokens
import OpenRecord.Proofs.Source.LiteralValues
import OpenRecord.Proofs.Source.OpeningWords

namespace OpenRecord
namespace Source

/-!
# Writing tokens

A text spells certain tokens if it is scanned as them wherever it stands: behind anything that may
stand between two tokens, and in front of any text whose first character does not go on with the last
of them.  Words, symbols and literals spell themselves, and texts that spell tokens do so together.
What is open around the text has to be known, because brackets are closed and line breaks are skipped
by it.

The blanks that stand in front of a token are not kept apart: nothing that reads tokens looks at them.
-/

/-! ## Scanning tokens in a row -/

/-- Some tokens are scanned from the front of a text one after the other. -/
inductive Scanned (context : LineContext) :
    List Nest → Text → List Token → List Nest → Text → Prop
  | none (nest : List Nest) (text : Text) : Scanned context nest text [] nest text
  | more {nest inner after : List Nest} {text rest behind : Text} {token : Token}
    {later : List Token} :
    lineStep context nest text = some (.go ⟨token, inner, rest⟩) →
    Scanned context inner rest later after behind →
    Scanned context nest text (token :: later) after behind

namespace Scanned

variable {context : LineContext} {nest inner after : List Nest} {text rest behind : Text}
  {front back : List Token}

theorem append (first : Scanned context nest text front inner rest)
    (second : Scanned context inner rest back after behind) :
    Scanned context nest text (front ++ back) after behind := by
  induction first with
  | none => exact second
  | more step _ ih => exact .more step (ih second)

theorem length_le (scanned : Scanned context nest text front after behind) :
    front.length + behind.length ≤ text.length := by
  induction scanned with
  | none => simp
  | more step _ ih =>
    have parts := congrArg List.length (lineStep_continues step).spelled
    have written := List.length_pos_iff.2 (standsIn_of_lineStep step).written
    simp only [Token.print, List.length_append, List.length_cons] at parts written ⊢
    omega

/-- Tokens up to the end of a line are the tokens of the line. -/
theorem logicalLine {ending : LineEnd} {fuel : Nat}
    (scanned : Scanned context nest text front [] rest)
    (stops : lineStep context [] rest = some (.stop ending behind)) (enough : front.length < fuel) :
    logicalLine context fuel nest text = some (front, ending, behind) := by
  generalize outside : ([] : List Nest) = none at scanned
  induction scanned generalizing fuel with
  | none =>
    subst outside
    rcases Nat.exists_eq_succ_of_ne_zero (Nat.ne_of_gt enough) with ⟨fuel, rfl⟩
    rw [Source.logicalLine, stops]
  | more step _ ih =>
    rcases Nat.exists_eq_succ_of_ne_zero (Nat.ne_zero_of_lt enough) with ⟨fuel, rfl⟩
    exact logicalLine_go step (ih stops (Nat.lt_of_succ_lt_succ enough) outside)

end Scanned

/-! ## Between two tokens -/

/-- A line whose block is indented by blanks. -/
def LineContext.IsBlank (context : LineContext) : Prop :=
  ∀ x ∈ context.indent, Text.isIndent x = true

/-- What may stand in front of a token while some brackets are open. -/
def Separates (nest : List Nest) (gap : Text) : Prop :=
  ∀ (context : LineContext) (c : Char) (rest : Text), context.IsBlank → StartsToken c →
    ∃ pieces, lineStep context nest (gap ++ c :: rest) = (lexeme nest pieces (c :: rest)).map .go

theorem separates_blanks (gap : Text) (blank : ∀ x ∈ gap, Text.isIndent x = true) :
    Separates [] gap :=
  fun _ _ _ _ start => ⟨_, lineStep_append blank start⟩

theorem behindBlanks_blankRun (text : Text) :
    behindBlanks false text = behindBlanks false (blankRun text).2 := by
  have push : ∀ front pair, (blankRun.push front pair).2 = pair.2 := fun _ _ => rfl
  fun_induction blankRun text with
  | case1 rest ih => rw [push, ← ih]; rfl
  | case2 rest ih => rw [push, ← ih]; rfl
  | case3 rest _ ih => rw [push, ← ih]; rfl
  | case4 c rest _ _ _ blank ih =>
    have plain : c ≠ '\x5c' := by
      rintro rfl
      cases blank
    rw [push, ← ih, behindBlanks_cons plain, if_pos (by simp [blank])]
  | case5 => rfl
  | case6 => rfl

theorem behindBlanks_blanks {blanks : Text} (blank : ∀ x ∈ blanks, Text.isIndent x = true)
    (rest : Text) : behindBlanks false (blanks ++ rest) = behindBlanks false rest := by
  induction blanks with
  | nil => rfl
  | cons c blanks ih =>
    rw [List.forall_mem_cons] at blank
    have plain : c ≠ '\x5c' := by
      rintro rfl
      cases blank.1
    rw [List.cons_append, behindBlanks_cons plain, if_pos (by simp [blank.1]), ih blank.2]

/-- A comment goes up to a line break or to the end. -/
theorem behindBlanks_comment (text : Text) :
    behindBlanks false text = behindBlanks false (comment text).2 := by
  have onward : ∀ rest : Text, behindBlanks true rest =
      behindBlanks false (rest.dropWhile (!Text.isBreak ·)) := by
    intro rest
    induction rest with
    | nil => rfl
    | cons c rest ih =>
      cases ends : Text.isBreak c with
      | true =>
        have plain : c ≠ '\x5c' := by
          rintro rfl
          cases ends
        rw [behindBlanks, List.dropWhile_cons_of_neg (by simp [ends]), behindBlanks_cons plain,
          if_pos (by simp [ends]), ends]
        rfl
      | false => rw [behindBlanks, List.dropWhile_cons_of_pos (by simp [ends]), ends, ← ih]; rfl
  unfold comment
  split
  case h_1 rest =>
    rw [behindBlanks_cons (by decide), if_neg (by decide), if_pos rfl, onward]
    rfl
  case h_2 => rfl

theorem behindBlanks_splitBreak {text found next : Text}
    (cut : Text.splitBreak text = some (found, next)) :
    behindBlanks false text = behindBlanks false next ∧ next.length < text.length := by
  unfold Text.splitBreak at cut
  split at cut <;> cases cut
  · exact ⟨rfl, Nat.lt_succ_of_lt (Nat.lt_succ_self _)⟩
  · exact ⟨rfl, Nat.lt_succ_self _⟩
  · exact ⟨rfl, Nat.lt_succ_self _⟩

/-- Behind blanks there is none, and no continued line end. -/
theorem blankRun_snd_cases (text : Text) : (blankRun text).2 = [] ∨
    ∃ c rest, (blankRun text).2 = c :: rest ∧ Text.isIndent c = false ∧
      (c = '\x5c' → ∀ d ∈ rest.head?, Text.isBreak d = false) := by
  have push : ∀ front pair, (blankRun.push front pair).2 = pair.2 := fun _ _ => rfl
  fun_induction blankRun text with
  | case1 rest ih => rwa [push]
  | case2 rest ih => rwa [push]
  | case3 rest _ ih => rwa [push]
  | case4 c rest _ _ _ blank ih => rwa [push]
  | case5 c rest pair feed carriage solid =>
    refine .inr ⟨c, rest, rfl, by simpa using solid, fun joins d first => ?_⟩
    rcases List.head?_eq_some_iff.1 first with ⟨later, rfl⟩
    by_contra broken
    rw [Bool.not_eq_false, Text.isBreak, Bool.or_eq_true, beq_iff_eq, beq_iff_eq] at broken
    rcases broken with rfl | rfl
    · exact feed later joins rfl
    · exact carriage later joins rfl
  | case6 => exact .inl rfl

theorem behindBlanks_eq_self {text : Text}
    (whole : Text.splitBreak (comment (blankRun text).2).2 = none) :
    behindBlanks false (comment (blankRun text).2).2 = (comment (blankRun text).2).2 := by
  rcases blankRun_snd_cases text with empty | ⟨c, rest, parts, solid, joins⟩
  · rw [empty]
    rfl
  rw [parts] at whole ⊢
  by_cases remark : c = '#'
  · subst remark
    change Text.splitBreak (('#' :: rest).dropWhile (!Text.isBreak ·)) = none at whole
    change behindBlanks false (('#' :: rest).dropWhile (!Text.isBreak ·)) =
      ('#' :: rest).dropWhile (!Text.isBreak ·)
    cases behind : ('#' :: rest).dropWhile (!Text.isBreak ·) with
    | nil => rfl
    | cons d later =>
      have ends := List.head?_dropWhile_not (!Text.isBreak ·) ('#' :: rest)
      rw [behind] at ends whole
      exact absurd whole (splitBreak_ne_none (by simpa using ends) later)
  · have plain : comment (c :: rest) = ([], c :: rest) := by
      unfold comment
      split
      case h_1 same =>
        cases same
        exact absurd rfl remark
      case h_2 => rfl
    rw [plain] at whole ⊢
    have unbroken : Text.isBreak c = false := by
      by_contra broken
      exact splitBreak_ne_none (by simpa using broken) rest whole
    by_cases sign : c = '\x5c'
    · subst sign
      cases rest with
      | nil => rfl
      | cons d later =>
        dsimp only
        rw [behindBlanks, if_neg (by simp [joins rfl d rfl])]
    · dsimp only
      rw [behindBlanks_cons sign, if_neg (by simp [solid, unbroken]), if_neg remark]

theorem blankRun_length_le (text : Text) : (blankRun text).2.length ≤ text.length :=
  (blankRun_suffix text).length_le

theorem comment_length_le (text : Text) : (comment text).2.length ≤ text.length :=
  (comment_suffix text).length_le

/-- The gap inside brackets is what stands in front of the first character that is not blank there. -/
theorem bracketGap_snd {context : LineContext} (margin : context.IsBlank) {fuel : Nat} {text : Text}
    (enough : text.length < fuel) : (bracketGap context fuel text).2 = behindBlanks false text := by
  induction fuel generalizing text with
  | zero => cases enough
  | succ fuel ih =>
    rw [behindBlanks_blankRun, behindBlanks_comment]
    have first := blankRun_length_le text
    have second := comment_length_le (blankRun text).2
    simp only [bracketGap]
    cases cut : Text.splitBreak (comment (blankRun text).2).2 with
    | none => exact (behindBlanks_eq_self cut).symm
    | some pair =>
      rcases behindBlanks_splitBreak cut with ⟨same, shorter⟩
      rw [same]
      dsimp only
      split
      case isTrue isPrefix =>
        rw [ih (by rw [List.length_drop]; omega)]
        rcases List.isPrefixOf_iff_prefix.1 isPrefix with ⟨rest, parts⟩
        rw [← parts, List.drop_left, behindBlanks_blanks margin]
      case isFalse => exact ih (by omega)

theorem separates_brackets {closer : Symbol} {outer : List Nest} {gap : Text} (blanks : Blanks gap) :
    Separates (.bracket closer :: outer) gap := by
  intro context c rest margin start
  have behind := bracketGap_snd margin (Nat.lt_succ_self (gap ++ c :: rest).length)
  rw [blanks.behindBlanks_append start] at behind
  change ∃ pieces, bracketStep context (.bracket closer :: outer) (gap ++ c :: rest) = _
  unfold bracketStep
  rcases found : bracketGap context ((gap ++ c :: rest).length + 1) (gap ++ c :: rest)
    with ⟨pieces, after⟩
  rw [Nat.succ_eq_add_one, found] at behind
  exact ⟨pieces, by rw [← show after = c :: rest from behind]⟩

/-! ## Texts that are scanned as certain tokens -/

/-- A text that begins with a character of some kind. -/
def Begins (kind : Char → Prop) (text : Text) : Prop :=
  ∃ c ∈ text.head?, kind c

/-- Wherever a text stands, it is scanned as tokens of which something is known, as long as the text
behind it begins with a character of some kind. -/
structure ScansAs (nest after : List Nest) (follows : Char → Prop) (text : Text)
    (known : List Token → Prop) : Prop where
  starts : Begins StartsToken text
  scanned : ∀ (context : LineContext) (gap rest : Text), context.IsBlank → Separates nest gap →
    Begins follows rest →
      ∃ tokens, known tokens ∧ Scanned context nest (gap ++ (text ++ rest)) tokens after rest

/-- Tokens of certain kinds and texts. -/
def Shows (kinds : List (TokenKind × Text)) (tokens : List Token) : Prop :=
  tokens.map (fun token => (token.kind, token.text)) = kinds

/-- Tokens of which the front and the back are known. -/
def Both (first second : List Token → Prop) (tokens : List Token) : Prop :=
  ∃ front back, tokens = front ++ back ∧ first front ∧ second back

theorem Begins.append {kind : Char → Prop} {front : Text} (begins : Begins kind front)
    (back : Text) : Begins kind (front ++ back) := by
  rcases begins with ⟨c, first, holds⟩
  exact ⟨c, mem_head?_append first, holds⟩

theorem begins_cons {kind : Char → Prop} {c : Char} (holds : kind c) (rest : Text) :
    Begins kind (c :: rest) :=
  ⟨c, rfl, holds⟩

theorem Begins.exists_cons {kind : Char → Prop} {text : Text} (begins : Begins kind text) :
    ∃ c rest, text = c :: rest ∧ kind c := by
  rcases begins with ⟨c, first, holds⟩
  rcases List.head?_eq_some_iff.1 first with ⟨rest, parts⟩
  exact ⟨c, rest, parts, holds⟩

namespace ScansAs

variable {nest inner after : List Nest} {follows next : Char → Prop} {text front back gap : Text}
  {known first second : List Token → Prop}

theorem mono (scans : ScansAs nest after follows text known) {weaker : List Token → Prop}
    (weakens : ∀ tokens, known tokens → weaker tokens) :
    ScansAs nest after follows text weaker where
  starts := scans.starts
  scanned context gap rest margin separates begins := by
    rcases scans.scanned context gap rest margin separates begins with ⟨tokens, holds, scanned⟩
    exact ⟨tokens, weakens tokens holds, scanned⟩

/-- Less may stand behind a text than has to be possible. -/
theorem narrow (scans : ScansAs nest after follows text known) {fewer : Char → Prop}
    (narrows : ∀ c, fewer c → follows c) : ScansAs nest after fewer text known where
  starts := scans.starts
  scanned context gap rest margin separates := fun ⟨c, first, holds⟩ =>
    scans.scanned context gap rest margin separates ⟨c, first, narrows c holds⟩

theorem append (one : ScansAs nest inner follows front first)
    (two : ScansAs inner after next back second) (separates : Separates inner gap)
    (begins : Begins follows (gap ++ back)) :
    ScansAs nest after next (front ++ (gap ++ back)) (Both first second) where
  starts := one.starts.append _
  scanned context above rest margin opens behind := by
    have later : Begins follows (gap ++ (back ++ rest)) := by
      rw [← List.append_assoc]
      exact begins.append rest
    rcases one.scanned context above _ margin opens later with ⟨tokens, holds, scanned⟩
    rcases two.scanned context gap rest margin separates behind with ⟨others, known, more⟩
    refine ⟨tokens ++ others, ⟨tokens, others, rfl, holds, known⟩, ?_⟩
    rw [List.append_assoc, List.append_assoc]
    exact scanned.append more

end ScansAs

/-- A token that is scanned as itself wherever it stands. -/
theorem scansAs_token {nest after : List Nest} {follows : Char → Prop} {text : Text}
    {kind : TokenKind} (starts : Begins StartsToken text)
    (again : ∀ gap rest, Begins follows rest →
      lexeme nest gap (text ++ rest) = some ⟨⟨gap, kind, text⟩, after, rest⟩) :
    ScansAs nest after follows text (Shows [(kind, text)]) where
  starts := starts
  scanned context gap rest margin separates begins := by
    rcases starts.exists_cons with ⟨c, later, rfl, start⟩
    rcases separates context c (later ++ rest) margin start with ⟨pieces, step⟩
    have own := again pieces rest begins
    rw [List.cons_append] at own ⊢
    rw [own] at step
    exact ⟨[⟨pieces, kind, c :: later⟩], rfl, .more step (.none after rest)⟩

/-! ## Words -/

/-- A character that does not go on with a word or make a literal of it. -/
def EndsWord (c : Char) : Prop :=
  isWordChar c = false ∧ isMark c = false

instance (c : Char) : Decidable (EndsWord c) :=
  inferInstanceAs (Decidable (_ ∧ _))

theorem exists_cons_of_isName {name : Text} (named : name.IsName) :
    ∃ c rest, name = c :: rest ∧ isWordChar c = true ∧ Text.isAsciiDigit c = false := by
  have spelled := Text.chars_of_isIdentifier named.1
  rcases List.exists_cons_of_ne_nil spelled.1 with ⟨first, later, rfl⟩
  refine ⟨first, later, rfl,
    isWordChar_of_isNameContinue (spelled.2 first (List.mem_cons_self ..)), ?_⟩
  have identifier := named.1
  rw [Text.isIdentifier, Bool.and_eq_true] at identifier
  exact isAsciiDigit_of_isNameStart identifier.1

theorem scansAs_name {name : Text} (named : name.IsName) (nest : List Nest) :
    ScansAs nest nest EndsWord name (Shows [(.name, name)]) := by
  rcases exists_cons_of_isName named with ⟨c, later, parts, start, letter⟩
  refine scansAs_token ⟨c, by simp [parts], startsToken_of_isWordChar start⟩
    fun gap rest begins => ?_
  rcases begins.exists_cons with ⟨d, behind, rfl, stop, unmarked⟩
  have chars : ∀ x ∈ name, isWordChar x = true := fun x member =>
    isWordChar_of_isNameContinue ((Text.chars_of_isIdentifier named.1).2 x member)
  have scanned : lexeme nest gap (name ++ d :: behind) = wordLexeme nest gap (name ++ d :: behind) := by
    rw [parts, List.cons_append]
    exact lexeme_word start letter
  rw [scanned, wordLexeme_append chars stop unmarked, named.2]
  exact if_pos named.1

theorem scansAs_keyword (word : Text) (keyword : Keyword)
    (known : (word, keyword) ∈ Keyword.spellings) (nest : List Nest) :
    ScansAs nest nest EndsWord word (Shows [(.keyword keyword, word)]) := by
  have letters : Keyword.spellings.all (fun entry => entry.1.all (fun c =>
      isWordChar c && !Text.isAsciiDigit c) && decide (entry.1 ≠ []) &&
      decide (Keyword.ofText? entry.1 = some entry.2)) = true := by decide
  have own := List.all_eq_true.1 letters _ known
  simp only [Bool.and_eq_true, List.all_eq_true, decide_eq_true_eq, Bool.not_eq_true'] at own
  rcases own with ⟨⟨chars, solid⟩, spelled⟩
  rcases List.exists_cons_of_ne_nil solid with ⟨c, later, parts⟩
  have start := chars c (by simp [parts])
  refine scansAs_token ⟨c, by simp [parts], startsToken_of_isWordChar start.1⟩
    fun gap rest begins => ?_
  rcases begins.exists_cons with ⟨d, behind, rfl, stop, unmarked⟩
  have scanned : lexeme nest gap (word ++ d :: behind) = wordLexeme nest gap (word ++ d :: behind) := by
    rw [parts, List.cons_append]
    exact lexeme_word start.1 start.2
  rw [scanned, wordLexeme_append (fun x member => (chars x member).1) stop unmarked, spelled]

/-! ## Symbols -/

/-- Outside of literals, or within a bracket. -/
inductive PlainNest : List Nest → Prop
  | outside : PlainNest []
  | bracket (closer : Symbol) (outer : List Nest) : PlainNest (.bracket closer :: outer)

/-- A character that goes on with no symbol and makes no number of a point. -/
def EndsSymbol (c : Char) : Prop :=
  c ∉ ['*', '/', '<', '=', '>', '.'] ∧ Text.isAsciiDigit c = false

instance (c : Char) : Decidable (EndsSymbol c) :=
  inferInstanceAs (Decidable (_ ∧ _))

theorem isPrefixOf_append_cons {d : Char} {front : Text} (free : d ∉ front) (more rest : Text) :
    front.isPrefixOf (more ++ d :: rest) = front.isPrefixOf more := by
  induction more generalizing front with
  | nil =>
    cases front with
    | nil => rfl
    | cons c front =>
      have other : (c == d) = false := beq_eq_false_iff_ne.2 fun same => free (by simp [same])
      simp [List.isPrefixOf, other]
  | cons x more ih =>
    cases front with
    | nil => rfl
    | cons c front =>
      rw [List.mem_cons, not_or] at free
      simp [List.isPrefixOf, ih free.2]

/-- What stands behind the first characters of a symbol decides nothing if it goes on with none. -/
theorem isPrefixOf_symbol {entry : Symbol × Text} (listed : entry ∈ symbols) {chars : Text}
    (written : chars ≠ []) {d : Char} (ends : EndsSymbol d) (rest : Text) :
    entry.2.isPrefixOf (chars ++ d :: rest) = entry.2.isPrefixOf chars := by
  have tails : ∀ entry ∈ symbols,
      entry.2.tail.all (fun c => decide (c ∈ ['*', '/', '<', '=', '>', '.'])) = true := by decide
  have free : d ∉ entry.2.tail := fun inside =>
    ends.1 (of_decide_eq_true (List.all_eq_true.1 (tails entry listed) d inside))
  rcases List.exists_cons_of_ne_nil written with ⟨x, more, rfl⟩
  cases parts : entry.2 with
  | nil => rfl
  | cons c front =>
    rw [parts, List.tail_cons] at free
    rw [List.cons_append, List.isPrefixOf, List.isPrefixOf, isPrefixOf_append_cons free]

theorem symbol_append {chars : Text} {which : Symbol} (written : chars ≠ [])
    (own : symbol chars = some (which, chars, [])) {d : Char} (ends : EndsSymbol d) (rest : Text) :
    symbol (chars ++ d :: rest) = some (which, chars, d :: rest) := by
  have same : symbols.find? (·.2.isPrefixOf (chars ++ d :: rest)) =
      symbols.find? (·.2.isPrefixOf chars) :=
    List.find?_congr fun entry listed => isPrefixOf_symbol listed written ends rest
  unfold symbol at own ⊢
  rw [same]
  split at own
  case h_1 entry known found =>
    rw [Option.some.injEq, Prod.mk.injEq, Prod.mk.injEq] at own
    rcases own with ⟨rfl, rfl, -⟩
    simp
  case h_2 => cases own

/-- What is known of the first character of a symbol. -/
theorem lexeme_symbol {nest : List Nest} {gap : List Piece} {chars : Text} {which : Symbol}
    (written : chars ≠ []) (own : symbol chars = some (which, chars, [])) {d : Char}
    (ends : EndsSymbol d) (rest : Text) :
    lexeme nest gap (chars ++ d :: rest) = symbolLexeme nest gap (chars ++ d :: rest) := by
  have firsts : ∀ entry ∈ symbols, entry.2.head?.any (fun c =>
      !isWordChar c && !isMark c && !Text.isAsciiDigit c) = true ∧
      entry.2.tail.all (fun c => !Text.isAsciiDigit c) = true := by decide
  have listed : (which, chars) ∈ symbols := (symbol_spells own).2
  rcases List.exists_cons_of_ne_nil written with ⟨c, more, rfl⟩
  rcases firsts _ listed with ⟨first, others⟩
  have plain : isWordChar c = false ∧ isMark c = false ∧ Text.isAsciiDigit c = false := by
    simpa [and_assoc] using first
  have letter : (more ++ d :: rest).head?.any Text.isAsciiDigit = false := by
    cases more with
    | nil => simp [ends.2]
    | cons x more =>
      have undigited := List.all_eq_true.1 others x (List.mem_cons_self ..)
      simpa using undigited
  rw [List.cons_append, lexeme, letter]
  simp [plain]

/-- What a symbol makes of what is open, if it may stand there. -/
def Symbol.turns : Symbol → List Nest → Option (List Nest)
  | .openRound, nest => some (.bracket .closeRound :: nest)
  | .openSquare, nest => some (.bracket .closeSquare :: nest)
  | .openCurly, nest => some (.bracket .closeCurly :: nest)
  | .closeRound, .bracket .closeRound :: outer => some outer
  | .closeSquare, .bracket .closeSquare :: outer => some outer
  | .closeCurly, .bracket .closeCurly :: outer => some outer
  | .closeRound, _ => none
  | .closeSquare, _ => none
  | .closeCurly, _ => none
  | _, nest => some nest

theorem symbolLexeme_eq {nest : List Nest} (plain : PlainNest nest) (gap : List Piece)
    {text chars rest : Text} {which : Symbol} (known : symbol text = some (which, chars, rest)) :
    symbolLexeme nest gap text =
      (which.turns nest).map fun after => ⟨⟨gap, .symbol which, chars⟩, after, rest⟩ := by
  cases plain with
  | outside =>
    rw [symbolLexeme.eq_def]
    simp only [known]
    cases which <;> rfl
  | bracket closer outer =>
    rw [symbolLexeme.eq_def]
    simp only [known]
    cases which
    case closeRound => cases closer <;> rfl
    case closeSquare => cases closer <;> rfl
    case closeCurly => cases closer <;> rfl
    all_goals rfl

theorem scansAs_symbol {nest after : List Nest} (plain : PlainNest nest) {chars : Text}
    {which : Symbol} (own : symbol chars = some (which, chars, []))
    (turns : which.turns nest = some after) :
    ScansAs nest after EndsSymbol chars (Shows [(.symbol which, chars)]) := by
  have known := solid_symbols _ (symbol_spells own).2
  rcases List.exists_cons_of_ne_nil known.1 with ⟨c, more, parts⟩
  refine scansAs_token ⟨c, by simp [show chars = c :: more from parts], ?_⟩
    fun gap rest begins => ?_
  · exact (known.2 c (by rw [parts]; exact List.mem_cons_self ..)).2
  · rcases begins.exists_cons with ⟨d, behind, rfl, ends⟩
    rw [lexeme_symbol known.1 own ends,
      symbolLexeme_eq plain gap (symbol_append known.1 own ends behind), turns]
    rfl

/-! ## Literals -/

/-- A text between two marks is scanned as a literal wherever no third mark follows. -/
theorem scansAs_quoted {mark : Char} (marks : isMark mark = true) {body : Text}
    (guarded : Guarded mark body) (nest : List Nest) :
    ScansAs nest nest (isMark · = false) (mark :: body ++ [mark])
      (Shows [(.literal, mark :: body ++ [mark])]) := by
  refine scansAs_token ⟨mark, rfl, (solid_of_isMark marks).2⟩ fun gap rest begins => ?_
  rcases begins.exists_cons with ⟨d, behind, rfl, unmarked⟩
  exact lexeme_of_guarded marks guarded (by simp [unmarked]) nest gap

theorem tripleQuoted_of_plain {mark : Char} {body : Text}
    (plain : ∀ c ∈ body, c ≠ mark ∧ c ≠ '\x5c') (marks : isMark mark = true) (rest : Text) :
    tripleQuoted mark (body ++ mark :: mark :: mark :: rest) =
      some (body ++ [mark, mark, mark], rest) := by
  induction body with
  | nil =>
    have solid : mark ≠ '\x5c' := by
      rintro rfl
      cases marks
    rw [List.nil_append, tripleQuoted]
    · simp [List.isPrefixOf]
    · rintro _ _ rfl
      exact absurd rfl solid
  | cons c body ih =>
    rw [List.forall_mem_cons] at plain
    rw [List.cons_append, tripleQuoted]
    · rw [if_neg (by simp [plain.1.1]), ih plain.2]
      rfl
    · rintro _ _ rfl
      exact absurd rfl plain.1.2

/-- A text without marks and backslashes between two times three marks is scanned as a literal. -/
theorem scansAs_documentation {mark : Char} (marks : isMark mark = true) {body : Text}
    (plain : ∀ c ∈ body, c ≠ mark ∧ c ≠ '\x5c') (nest : List Nest) :
    ScansAs nest nest (fun _ => True) (mark :: mark :: mark :: body ++ [mark, mark, mark])
      (Shows [(.literal, mark :: mark :: mark :: body ++ [mark, mark, mark])]) := by
  refine scansAs_token ⟨mark, rfl, (solid_of_isMark marks).2⟩ fun gap rest _ => ?_
  have letter : Text.isAsciiDigit mark = false ∧ mark ≠ '.' := by
    rw [isMark, Bool.or_eq_true, beq_iff_eq, beq_iff_eq] at marks
    rcases marks with rfl | rfl <;> exact ⟨rfl, by decide⟩
  have closed := tripleQuoted_of_plain plain marks rest
  have shape : mark :: mark :: mark :: body ++ [mark, mark, mark] ++ rest =
      mark :: mark :: mark :: (body ++ mark :: mark :: mark :: rest) := by simp
  rw [shape, lexeme, if_neg (by simp [letter]), if_pos marks, literalLexeme]
  simp [List.isPrefixOf, closed]

end Source
end OpenRecord
