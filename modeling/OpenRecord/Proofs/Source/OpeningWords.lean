import OpenRecord.Source.Tree
import OpenRecord.Text.Lines

namespace OpenRecord
namespace Source

/-!
# The opening words of a definition

A definition starts with a reserved word and a name.  Whatever follows the name, a line that
starts so can be read only as a definition of that name: the lexer takes the two words off the
front of the line, and the grammar then has no other choice.  The same is shown of the lines that
hold a decorator and nothing else.

Nothing is claimed about whether such a line can be read at all; that depends on the rest of it.
-/

/-! ## Gaps -/

/-- A character at which a gap between tokens ends, and neither a line nor a comment begins. -/
structure StartsToken (c : Char) : Prop where
  solid : Text.isIndent c = false
  joinsNothing : c ≠ '\x5c'
  opensNoComment : c ≠ '#'
  unbroken : Text.isBreak c = false

/-- Two characters of which one belongs to words and the other does not are different. -/
theorem ne_of_isWordChar {c other : Char} (word : isWordChar c = true)
    (outside : isWordChar other = false) : c ≠ other := by
  rintro rfl
  rw [word] at outside
  cases outside

theorem startsToken_of_isWordChar {c : Char} (word : isWordChar c = true) : StartsToken c where
  solid := by
    simp only [Text.isIndent, Bool.or_eq_false_iff, beq_eq_false_iff_ne]
    exact ⟨⟨ne_of_isWordChar word (by decide), ne_of_isWordChar word (by decide)⟩,
      ne_of_isWordChar word (by decide)⟩
  joinsNothing := ne_of_isWordChar word (by decide)
  opensNoComment := ne_of_isWordChar word (by decide)
  unbroken := by
    simp only [Text.isBreak, Bool.or_eq_false_iff, beq_eq_false_iff_ne]
    exact ⟨ne_of_isWordChar word (by decide), ne_of_isWordChar word (by decide)⟩

theorem isWordChar_of_isNameContinue {c : Char} (continues : Text.isNameContinue c = true) :
    isWordChar c = true := by
  unfold Text.isNameContinue at continues
  unfold isWordChar
  split at continues
  · simp [continues]
  case isFalse large => simp [Nat.not_lt.1 large]

theorem isAsciiDigit_of_isNameStart {c : Char} (start : Text.isNameStart c = true) :
    Text.isAsciiDigit c = false := by
  cases digit : Text.isAsciiDigit c with
  | false => rfl
  | true =>
    have below : c.toNat < 128 := by
      simp only [Text.isAsciiDigit, Bool.and_eq_true, decide_eq_true_eq, Char.le_def,
        UInt32.le_iff_toNat_le] at digit
      exact Nat.lt_of_le_of_lt digit.2 (by decide)
    rw [Text.isNameStart, if_pos below] at start
    simp only [Text.isAsciiDigit, Text.isAsciiNameStart, Bool.and_eq_true, Bool.or_eq_true,
      decide_eq_true_eq, beq_iff_eq, Char.le_def, UInt32.le_iff_toNat_le] at digit start
    have ninth : ('9' : Char).val.toNat = 57 := rfl
    rcases start with (⟨small, -⟩ | ⟨capital, -⟩) | rfl
    · have first : ('a' : Char).val.toNat = 97 := rfl
      omega
    · have first : ('A' : Char).val.toNat = 65 := rfl
      omega
    · exact absurd digit.2 (by decide)

theorem blankRun_append {blanks rest : Text} {c : Char}
    (blank : ∀ x ∈ blanks, Text.isIndent x = true) (start : StartsToken c) :
    blankRun (blanks ++ c :: rest) = (blanks, c :: rest) := by
  induction blanks with
  | nil =>
    rw [List.nil_append, blankRun.eq_4]
    · simp [start.solid]
    · rintro _ same _
      exact start.joinsNothing same
    · rintro _ same _
      exact start.joinsNothing same
    · rintro _ same _
      exact start.joinsNothing same
  | cons first later ih =>
    have here := blank first (List.mem_cons_self ..)
    have joins : first ≠ '\x5c' := by
      rintro rfl
      revert here
      decide
    rw [List.cons_append, blankRun.eq_4]
    · rw [if_pos here, ih fun x member => blank x (List.mem_cons_of_mem first member)]
      rfl
    · rintro _ same _
      exact joins same
    · rintro _ same _
      exact joins same
    · rintro _ same _
      exact joins same

theorem comment_of_startsToken {rest : Text} {c : Char} (start : StartsToken c) :
    comment (c :: rest) = ([], c :: rest) := by
  unfold comment
  split
  case h_1 same =>
    cases same
    exact absurd rfl start.opensNoComment
  case h_2 => rfl

theorem splitBreak_of_startsToken {rest : Text} {c : Char} (start : StartsToken c) :
    Text.splitBreak (c :: rest) = none := by
  have solid := start.unbroken
  unfold Text.splitBreak
  split
  all_goals simp_all [Text.isBreak]

theorem blankLine_append {usual blanks rest : Text} {c : Char}
    (blank : ∀ x ∈ blanks, Text.isIndent x = true) (start : StartsToken c) :
    blankLine usual (blanks ++ c :: rest) = none := by
  simp only [blankLine, blankRun_append blank start, comment_of_startsToken start,
    splitBreak_of_startsToken start]

/-- The indentation of a line ends where its first token starts. -/
theorem takeWhile_isIndent {blanks rest : Text} {c : Char}
    (blank : ∀ x ∈ blanks, Text.isIndent x = true) (start : StartsToken c) :
    (blanks ++ c :: rest).takeWhile Text.isIndent = blanks := by
  rw [List.takeWhile_append_of_pos blank, List.takeWhile_cons, start.solid]
  simp

/-- The first token stands behind the indentation of its line. -/
theorem dropWhile_isIndent {blanks rest : Text} {c : Char}
    (blank : ∀ x ∈ blanks, Text.isIndent x = true) (start : StartsToken c) :
    (blanks ++ c :: rest).dropWhile Text.isIndent = c :: rest := by
  rw [List.dropWhile_append_of_pos blank, List.dropWhile_cons, start.solid]
  simp

/-- Outside all brackets the token behind some blanks is scanned as it stands. -/
theorem lineStep_append {context : LineContext} {blanks rest : Text} {c : Char}
    (blank : ∀ x ∈ blanks, Text.isIndent x = true) (start : StartsToken c) :
    lineStep context [] (blanks ++ c :: rest) =
      (lexeme [] (Piece.run blanks) (c :: rest)).map .go := by
  simp only [lineStep, blankRun_append blank start, comment_of_startsToken start,
    splitBreak_of_startsToken start]

theorem logicalLine_go {context : LineContext} {fuel : Nat} {nest : List Nest} {text : Text}
    {found : Lexeme} {later : List Token} {ending : LineEnd} {after : Text}
    (step : lineStep context nest text = some (.go found))
    (others : logicalLine context fuel found.nest found.rest = some (later, ending, after)) :
    logicalLine context (fuel + 1) nest text = some (found.token :: later, ending, after) := by
  rw [logicalLine, step]
  dsimp only
  rw [others]

/-- The first token of a line that starts with one behind some blanks, and what the other tokens
are scanned from. -/
theorem logicalLine_append {context : LineContext} {fuel : Nat} {blanks rest : Text} {c : Char}
    {tokens : List Token} {ending : LineEnd} {after : Text}
    (blank : ∀ x ∈ blanks, Text.isIndent x = true) (start : StartsToken c)
    (scanned : logicalLine context fuel [] (blanks ++ c :: rest) = some (tokens, ending, after)) :
    ∃ found fuel' later, lexeme [] (Piece.run blanks) (c :: rest) = some found ∧
      tokens = found.token :: later ∧
      logicalLine context fuel' found.nest found.rest = some (later, ending, after) := by
  cases fuel with
  | zero => cases scanned
  | succ fuel =>
    unfold logicalLine at scanned
    rw [lineStep_append blank start] at scanned
    cases known : lexeme [] (Piece.run blanks) (c :: rest) with
    | none =>
      rw [known] at scanned
      cases scanned
    | some found =>
      rcases found with ⟨token, nest, behind⟩
      rw [known] at scanned
      dsimp only [Option.map_some] at scanned
      split at scanned
      · cases scanned
      case h_2 later finish remaining others =>
        cases scanned
        exact ⟨⟨token, nest, behind⟩, fuel, later, rfl, rfl, others⟩

/-! ## Words -/

/-- A word stops at the first character that belongs to no word. -/
theorem takeWhile_word {word rest : Text} {c : Char} (chars : ∀ x ∈ word, isWordChar x = true)
    (stop : isWordChar c = false) : (word ++ c :: rest).takeWhile isWordChar = word := by
  rw [List.takeWhile_append_of_pos chars, List.takeWhile_cons, stop]
  simp

/-- Behind a word stands the first character that belongs to no word. -/
theorem dropWhile_word {word rest : Text} {c : Char} (chars : ∀ x ∈ word, isWordChar x = true)
    (stop : isWordChar c = false) : (word ++ c :: rest).dropWhile isWordChar = c :: rest := by
  rw [List.dropWhile_append_of_pos chars, List.dropWhile_cons, stop]
  simp

/-- A word that no quotation mark follows is scanned as a reserved word or a name. -/
theorem wordLexeme_append {nest : List Nest} {gap : List Piece} {word rest : Text} {c : Char}
    (chars : ∀ x ∈ word, isWordChar x = true) (stop : isWordChar c = false)
    (unmarked : isMark c = false) :
    wordLexeme nest gap (word ++ c :: rest) =
      match Keyword.ofText? word with
      | some keyword => some ⟨⟨gap, .keyword keyword, word⟩, nest, c :: rest⟩
      | none =>
        if Text.isIdentifier word then some ⟨⟨gap, .name, word⟩, nest, c :: rest⟩ else none := by
  cases known : Keyword.ofText? word <;>
    simp [wordLexeme, takeWhile_word chars stop, dropWhile_word chars stop, unmarked, known]

theorem lexeme_word {nest : List Nest} {gap : List Piece} {first : Char} {rest : Text}
    (start : isWordChar first = true) (letter : Text.isAsciiDigit first = false) :
    lexeme nest gap (first :: rest) = wordLexeme nest gap (first :: rest) := by
  have plain : isMark first = false := by
    simp only [isMark, Bool.or_eq_false_iff, beq_eq_false_iff_ne]
    exact ⟨ne_of_isWordChar start (by decide), ne_of_isWordChar start (by decide)⟩
  have inner : (first == '.') = false :=
    beq_eq_false_iff_ne.2 (ne_of_isWordChar start (by decide))
  simp [lexeme, letter, inner, plain, start]

theorem lexeme_name {nest : List Nest} {gap : List Piece} {word rest : Text} {c : Char}
    {found : Lexeme} (nonempty : word ≠ []) (chars : ∀ x ∈ word, isWordChar x = true)
    (stop : isWordChar c = false) (unmarked : isMark c = false)
    (scanned : lexeme nest gap (word ++ c :: rest) = some found)
    (named : found.token.kind = .name) : found.token.text = word := by
  rcases List.exists_cons_of_ne_nil nonempty with ⟨first, later, rfl⟩
  have start : isWordChar first = true := chars first (List.mem_cons_self ..)
  cases letter : Text.isAsciiDigit first with
  | true =>
    -- a digit begins a number, which is no name
    simp only [lexeme, List.cons_append, letter, Bool.true_or, if_true] at scanned
    split at scanned
    · cases scanned
    · cases scanned
      cases named
  | false =>
    rw [List.cons_append, lexeme_word start letter, ← List.cons_append,
      wordLexeme_append chars stop unmarked] at scanned
    split at scanned
    · cases scanned
      cases named
    · split at scanned
      · cases scanned
        rfl
      · cases scanned

/-! ## The first two words of a line -/

/-- The reserved words that definitions start with. -/
inductive Opener
  | classWord
  | defWord

namespace Opener

/-- The characters of a reserved word. -/
def text : Opener → Text
  | classWord => "class"
  | defWord => "def"

/-- What the lexer calls a reserved word. -/
def keyword : Opener → Keyword
  | classWord => .classWord
  | defWord => .defWord

theorem ofText?_text (opener : Opener) : Keyword.ofText? opener.text = some opener.keyword := by
  cases opener <;> rfl

theorem chars_text (opener : Opener) :
    ∀ x ∈ opener.text, isWordChar x = true ∧ Text.isAsciiDigit x = false ∧ x ≠ '\ufeff' := by
  have letters : opener.text.all
      (fun x => isWordChar x && (!Text.isAsciiDigit x && x != '\ufeff')) = true := by
    cases opener <;> decide
  simpa using letters

/-- The word has a first letter. -/
theorem text_ne_nil (opener : Opener) : opener.text ≠ [] := by
  cases opener <;> decide

end Opener

/-- The opening of a line: a reserved word, one space, a word, and the colon or the bracket behind
it.  The word need not be a name; it may start with a digit or be reserved. -/
structure Opening where
  opener : Opener
  name : Text
  name_ne_nil : name ≠ []
  name_chars : ∀ x ∈ name, Text.isNameContinue x = true
  behind : Char
  behind_mem : behind ∈ [':', '(', '[']

namespace Opening

theorem word_name (opening : Opening) : ∀ x ∈ opening.name, isWordChar x = true :=
  fun x member => isWordChar_of_isNameContinue (opening.name_chars x member)

/-- The name ends at the character behind it, which does not open a literal. -/
theorem behind_outside (opening : Opening) :
    isWordChar opening.behind = false ∧ isMark opening.behind = false := by
  have each : [':', '(', '['].all (fun c => !isWordChar c && !isMark c) = true := by decide
  simpa using List.all_eq_true.1 each opening.behind opening.behind_mem

def text (opening : Opening) : Text :=
  opening.opener.text ++ ' ' :: (opening.name ++ [opening.behind])

/-- The reserved word of an opening is scanned up to the space behind it. -/
theorem lexeme_opener (opening : Opening) (rest : Text) :
    lexeme [] (Piece.run []) (opening.opener.text ++ ' ' :: rest) =
      some ⟨⟨[], .keyword opening.opener.keyword, opening.opener.text⟩, [], ' ' :: rest⟩ := by
  rcases List.exists_cons_of_ne_nil opening.opener.text_ne_nil with ⟨letter, letters, opener⟩
  have first := opening.opener.chars_text letter (by simp [opener])
  have chars : ∀ x ∈ opening.opener.text, isWordChar x = true :=
    fun x member => (opening.opener.chars_text x member).1
  have scanned : lexeme [] (Piece.run []) (opening.opener.text ++ ' ' :: rest) =
      wordLexeme [] (Piece.run []) (opening.opener.text ++ ' ' :: rest) := by
    rw [opener, List.cons_append]
    exact lexeme_word first.1 first.2.1
  rw [scanned, wordLexeme_append chars (by decide) (by decide), opening.opener.ofText?_text]
  rfl

/-- A line that starts with an opening starts with the two tokens of the opening, of which the
second one is the name if it is a name at all. -/
theorem tokens_of_logicalLine (opening : Opening) {context : LineContext} {fuel : Nat}
    {rest : Text} {tokens : List Token} {ending : LineEnd} {after : Text}
    (scanned : logicalLine context fuel [] (opening.text ++ rest) = some (tokens, ending, after)) :
    ∃ second later,
      tokens = ⟨[], .keyword opening.opener.keyword, opening.opener.text⟩ :: second :: later ∧
      (second.kind = .name → second.text = opening.name) := by
  rcases List.exists_cons_of_ne_nil opening.opener.text_ne_nil with ⟨letter, letters, opener⟩
  rcases List.exists_cons_of_ne_nil opening.name_ne_nil with ⟨initial, others, name⟩
  have start : StartsToken letter :=
    startsToken_of_isWordChar (opening.opener.chars_text letter (by simp [opener])).1
  have next : StartsToken initial :=
    startsToken_of_isWordChar (opening.word_name initial (by simp [name]))
  have written : opening.text ++ rest =
      [] ++ letter :: (letters ++ ' ' :: (opening.name ++ opening.behind :: rest)) := by
    simp [text, opener]
  rw [written] at scanned
  rcases logicalLine_append (by simp) start scanned with ⟨first, fuel', tail, found, rfl, more⟩
  have reserved := opening.lexeme_opener (opening.name ++ opening.behind :: rest)
  rw [opener, List.cons_append, found] at reserved
  cases reserved
  have blank : ∀ x ∈ [' '], Text.isIndent x = true := by simp [Text.isIndent]
  rw [name, List.cons_append, ← List.singleton_append] at more
  rcases logicalLine_append blank next more with ⟨second, _, later, found', rfl, -⟩
  rw [← List.cons_append, ← name] at found'
  exact ⟨second.token, later, by rw [opener],
    lexeme_name opening.name_ne_nil opening.word_name opening.behind_outside.1
      opening.behind_outside.2 found'⟩

end Opening

/-! ## Reading the line -/

/-- Small statements behind a header leave the header what it is. -/
theorem withItems_eq_some {fuel : Nat} {tokens rest : List Token} {head : Head} {read : ReadLine}
    (result : withItems fuel tokens (some (head, rest)) = some read) :
    ∃ front items, read = .header head front items := by
  unfold withItems at result
  cases rest with
  | nil => exact ⟨tokens, [], (Option.some.inj result).symm⟩
  | cons first later =>
    cases head with
    | decorator value => cases result
    | definition role =>
      rcases Option.bind_eq_some_iff.1 result with ⟨items, -, written⟩
      exact ⟨_, items, (Option.some.inj written).symm⟩
    | clause kind =>
      rcases Option.bind_eq_some_iff.1 result with ⟨items, -, written⟩
      exact ⟨_, items, (Option.some.inj written).symm⟩

/-- A class header defines a class of the name behind its reserved word. -/
theorem classHeader_eq_some {fuel : Nat} {tokens rest : List Token} {head : Head}
    (result : classHeader fuel tokens = some (head, rest)) :
    ∃ shape gap later, head = .definition (.classDefinition shape) ∧
      tokens = ⟨gap, .name, shape.name⟩ :: later := by
  unfold classHeader at result
  split at result
  case h_1 gap name later =>
    rcases Option.bind_eq_some_iff.1 result with ⟨⟨typeParameters, behind⟩, -, result⟩
    dsimp only at result
    split at result
    · rcases Option.bind_eq_some_iff.1 result with ⟨_, -, result⟩
      rcases Option.bind_eq_some_iff.1 result with ⟨_, -, result⟩
      cases result
      exact ⟨⟨name, _, _⟩, gap, later, rfl, rfl⟩
    · rcases Option.bind_eq_some_iff.1 result with ⟨_, -, result⟩
      rcases Option.bind_eq_some_iff.1 result with ⟨_, -, result⟩
      rcases Option.bind_eq_some_iff.1 result with ⟨_, -, result⟩
      rcases Option.bind_eq_some_iff.1 result with ⟨_, -, result⟩
      cases result
      exact ⟨⟨name, _, _⟩, gap, later, rfl, rfl⟩
  · cases result

/-- A function header defines a function of the name behind its reserved word. -/
theorem functionHeader_eq_some {fuel : Nat} {tokens rest : List Token} {head : Head}
    (result : functionHeader fuel tokens = some (head, rest)) :
    ∃ function gap later, head = .definition (.functionDefinition function) ∧
      tokens = ⟨gap, .name, function.name⟩ :: later := by
  unfold functionHeader at result
  split at result
  case h_1 gap name later =>
    rcases Option.bind_eq_some_iff.1 result with ⟨_, -, result⟩
    rcases Option.bind_eq_some_iff.1 result with ⟨_, -, result⟩
    rcases Option.bind_eq_some_iff.1 result with ⟨⟨names, _⟩, -, result⟩
    rcases Option.bind_eq_some_iff.1 result with ⟨_, -, result⟩
    dsimp only at result
    split at result
    all_goals
      rcases Option.bind_eq_some_iff.1 result with ⟨_, -, result⟩
      rcases Option.bind_eq_some_iff.1 result with ⟨_, -, result⟩
      cases result
      exact ⟨⟨name, names⟩, gap, later, rfl, rfl⟩
  · cases result

/-- A line that starts with the reserved word of a definition defines the name behind it. -/
theorem readLine_of_opener {gap : List Piece} {chars : Text} {opener : Opener}
    {tokens : List Token} {read : ReadLine}
    (result : readLine false (⟨gap, .keyword opener.keyword, chars⟩ :: tokens) = some read) :
    ∃ role front items gap' later, read = .header (.definition role) front items ∧
      tokens = ⟨gap', .name, role.name⟩ :: later := by
  have starts : startsHeader (⟨gap, .keyword opener.keyword, chars⟩ :: tokens) = true := by
    cases opener <;> rfl
  simp only [readLine, Bool.false_eq_true, if_false, starts, if_true] at result
  generalize grammarFuel _ = fuel at result
  cases found : header fuel (⟨gap, .keyword opener.keyword, chars⟩ :: tokens) with
  | none =>
    rw [found] at result
    cases result
  | some pair =>
    rcases pair with ⟨head, rest⟩
    rw [found] at result
    rcases withItems_eq_some result with ⟨front, items, rfl⟩
    cases opener with
    | classWord =>
      rcases classHeader_eq_some (show classHeader fuel tokens = some (head, rest) from found) with
        ⟨shape, gap', later, rfl, rfl⟩
      exact ⟨.classDefinition shape, front, items, gap', later, rfl, rfl⟩
    | defWord =>
      rcases functionHeader_eq_some
        (show functionHeader fuel tokens = some (head, rest) from found) with
        ⟨function, gap', later, rfl, rfl⟩
      exact ⟨.functionDefinition function, front, items, gap', later, rfl, rfl⟩

/-- A line that starts with an opening, if it can be read, is the header of a definition of the
name in the opening. -/
theorem Opening.defines {opening : Opening} {context : LineContext} {fuel : Nat} {rest : Text}
    {tokens : List Token} {ending : LineEnd} {after : Text} {read : ReadLine}
    (scanned : logicalLine context fuel [] (opening.text ++ rest) = some (tokens, ending, after))
    (readable : readLine false tokens = some read) :
    ∃ role front items, read = .header (.definition role) front items ∧
      role.name = opening.name := by
  rcases opening.tokens_of_logicalLine scanned with ⟨second, later, rfl, named⟩
  rcases readLine_of_opener readable with ⟨role, front, items, gap, others, rfl, same⟩
  cases same
  exact ⟨role, front, items, rfl, named rfl⟩

/-! ## Lines of decorators -/

/-- A line that holds a decorator and nothing else, and its tokens. -/
structure DecoratorLine where
  chars : Text
  tokens : List Token
  value : Expression
  head : chars.head? = some '@'
  unbroken : chars.all (!Text.isBoundary ·) = true
  scanned : ∀ context fuel rest,
    logicalLine context (fuel + chars.length + 1) [] (chars ++ '\n' :: rest) =
      some (tokens, ⟨[], .read context.usual ['\n']⟩, rest)
  readable : readLine false tokens = some (.header (.decorator value) tokens [])

namespace DecoratorLine

/-- The decorator of a method of the class. -/
def classmethod : DecoratorLine where
  chars := "@classmethod"
  tokens := [⟨[], .symbol .at, ['@']⟩, ⟨[], .name, "classmethod"⟩]
  value := .name "classmethod"
  head := rfl
  unbroken := by decide
  scanned _ _ _ := rfl
  readable := rfl

/-- The decorator of a class with a derived constructor. -/
def dataclass : DecoratorLine where
  chars := "@dataclasses.dataclass"
  tokens := [⟨[], .symbol .at, ['@']⟩, ⟨[], .name, "dataclasses"⟩, ⟨[], .symbol .dot, ['.']⟩,
    ⟨[], .name, "dataclass"⟩]
  value := .attribute (.name "dataclasses") "dataclass"
  head := rfl
  unbroken := by decide
  scanned _ _ _ := rfl
  readable := rfl

end DecoratorLine

end Source
end OpenRecord
