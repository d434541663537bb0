import OpenRecord.Proofs.Source.LiteralValues
import OpenRecord.Proofs.Source.OpeningWords
import OpenRecord.Proofs.Source.Scanning

namespace OpenRecord
namespace Source

/-!
# Tokens that are scanned again

A token was scanned in front of some text.  Here its text stands again in front of another one.  A
literal is then scanned as itself, whatever follows, except that an empty one must not be followed
by its mark.  Every other token is scanned as something that is no literal, if it is followed by
nothing that would have continued it.

It is not said that other tokens are scanned as themselves.  What a symbol or a number comes to
depends on more of what stands behind it, and on the brackets that are open.
-/

/-! ## Literals behind letters -/

theorem isWordChar_of_isMark {mark : Char} (marks : isMark mark = true) :
    isWordChar mark = false := by
  rw [isMark, Bool.or_eq_true, beq_iff_eq, beq_iff_eq] at marks
  rcases marks with rfl | rfl <;> rfl

/-- The letters of a flavour, which no literal starts with otherwise. -/
structure FlavourLetters (letters : Text) (flavour : LiteralFlavour) : Prop where
  chars : ∀ x ∈ letters, isWordChar x = true
  undigited : ∀ x ∈ letters.head?, Text.isAsciiDigit x = false
  flavour_eq : LiteralFlavour.ofLetters? letters = some flavour

theorem FlavourLetters.lexeme_eq {letters rest : Text} {flavour : LiteralFlavour} {mark : Char}
    (known : FlavourLetters letters flavour) (marks : isMark mark = true) (nest : List Nest)
    (gap : List Piece) :
    lexeme nest gap (letters ++ mark :: rest) =
      literalLexeme nest gap letters flavour (mark :: rest) := by
  have stop := isWordChar_of_isMark marks
  cases letters with
  | nil =>
    have plain : Text.isAsciiDigit mark = false ∧ (mark == '.') = false := by
      rw [isMark, Bool.or_eq_true, beq_iff_eq, beq_iff_eq] at marks
      rcases marks with rfl | rfl <;> exact ⟨rfl, rfl⟩
    cases known.flavour_eq
    rw [List.nil_append, lexeme, if_neg (by simp [plain]), if_pos marks]
  | cons first later =>
    have start := known.chars first (List.mem_cons_self ..)
    have letter := known.undigited first rfl
    rw [List.cons_append, lexeme_word start letter, ← List.cons_append, wordLexeme,
      takeWhile_word known.chars stop, dropWhile_word known.chars stop]
    simp [marks, known.flavour_eq]

theorem isSpace_of_ofLetters? {letters : Text} {flavour : LiteralFlavour}
    (known : LiteralFlavour.ofLetters? letters = some flavour) :
    ∀ c ∈ letters, Text.isSpace c = false := by
  intro c member
  have lowered : c.toLower ∈ letters.map Char.toLower := List.mem_map_of_mem member
  have within : ∀ {word : Text}, word ⊆ ['u', 'b', 'r', 'f'] → letters.map Char.toLower = word →
      c.toLower ∈ ['u', 'b', 'r', 'f'] := fun inside same => inside (same ▸ lowered)
  have listed : c.toLower ∈ ['u', 'b', 'r', 'f'] := by
    unfold LiteralFlavour.ofLetters? at known
    split at known
    case h_10 => cases known
    all_goals
      refine within ?_ (by assumption)
      decide
  cases space : Text.isSpace c with
  | false => rfl
  | true =>
    have small : c.toLower = c := by
      simp only [Text.isSpace, Bool.or_eq_true, Bool.and_eq_true, decide_eq_true_eq, beq_iff_eq]
        at space
      unfold Char.toLower
      rw [dif_neg]
      rintro ⟨low, high⟩
      have lower : 65 ≤ c.toNat := low
      have upper : c.toNat ≤ 90 := high
      omega
    rw [small] at listed
    simp only [List.mem_cons, List.not_mem_nil, or_false] at listed
    rcases listed with rfl | rfl | rfl | rfl <;> cases space

/-- A character that starts a token and is no white space. -/
def Solid (c : Char) : Prop :=
  Text.isSpace c = false ∧ StartsToken c

theorem solid_of_isMark {mark : Char} (marks : isMark mark = true) : Solid mark := by
  rw [isMark, Bool.or_eq_true, beq_iff_eq, beq_iff_eq] at marks
  rcases marks with rfl | rfl <;> exact ⟨rfl, rfl, by decide, by decide, rfl⟩

theorem FlavourLetters.solid {letters : Text} {flavour : LiteralFlavour}
    (known : FlavourLetters letters flavour) : ∀ c ∈ letters, Solid c :=
  fun c member => ⟨isSpace_of_ofLetters? known.flavour_eq c member,
    startsToken_of_isWordChar (known.chars c member)⟩

theorem solid_of_isAsciiDigit {c : Char} (digit : Text.isAsciiDigit c = true) : Solid c := by
  have word : isWordChar c = true := by simp [isWordChar, digit]
  refine ⟨?_, startsToken_of_isWordChar word⟩
  cases space : Text.isSpace c with
  | false => rfl
  | true =>
    simp only [Text.isAsciiDigit, Bool.and_eq_true, decide_eq_true_eq] at digit
    simp only [Text.isSpace, Bool.or_eq_true, Bool.and_eq_true, decide_eq_true_eq, beq_iff_eq]
      at space
    have low : 48 ≤ c.toNat := digit.1
    have high : c.toNat ≤ 57 := digit.2
    omega

theorem solid_symbols : ∀ entry ∈ symbols, entry.2 ≠ [] ∧ ∀ c ∈ entry.2, Solid c := by
  have each : ∀ entry ∈ symbols, entry.2 ≠ [] ∧
      entry.2.all (fun c => !Text.isSpace c && !Text.isIndent c && c != '\x5c' && c != '#' &&
        !Text.isBreak c) = true := by decide
  intro entry listed
  refine ⟨(each entry listed).1, fun c member => ?_⟩
  have solid := List.all_eq_true.1 (each entry listed).2 c member
  simp only [Bool.and_eq_true, Bool.not_eq_true', bne_iff_ne] at solid
  rcases solid with ⟨⟨⟨⟨space, blank⟩, joins⟩, comment⟩, unbroken⟩
  exact ⟨space, blank, joins, comment, unbroken⟩

theorem symbolLexeme_kind {nest : List Nest} {gap : List Piece} {c : Char} {text : Text}
    {found : Lexeme} (scanned : symbolLexeme nest gap (c :: text) = some found) :
    (∃ which, found.token.kind = .symbol which) ∧ found.token.text ≠ [] ∧ Solid c := by
  have close : ∀ {which chars rest}, chars ≠ [] → Solid c →
      symbolLexeme.close nest ⟨gap, .symbol which, chars⟩ rest = some found →
        (∃ which, found.token.kind = .symbol which) ∧ found.token.text ≠ [] ∧ Solid c := by
    intro which chars rest written solid closed
    unfold symbolLexeme.close at closed
    split at closed
    · split at closed <;> cases closed
      exact ⟨⟨_, rfl⟩, written, solid⟩
    · cases closed
  have alone : ∀ {c : Char}, c ∈ [':', '}', '!'] → Solid c := by
    intro c listed
    simp only [List.mem_cons, List.not_mem_nil, or_false] at listed
    rcases listed with rfl | rfl | rfl <;>
      exact ⟨by decide, by decide, by decide, by decide, by decide⟩
  unfold symbolLexeme at scanned
  split at scanned
  case h_1 same =>
    cases same
    cases scanned
    exact ⟨⟨_, rfl⟩, by simp, alone (by simp)⟩
  case h_2 same =>
    cases same
    cases scanned
    exact ⟨⟨_, rfl⟩, by simp, alone (by simp)⟩
  case h_3 same =>
    cases same
    split at scanned <;> cases scanned <;> exact ⟨⟨_, rfl⟩, by simp, alone (by simp)⟩
  · rcases Option.bind_eq_some_iff.1 scanned with ⟨⟨which, chars, rest⟩, listed, found⟩
    rcases symbol_spells listed with ⟨spelled, listed⟩
    have known := solid_symbols _ listed
    have written : chars ≠ [] := known.1
    have solid : Solid c := by
      rcases List.exists_cons_of_ne_nil written with ⟨first, later, rfl⟩
      cases spelled
      exact known.2 c (List.mem_cons_self ..)
    dsimp only at found
    split at found
    all_goals first
      | exact close written solid found
      | (cases found; exact ⟨⟨_, rfl⟩, written, solid⟩)

/-- A run with characters in front of it goes on as it did. -/
theorem Scan.push_eq_some {scan : Scan} {front run after : Text}
    (pushed : scan.push front = some (run, after)) :
    ∃ inner, scan = some (inner, after) ∧ run = front ++ inner := by
  cases scan with
  | none => cases pushed
  | some pair =>
    cases pushed
    exact ⟨_, rfl, rfl⟩

theorem digitRun_ne_nil {isDigit : Char → Bool} {text run rest : Text}
    (scanned : digitRun isDigit false text = some (run, rest)) : run ≠ [] := by
  cases text with
  | nil => cases scanned
  | cons c text =>
    unfold digitRun at scanned
    split at scanned
    · rcases Scan.push_eq_some scanned with ⟨inner, -, rfl⟩
      simp
    · split at scanned <;> cases scanned

theorem number_ne_nil {text run rest : Text} (scanned : number text = some (run, rest)) :
    run ≠ [] := by
  have pushed : ∀ {scan : Scan} {front : Text}, front ≠ [] →
      scan.push front = some (run, rest) → run ≠ [] := by
    intro scan front solid same
    rcases Scan.push_eq_some same with ⟨inner, -, rfl⟩
    simp [solid]
  have based : ∀ {isDigit x text}, number.based isDigit x text = some (run, rest) → run ≠ [] := by
    intro isDigit x text same
    unfold number.based at same
    split at same <;> exact pushed (by simp) same
  have decimal : ∀ {text}, number.decimalNumber text = some (run, rest) → run ≠ [] := by
    intro text same
    unfold number.decimalNumber at same
    rcases Option.bind_eq_some_iff.1 same with ⟨⟨digits, behind⟩, whole, same⟩
    rcases Option.bind_eq_some_iff.1 same with ⟨⟨tail, after⟩, -, same⟩
    dsimp only at same
    split at same <;> cases same
    simp [digitRun_ne_nil whole]
  unfold number at scanned
  have found := (Option.filter_eq_some_iff.1 scanned).1
  split at found
  · exact pushed (by simp) found
  · split at found
    · exact based found
    · split at found
      · exact based found
      · split at found
        · exact based found
        · exact decimal found
  · exact decimal found

/-- How a text that begins with a token is scanned: as a number, as a literal or a template behind
the letters of its flavour, as a word that nothing continues, or as a symbol. -/
inductive LexemeCase (nest : List Nest) (gap : List Piece) (found : Lexeme) : Text → Prop
  | number {c : Char} {rest : Text} : isMark c = false →
    (Text.isAsciiDigit c = true ∨ isWordChar c = false) → found.token.kind = .number →
      found.token.text ≠ [] → Solid c → LexemeCase nest gap found (c :: rest)
  | quoted {letters rest : Text} {flavour : LiteralFlavour} {mark : Char} :
    FlavourLetters letters flavour → isMark mark = true →
      literalLexeme nest gap letters flavour (mark :: rest) = some found →
      LexemeCase nest gap found (letters ++ mark :: rest)
  | word {word rest : Text} : word ≠ [] → (∀ x ∈ word, isWordChar x = true) →
    Text.isIdentifier word = true ∨ (Keyword.ofText? word).isSome →
      (∀ c ∈ rest.head?, isWordChar c = false ∧
        (isMark c = true → LiteralFlavour.ofLetters? word = none)) →
      found.token.kind = .name ∨ (∃ which, found.token.kind = .keyword which) →
      found.token.text = word → found.rest = rest → LexemeCase nest gap found (word ++ rest)
  | symbol {c : Char} {rest : Text} : isMark c = false → isWordChar c = false →
    (∃ which, found.token.kind = .symbol which) → found.token.text ≠ [] → Solid c →
      LexemeCase nest gap found (c :: rest)

/-- A word is scanned as the letters of a literal, or as a name or a reserved word that nothing
continues. -/
theorem lexemeCase_of_wordLexeme {nest : List Nest} {gap : List Piece} {c : Char} {rest : Text}
    {found : Lexeme} (undigited : Text.isAsciiDigit c = false) (start : isWordChar c = true)
    (scanned : wordLexeme nest gap (c :: rest) = some found) :
    LexemeCase nest gap found (c :: rest) := by
  unfold wordLexeme at scanned
  dsimp only at scanned
  have parts : (c :: rest).takeWhile isWordChar ++ (c :: rest).dropWhile isWordChar = c :: rest :=
    List.takeWhile_append_dropWhile
  have chars : ∀ x ∈ (c :: rest).takeWhile isWordChar, isWordChar x = true :=
    fun x member => List.mem_takeWhile_imp member
  have first : ((c :: rest).takeWhile isWordChar).head? = some c := by
    rw [List.takeWhile_cons_of_pos start]
    rfl
  have stop := List.head?_dropWhile_not isWordChar (c :: rest)
  generalize (c :: rest).takeWhile isWordChar = word at scanned parts chars first
  generalize (c :: rest).dropWhile isWordChar = behind at scanned parts stop
  have undigited : ∀ x ∈ word.head?, Text.isAsciiDigit x = false := by
    rw [first]
    rintro _ ⟨⟩
    exact undigited
  have nonempty : word ≠ [] := by
    rintro rfl
    cases first
  rw [← parts]
  split at scanned
  case h_1 flavour flavoured =>
    split at flavoured
    case isTrue marked =>
      cases behind with
      | nil => cases marked
      | cons mark later => exact .quoted ⟨chars, undigited, flavoured⟩ marked scanned
    case isFalse => cases flavoured
  case h_2 plain =>
    have follows : ∀ x ∈ behind.head?, isWordChar x = false ∧
        (isMark x = true → LiteralFlavour.ofLetters? word = none) := by
      intro x member
      rw [Option.mem_def] at member
      rw [member] at stop plain
      refine ⟨by simpa using stop, fun marks => ?_⟩
      simpa [marks] using plain
    split at scanned
    case h_1 keyword reserved =>
      cases scanned
      exact .word nonempty chars (.inr (by rw [reserved]; rfl)) follows (.inr ⟨_, rfl⟩) rfl rfl
    case h_2 =>
      split at scanned
      case isTrue identifier =>
        cases scanned
        exact .word nonempty chars (.inl identifier) follows (.inl rfl) rfl rfl
      case isFalse => cases scanned

/-- Every token is scanned in one of these ways. -/
theorem lexemeCase_of_lexeme {nest : List Nest} {gap : List Piece} {text : Text} {found : Lexeme}
    (scanned : lexeme nest gap text = some found) : LexemeCase nest gap found text := by
  unfold lexeme at scanned
  split at scanned
  · cases scanned
  case h_2 c rest =>
    split at scanned
    case isTrue digit =>
      split at scanned
      · cases scanned
      case h_2 digits after run =>
        cases scanned
        have unmarked : isMark c = false := by
          cases marks : isMark c with
          | false => rfl
          | true =>
            rw [isMark, Bool.or_eq_true, beq_iff_eq, beq_iff_eq] at marks
            rcases marks with rfl | rfl <;> cases digit
        rw [Bool.or_eq_true, Bool.and_eq_true, beq_iff_eq] at digit
        rcases digit with digit | ⟨rfl, -⟩
        · exact .number unmarked (.inl digit) rfl (number_ne_nil run) (solid_of_isAsciiDigit digit)
        · exact .number unmarked (.inr rfl) rfl (number_ne_nil run)
            ⟨by decide, by decide, by decide, by decide, by decide⟩
    case isFalse undigited =>
      rw [Bool.or_eq_true, not_or, Bool.not_eq_true] at undigited
      split at scanned
      case isTrue marks =>
        have known : FlavourLetters [] ⟨false, false⟩ := ⟨List.forall_mem_nil _, by simp, rfl⟩
        have quoted := LexemeCase.quoted known marks scanned
        exact quoted
      case isFalse unmarked =>
        split at scanned
        case isTrue start => exact lexemeCase_of_wordLexeme undigited.1 start scanned
        case isFalse outside =>
          have known := symbolLexeme_kind scanned
          exact .symbol (by simpa using unmarked) (by simpa using outside) known.1 known.2.1
            known.2.2

/-! ## Where literals end -/

/-- A literal in single marks ends where it does whatever stands behind it. -/
theorem singleQuoted_append {mark : Char} (marks : isMark mark = true) {text run after : Text}
    (scanned : singleQuoted mark text = some (run, after)) (rest : Text) :
    singleQuoted mark (run ++ rest) = some (run, rest) := by
  fun_induction singleQuoted mark text generalizing run with
  | case1 => cases scanned
  | case2 later ih =>
    rcases Scan.push_eq_some scanned with ⟨inner, own, rfl⟩
    rw [List.append_assoc]
    change (singleQuoted mark (inner ++ rest)).push ['\x5c', '\r', '\n'] = _
    rw [ih own]
    rfl
  | case3 c later whole ih =>
    rcases Scan.push_eq_some scanned with ⟨inner, own, rfl⟩
    rcases singleQuoted_closes mark later inner after own with ⟨parts, front, ended⟩
    -- the run goes on, so that the second character of a line break would have been seen
    have paired : c = '\r' → (inner ++ rest).head? ≠ some '\n' := by
      rintro rfl feed
      rw [ended, List.append_assoc] at feed
      rw [ended] at parts
      cases front with
      | nil =>
        cases feed
        exact whole after rfl parts.symm
      | cons first others =>
        cases feed
        exact whole _ rfl parts.symm
    rw [List.append_assoc]
    change singleQuoted mark ('\x5c' :: c :: (inner ++ rest)) = _
    rw [singleQuoted_escape paired, ih own]
    rfl
  | case4 later =>
    cases scanned
    exact singleQuoted_mark marks rest
  | case5 => cases scanned
  | case6 c later unpaired unescaped other solid ih =>
    rcases Scan.push_eq_some scanned with ⟨inner, own, rfl⟩
    have plain : c ≠ '\x5c' := by
      rintro rfl
      cases later with
      | nil => cases own
      | cons second others => exact unescaped second others rfl rfl
    change singleQuoted mark (c :: (inner ++ rest)) = _
    rw [singleQuoted_cons other plain (by simpa using solid), ih own]
    rfl

/-- A character that protects nothing is part of a literal in triple marks, unless it is the first
of three marks. -/
theorem tripleQuoted_cons {mark c : Char} {rest : Text} (plain : c ≠ '\x5c') :
    tripleQuoted mark (c :: rest) =
      if c = mark && [mark, mark].isPrefixOf rest then some ([c, mark, mark], rest.drop 2)
      else (tripleQuoted mark rest).push [c] := by
  rw [tripleQuoted]
  rintro _ _ rfl
  exact absurd rfl plain

/-- A literal in triple marks ends where it does as well; it has three marks at its end. -/
theorem tripleQuoted_append {mark : Char} (marks : isMark mark = true) {text run after : Text}
    (scanned : tripleQuoted mark text = some (run, after)) (rest : Text) :
    3 ≤ run.length ∧ tripleQuoted mark (run ++ rest) = some (run, rest) := by
  fun_induction tripleQuoted mark text generalizing run with
  | case1 => cases scanned
  | case2 c later ih =>
    rcases Scan.push_eq_some scanned with ⟨inner, own, rfl⟩
    rcases ih own with ⟨long, again⟩
    refine ⟨by simp; omega, ?_⟩
    change (tripleQuoted mark (inner ++ rest)).push ['\x5c', c] = _
    rw [again]
    rfl
  | case3 c later _ closes =>
    cases scanned
    rw [Bool.and_eq_true, decide_eq_true_eq] at closes
    have plain : c ≠ '\x5c' := by
      rintro rfl
      rw [← closes.1] at marks
      cases marks
    refine ⟨Nat.le_refl 3, ?_⟩
    change tripleQuoted mark (c :: mark :: mark :: rest) = _
    rw [tripleQuoted_cons plain, closes.1]
    simp
  | case4 c later unescaped open_ ih =>
    rcases Scan.push_eq_some scanned with ⟨inner, own, rfl⟩
    rcases ih own with ⟨long, again⟩
    have plain : c ≠ '\x5c' := by
      rintro rfl
      cases later with
      | nil => cases own
      | cons second others => exact unescaped second others rfl rfl
    have spelled := (tripleQuoted_closes mark later inner after own).1
    -- whether two marks come next is seen within the run
    have same : [mark, mark].isPrefixOf (inner ++ rest) = [mark, mark].isPrefixOf later := by
      rw [← spelled]
      rcases inner with _ | ⟨first, _ | ⟨second, others⟩⟩
      · simp at long
      · simp at long
      · simp [List.isPrefixOf]
    refine ⟨by simp; omega, ?_⟩
    change tripleQuoted mark (c :: (inner ++ rest)) = _
    rw [tripleQuoted_cons plain, same, if_neg open_, again]
    rfl

/-! ## Tokens whose text stands again -/

/-- Whether a character may stand directly behind a token: it does not go on with a word or make a
literal of it, and it is not the mark behind an empty literal. -/
def Token.EndsBefore (token : Token) (c : Char) : Prop :=
  match token.kind with
  | .literal => token.text.dropWhile isWordChar ≠ [c, c]
  | .name => isWordChar c = false ∧
      (isMark c = true → LiteralFlavour.ofLetters? token.text = none)
  | .keyword _ => isWordChar c = false ∧
      (isMark c = true → LiteralFlavour.ofLetters? token.text = none)
  | _ => True

/-- A literal that is scanned as itself wherever it stands again. -/
structure Token.Stable (token : Token) : Prop where
  kind : token.kind = .literal
  start : ∀ c ∈ token.text.head?, Solid c
  closed : ∃ front mark, token.text = front ++ [mark] ∧ isMark mark = true
  endsBefore : ∀ c, isMark c = false → token.EndsBefore c
  again : ∀ nest gap rest, (∀ c ∈ rest.head?, token.EndsBefore c) →
    lexeme nest gap (token.text ++ rest) = some ⟨⟨gap, .literal, token.text⟩, nest, rest⟩

/-- A token whose text, or the front of it, is not scanned as a literal wherever it stands again. -/
structure Token.Strange (token : Token) : Prop where
  kind : token.kind ≠ .literal
  never : ∃ front back, token.text = front ++ back ∧ front ≠ [] ∧
    (∀ c ∈ front, Solid c) ∧
    ∀ nest gap rest found, (back = [] → ∀ c ∈ rest.head?, token.EndsBefore c) →
      lexeme nest gap (front ++ rest) = some found → found.token.kind ≠ .literal

/-- Only an empty literal can be continued to three marks. -/
theorem isPrefixOf_marks_run {mark : Char} {run front body after rest : Text}
    (ended : run = front ++ [mark]) (parts : run ++ after = body)
    (double : [mark, mark].isPrefixOf body = false)
    (apart : ∀ c ∈ rest.head?, mark :: run ≠ [c, c]) :
    [mark, mark].isPrefixOf (run ++ rest) = false := by
  cases front with
  | nil =>
    subst ended
    cases rest with
    | nil => simp [List.isPrefixOf]
    | cons c later =>
      have other : mark ≠ c := by
        rintro rfl
        exact apart mark rfl rfl
      simp [List.isPrefixOf, other]
  | cons first others =>
    rw [← double, ← parts, ended]
    cases others <;> simp [List.isPrefixOf]

/-- A literal is its letters, its mark and a run that ends with the mark, and so it is wherever it
stands again. -/
theorem literalLexeme_append {nest : List Nest} {gap : List Piece} {letters body : Text}
    {flavour : LiteralFlavour} {mark : Char} {found : Lexeme} (marks : isMark mark = true)
    (plain : flavour.template = false)
    (scanned : literalLexeme nest gap letters flavour (mark :: body) = some found) :
    ∃ run, found.token = ⟨gap, .literal, letters ++ mark :: run⟩ ∧
      (∃ front, run = front ++ [mark]) ∧ (∀ c ∈ found.rest.head?, mark :: run ≠ [c, c]) ∧
      ∀ nest gap rest, (∀ c ∈ rest.head?, mark :: run ≠ [c, c]) →
        literalLexeme nest gap letters flavour (mark :: (run ++ rest)) =
          some ⟨⟨gap, .literal, letters ++ mark :: run⟩, nest, rest⟩ := by
  unfold literalLexeme at scanned
  dsimp only at scanned
  rw [if_neg (by simp [plain])] at scanned
  split at scanned
  · cases scanned
  case h_2 run after closed =>
    cases scanned
    cases triple : [mark, mark].isPrefixOf body with
    | true =>
      rw [triple, if_pos rfl, if_pos rfl] at closed
      rcases (tripleQuoted_closes mark _ run after closed).2 with ⟨front, ended⟩
      have long := fun rest => tripleQuoted_append marks closed rest
      refine ⟨mark :: mark :: run, by simp, ⟨mark :: mark :: front, by simp [ended]⟩,
        by simp, fun nest gap rest _ => ?_⟩
      unfold literalLexeme
      simp only [List.cons_append, List.isPrefixOf, BEq.rfl, Bool.and_self, plain, if_true,
        Bool.false_eq_true, if_false, List.drop_succ_cons, List.drop_zero, (long rest).2]
      simp
    | false =>
      rw [triple, if_neg Bool.false_ne_true, if_neg Bool.false_ne_true] at closed
      rcases singleQuoted_closes mark _ run after closed with ⟨parts, front, ended⟩
      have again := fun rest => singleQuoted_append marks closed rest
      refine ⟨run, by simp, ⟨front, ended⟩, ?_, fun nest gap rest apart => ?_⟩
      · intro c member same
        rw [Option.mem_def, List.head?_eq_some_iff] at member
        rcases member with ⟨later, behind⟩
        change after = c :: later at behind
        cases same
        rw [← parts, behind] at triple
        simp [List.isPrefixOf] at triple
      · unfold literalLexeme
        simp only [isPrefixOf_marks_run ended parts triple apart, plain, Bool.false_eq_true, if_false, again rest]
        simp

/-- A token as it was scanned: a literal that stays one, or something that never becomes one. -/
def Token.Rescans (token : Token) : Prop :=
  token.Stable ∨ token.Strange

theorem Token.Rescans.written {token : Token} (rescans : token.Rescans) : token.text ≠ [] := by
  cases rescans with
  | inl stable =>
    rcases stable.closed with ⟨front, mark, text, -⟩
    simp [text]
  | inr strange =>
    rcases strange.never with ⟨front, back, text, nonempty, -, -⟩
    simp [text, nonempty]

theorem Token.Rescans.solid {token : Token} (rescans : token.Rescans) :
    ∀ c ∈ token.text.head?, Solid c := by
  cases rescans with
  | inl stable => exact stable.start
  | inr strange =>
    rcases strange.never with ⟨front, back, text, nonempty, solid, -⟩
    rcases List.exists_cons_of_ne_nil nonempty with ⟨first, later, rfl⟩
    rw [text]
    rintro _ ⟨⟩
    exact solid _ (List.mem_cons_self ..)

/-- What neither goes on with a word nor is a mark may stand directly behind any token. -/
theorem Token.Rescans.endsBefore {token : Token} (rescans : token.Rescans) {c : Char}
    (outside : isWordChar c = false) (unmarked : isMark c = false) : token.EndsBefore c := by
  cases rescans with
  | inl stable => exact stable.endsBefore c unmarked
  | inr strange =>
    have other := strange.kind
    have marks : ∀ {p : Prop}, isMark c = true → p := fun marked => by
      rw [unmarked] at marked
      cases marked
    unfold EndsBefore
    split
    · contradiction
    · exact ⟨outside, marks⟩
    · exact ⟨outside, marks⟩
    · trivial

section Quoted

variable {nest : List Nest} {gap : List Piece} {letters body : Text} {flavour : LiteralFlavour}
  {mark : Char} {found : Lexeme}

theorem stable_of_quoted (known : FlavourLetters letters flavour) (marks : isMark mark = true)
    (template : flavour.template = false)
    (scanned : literalLexeme nest gap letters flavour (mark :: body) = some found) :
    found.token.Stable ∧ (∀ c ∈ found.rest.head?, found.token.EndsBefore c) := by
  have stop := isWordChar_of_isMark marks
  rcases literalLexeme_append marks template scanned with
    ⟨run, token, ⟨front, ended⟩, apart, again⟩
  rcases found with ⟨found, inner, rest⟩
  dsimp only at token apart
  subst token
  have ends : ∀ c, Token.EndsBefore ⟨gap, .literal, letters ++ mark :: run⟩ c ↔
      mark :: run ≠ [c, c] := fun c => by
    rw [Token.EndsBefore, dropWhile_word known.chars stop]
  refine ⟨⟨rfl, ?_, ?_, ?_, ?_⟩, fun c member => (ends c).2 (apart c member)⟩
  · intro c member
    cases letters with
    | nil =>
      cases member
      exact solid_of_isMark marks
    | cons first later =>
      cases member
      exact known.solid _ (List.mem_cons_self ..)
  · exact ⟨letters ++ mark :: front, mark, by simp [ended], marks⟩
  · intro c unmarked
    rw [ends]
    rintro ⟨⟩
    rw [marks] at unmarked
    cases unmarked
  · intro nest gap rest follows
    rw [List.append_assoc, List.cons_append, known.lexeme_eq marks]
    exact again nest gap rest fun c member => (ends c).1 (follows c member)

/-- The opening of a literal with replacement fields never becomes a literal. -/
theorem strange_of_quoted (known : FlavourLetters letters flavour) (marks : isMark mark = true)
    (template : flavour.template = true)
    (scanned : literalLexeme nest gap letters flavour (mark :: body) = some found) :
    found.token.Strange ∧ found.token.kind = .templateOpen := by
  have opened : ∃ rest', found.token.kind = .templateOpen ∧
      found.token.text = letters ++ mark :: rest' := by
    unfold literalLexeme at scanned
    dsimp only at scanned
    rw [if_pos template] at scanned
    cases scanned
    cases [mark, mark].isPrefixOf body <;> exact ⟨_, rfl, rfl⟩
  rcases opened with ⟨rest', kind, text⟩
  refine ⟨⟨by simp [kind], letters ++ [mark], rest', by simp [text], by simp, ?_, ?_⟩, kind⟩
  · rw [List.forall_mem_append, List.forall_mem_singleton]
    exact ⟨known.solid, solid_of_isMark marks⟩
  · intro nest gap rest other _ again
    rw [List.append_assoc, List.singleton_append, known.lexeme_eq marks] at again
    unfold literalLexeme at again
    dsimp only at again
    rw [if_pos template] at again
    cases again
    nofun

theorem rescans_of_quoted (known : FlavourLetters letters flavour) (marks : isMark mark = true)
    (scanned : literalLexeme nest gap letters flavour (mark :: body) = some found) :
    found.token.Rescans ∧ (∀ c ∈ found.rest.head?, found.token.EndsBefore c) := by
  cases template : flavour.template with
  | false => exact (stable_of_quoted known marks template scanned).imp_left .inl
  | true =>
    rcases strange_of_quoted known marks template scanned with ⟨strange, kind⟩
    refine ⟨.inr strange, fun c _ => ?_⟩
    rw [Token.EndsBefore, kind]
    trivial

end Quoted

def spaceCodes : List Nat :=
  [9, 10, 11, 12, 13, 28, 29, 30, 31, 32, 0x85, 0xA0, 0x1680, 0x2000, 0x2001, 0x2002, 0x2003,
    0x2004, 0x2005, 0x2006, 0x2007, 0x2008, 0x2009, 0x200A, 0x2028, 0x2029, 0x202F, 0x205F, 0x3000]

theorem isSpace_of_isNameContinue {c : Char} (continues : Text.isNameContinue c = true) :
    Text.isSpace c = false := by
  cases space : Text.isSpace c with
  | false => rfl
  | true =>
    have listed : c.toNat ∈ spaceCodes := by
      simp only [Text.isSpace, Bool.or_eq_true, Bool.and_eq_true, decide_eq_true_eq, beq_iff_eq]
        at space
      simp only [spaceCodes, List.mem_cons, List.not_mem_nil, or_false]
      omega
    have none : ∀ code ∈ spaceCodes, Text.isNameContinue (Char.ofNat code) = false := by
      decide +kernel
    have outside := none c.toNat listed
    rw [Char.ofNat_toNat, continues] at outside
    cases outside

theorem isSpace_of_word {word : Text}
    (spelled : Text.isIdentifier word = true ∨ (Keyword.ofText? word).isSome) :
    ∀ c ∈ word, Text.isSpace c = false := by
  rcases spelled with identifier | reserved
  · exact fun c member =>
      isSpace_of_isNameContinue ((Text.chars_of_isIdentifier identifier).2 c member)
  · unfold Keyword.ofText? at reserved
    rw [Option.isSome_map, List.find?_isSome] at reserved
    rcases reserved with ⟨entry, listed, same⟩
    have each : ∀ entry ∈ Keyword.spellings, entry.1.all (!Text.isSpace ·) = true := by decide
    have spaceless := each entry listed
    rw [eq_of_beq same] at spaceless
    simpa using spaceless

/-- A character that starts neither a literal nor a word nor a blank starts nothing that is scanned
as a literal. -/
theorem kind_of_lexeme_ne {nest : List Nest} {gap : List Piece} {c : Char} {rest : Text}
    {found : Lexeme} (unmarked : isMark c = false)
    (plain : Text.isAsciiDigit c = true ∨ isWordChar c = false)
    (scanned : lexeme nest gap (c :: rest) = some found) : found.token.kind ≠ .literal := by
  unfold lexeme at scanned
  dsimp only at scanned
  split at scanned
  · split at scanned <;> cases scanned
    nofun
  case isFalse undigited =>
    rw [Bool.or_eq_true, not_or] at undigited
    have outside := plain.resolve_left undigited.1
    rw [unmarked, outside, if_neg Bool.false_ne_true, if_neg Bool.false_ne_true] at scanned
    rcases (symbolLexeme_kind scanned).1 with ⟨which, kind⟩
    rw [kind]
    nofun

theorem kind_of_lexeme_word {nest : List Nest} {gap : List Piece} {word rest : Text}
    {found : Lexeme} (solid : word ≠ []) (chars : ∀ x ∈ word, isWordChar x = true)
    (stops : ∀ c ∈ rest.head?, isWordChar c = false ∧
      (isMark c = true → LiteralFlavour.ofLetters? word = none))
    (scanned : lexeme nest gap (word ++ rest) = some found) : found.token.kind ≠ .literal := by
  rcases List.exists_cons_of_ne_nil solid with ⟨first, later, rfl⟩
  have start := chars first (List.mem_cons_self ..)
  have unmarked : isMark first = false := by
    cases marks : isMark first with
    | false => rfl
    | true =>
      rw [isWordChar_of_isMark marks] at start
      cases start
  cases digit : Text.isAsciiDigit first with
  | true => exact kind_of_lexeme_ne unmarked (.inl digit) scanned
  | false =>
    rw [List.cons_append, lexeme_word start digit, ← List.cons_append] at scanned
    unfold wordLexeme at scanned
    have parts : ((first :: later) ++ rest).takeWhile isWordChar = first :: later ∧
        ((first :: later) ++ rest).dropWhile isWordChar = rest := by
      cases rest with
      | nil =>
        rw [List.append_nil]
        exact ⟨List.takeWhile_eq_self_iff.2 chars, List.dropWhile_eq_nil_iff.2 chars⟩
      | cons c rest =>
        have stop := (stops c rfl).1
        exact ⟨takeWhile_word chars stop, dropWhile_word chars stop⟩
    rw [parts.1, parts.2] at scanned
    have plain : (if rest.head?.any isMark then LiteralFlavour.ofLetters? (first :: later)
        else none) = none := by
      cases rest with
      | nil => rfl
      | cons c rest =>
        cases marks : isMark c with
        | false => simp [marks]
        | true => simp [marks, (stops c rfl).2 marks]
    dsimp only at scanned
    rw [plain] at scanned
    dsimp only at scanned
    split at scanned
    · cases scanned
      nofun
    · split at scanned <;> cases scanned
      nofun

theorem rescans_of_lexeme {nest : List Nest} {gap : List Piece} {text : Text} {found : Lexeme}
    (scanned : lexeme nest gap text = some found) :
    found.token.Rescans ∧ (∀ c ∈ found.rest.head?, found.token.EndsBefore c) := by
  have spelled := (lexeme_spells scanned).spelled
  have single : ∀ {c : Char} {rest : Text}, isMark c = false →
      (Text.isAsciiDigit c = true ∨ isWordChar c = false) → text = c :: rest →
      found.token.kind = .number ∨ (∃ which, found.token.kind = .symbol which) →
      found.token.text ≠ [] → Solid c →
      found.token.Rescans ∧ (∀ c ∈ found.rest.head?, found.token.EndsBefore c) := by
    intro c rest unmarked plain whole kind written solid
    have other : found.token.kind ≠ .literal ∧ ∀ c, found.token.EndsBefore c := by
      unfold Token.EndsBefore
      rcases kind with kind | ⟨which, kind⟩ <;> rw [kind] <;> exact ⟨nofun, fun _ => trivial⟩
    rcases List.exists_cons_of_ne_nil written with ⟨first, back, text⟩
    rw [text, whole, List.cons_append, List.cons.injEq] at spelled
    rw [spelled.1] at text
    refine ⟨.inr ⟨other.1, [c], back, text, by simp, List.forall_mem_singleton.2 solid, ?_⟩,
      fun c _ => other.2 c⟩
    exact fun nest gap rest found _ again => kind_of_lexeme_ne unmarked plain again
  cases lexemeCase_of_lexeme scanned with
  | number unmarked plain kind written solid =>
    exact single unmarked plain rfl (.inl kind) written solid
  | quoted known marks quoted => exact rescans_of_quoted known marks quoted
  | symbol unmarked outside kind written solid =>
    exact single unmarked (.inr outside) rfl (.inr kind) written solid
  | @word word rest solid chars valid stops kind token behind =>
    have ends : ∀ c, found.token.EndsBefore c ↔ isWordChar c = false ∧
        (isMark c = true → LiteralFlavour.ofLetters? word = none) := by
      intro c
      unfold Token.EndsBefore
      rcases kind with kind | ⟨which, kind⟩ <;> rw [kind, token]
    have other : found.token.kind ≠ .literal := by
      rcases kind with kind | ⟨which, kind⟩ <;> rw [kind] <;> nofun
    rw [behind]
    refine ⟨.inr ⟨other, word, [], by simp [token], solid, fun c member => ?_, ?_⟩,
      fun c member => (ends c).2 (stops c member)⟩
    · exact ⟨isSpace_of_word valid c member, startsToken_of_isWordChar (chars c member)⟩
    · intro nest gap rest found follows again
      exact kind_of_lexeme_word solid chars
        (fun c member => (ends c).1 (follows rfl c member)) again

end Source
end OpenRecord
