import Mathlib.Tactic.Ring
import OpenRecord.Source.Lexer
import OpenRecord.Text.Quoted

namespace OpenRecord
namespace Source

/-!
# The values of string literals

The value of a literal is found by reading what stands between its marks from left to right.  A
backslash begins an escape sequence: a line break that is left out, a single character, a code in
octal or hexadecimal digits, or the name of a character.  Behind any other character the backslash
stands for itself.  Only literals in single marks, without letters in front of them, are given a
value here.

The names of characters are those of the Unicode database, of which nothing is known here; what a
name stands for is a parameter.  A code that is not the code of a character has no value.

Quoting a text is inverted by this: the value of the quoted text is the text.
-/

/-! ## Escape sequences -/

/-- How far an escape sequence has been read. -/
inductive EscapeState
  | outside
  /-- Behind the backslash. -/
  | opened
  /-- Behind a carriage return that is left out; a line feed behind it is left out as well. -/
  | continued
  /-- One more hexadecimal digit is due, and a number of others behind it. -/
  | hexadecimal (others code : Nat)
  /-- A number of octal digits may still come. -/
  | octal (more code : Nat)
  /-- Behind the letter that announces a name. -/
  | announced
  /-- Inside the braces around a name. -/
  | named (name : Text)

/-- Escape sequences of one character, and what they stand for. -/
def singleEscapes : List (Char × Char) :=
  [('\x5c', '\x5c'), ('\x27', '\x27'), ('\x22', '\x22'), ('a', '\x07'), ('b', '\x08'),
    ('f', '\x0c'), ('n', '\n'), ('r', '\r'), ('t', '\t'), ('v', '\x0b')]

def hexDigitValue? (c : Char) : Option Nat :=
  if '0' ≤ c && c ≤ '9' then some (c.toNat - 48)
  else if 'a' ≤ c && c ≤ 'f' then some (c.toNat - 87)
  else if 'A' ≤ c && c ≤ 'F' then some (c.toNat - 55)
  else none

def octalDigitValue? (c : Char) : Option Nat :=
  if '0' ≤ c && c ≤ '7' then some (c.toNat - 48) else none

def charOfCode? (code : Nat) : Option Char :=
  if code.isValidChar then some (Char.ofNat code) else none

namespace EscapeState

/-- Read a character outside of escape sequences. -/
def begin (c : Char) : EscapeState × Text :=
  if c = '\x5c' then (opened, []) else (outside, [c])

/-- Read the character behind a backslash. -/
def open_ (c : Char) : EscapeState × Text :=
  match singleEscapes.lookup c, octalDigitValue? c with
  | some value, _ => (outside, [value])
  | none, some digit => (octal 2 digit, [])
  | none, none =>
    if c = '\n' then (outside, [])
    else if c = '\r' then (continued, [])
    else if c = 'x' then (hexadecimal 1 0, [])
    else if c = 'u' then (hexadecimal 3 0, [])
    else if c = 'U' then (hexadecimal 7 0, [])
    else if c = 'N' then (announced, [])
    else (outside, ['\x5c', c])

/-- Read one character: what is read next, and the part of the value that is known by it. -/
def step (nameOf : Text → Option Char) : EscapeState → Char → Option (EscapeState × Text)
  | outside, c => some (begin c)
  | opened, c => some (open_ c)
  | continued, c => some (if c = '\n' then (outside, []) else begin c)
  | hexadecimal others code, c => do
    let digit ← hexDigitValue? c
    match others with
    | 0 => (charOfCode? (code * 16 + digit)).map fun found => (outside, [found])
    | others + 1 => some (hexadecimal others (code * 16 + digit), [])
  | octal more code, c =>
    match more, octalDigitValue? c with
    | more + 1, some digit => some (octal more (code * 8 + digit), [])
    | _, _ => (charOfCode? code).map fun found => ((begin c).1, found :: (begin c).2)
  | announced, c => if c = '{' then some (named [], []) else none
  | named name, c =>
    if c = '}' then (nameOf name).map fun found => (outside, [found])
    else some (named (name ++ [c]), [])

/-- What the end of the literal makes of an escape sequence. -/
def finish : EscapeState → Option Text
  | outside => some []
  | continued => some []
  | octal _ code => (charOfCode? code).map ([·])
  | _ => none

/-- The value of what stands between marks. -/
def value? (nameOf : Text → Option Char) : EscapeState → Text → Option Text
  | state, [] => state.finish
  | state, c :: rest =>
    match state.step nameOf c with
    | none => none
    | some (next, known) => (value? nameOf next rest).map (known ++ ·)

end EscapeState

def literalValue? (nameOf : Text → Option Char) (literal : Text) : Option Text :=
  match literal with
  | [] => none
  | mark :: rest =>
    if isMark mark then
      match singleQuoted mark rest with
      | some (run, []) => EscapeState.value? nameOf .outside run.dropLast
      | _ => none
    else none

/-! ## Escaped characters -/

/-- A mark or a line break stands among the characters only behind a backslash, and every backslash
has a character behind it. -/
def Guarded (mark : Char) : Text → Prop
  | [] => True
  | '\x5c' :: _ :: rest => Guarded mark rest
  | c :: rest => (c ≠ mark ∧ c ≠ '\x5c' ∧ Text.isBreak c = false) ∧ Guarded mark rest

/-- A character that needs no backslash. -/
theorem guarded_cons {mark c : Char} {rest : Text} (plain : c ≠ '\x5c') :
    Guarded mark (c :: rest) ↔ (c ≠ mark ∧ Text.isBreak c = false) ∧ Guarded mark rest := by
  rw [Guarded.eq_def]
  split
  case h_1 same => cases same
  case h_2 same =>
    cases same
    exact absurd rfl plain
  case h_3 same =>
    cases same
    simp [plain]

/-- Characters that need no backslash. -/
theorem guarded_append {mark : Char} {front : Text} (rest : Text)
    (plain : ∀ c ∈ front, c ≠ '\x5c' ∧ c ≠ mark ∧ Text.isBreak c = false) :
    Guarded mark (front ++ rest) ↔ Guarded mark rest := by
  induction front with
  | nil => rfl
  | cons first later ih =>
    rw [List.forall_mem_cons] at plain
    rw [List.cons_append, guarded_cons plain.1.1, ih plain.2]
    exact and_iff_right plain.1.2

theorem singleQuoted_mark {mark : Char} (marks : isMark mark = true) (rest : Text) :
    singleQuoted mark (mark :: rest) = some ([mark], rest) := by
  have solid : mark ≠ '\x5c' := by
    rintro rfl
    cases marks
  rw [singleQuoted]
  · rw [if_pos rfl]
  · rintro _ rfl
    exact absurd rfl solid
  · rintro _ _ rfl
    exact absurd rfl solid

/-- A character that needs no backslash is part of the literal. -/
theorem singleQuoted_cons {mark c : Char} (other : c ≠ mark) (plain : c ≠ '\x5c')
    (solid : Text.isBreak c = false) (rest : Text) :
    singleQuoted mark (c :: rest) = (singleQuoted mark rest).push [c] := by
  rw [singleQuoted]
  · rw [if_neg other, if_neg (by simp [solid])]
  · rintro _ rfl
    exact absurd rfl plain
  · rintro _ _ rfl
    exact absurd rfl plain

/-- So are a backslash and the character behind it, which must not be half of a line break. -/
theorem singleQuoted_escape {mark c : Char} {rest : Text}
    (whole : c = '\r' → rest.head? ≠ some '\n') :
    singleQuoted mark ('\x5c' :: c :: rest) = (singleQuoted mark rest).push ['\x5c', c] := by
  rw [singleQuoted]
  rintro later rfl rfl
  exact whole rfl rfl

theorem singleQuoted_of_guarded {mark : Char} (marks : isMark mark = true) {body : Text}
    (guarded : Guarded mark body) (rest : Text) :
    singleQuoted mark (body ++ mark :: rest) = some (body ++ [mark], rest) := by
  fun_induction Guarded mark body with
  | case1 => exact singleQuoted_mark marks rest
  | case2 c later ih =>
    -- a line feed is guarded only behind a backslash of its own
    have whole : (later ++ mark :: rest).head? ≠ some '\n' := by
      cases later with
      | nil =>
        rintro ⟨⟩
        cases marks
      | cons first others =>
        rintro ⟨⟩
        exact absurd guarded.1.2.2 (by decide)
    rw [List.cons_append, List.cons_append, singleQuoted_escape fun _ => whole, ih guarded]
    rfl
  | case3 c later _ ih =>
    rw [List.cons_append, singleQuoted_cons guarded.1.1 guarded.1.2.1 guarded.1.2.2, ih guarded.2]
    rfl

/-- A guarded text between marks is scanned as a literal, unless a mark follows. -/
theorem lexeme_of_guarded {mark : Char} (marks : isMark mark = true) {body rest : Text}
    (guarded : Guarded mark body) (apart : rest.head?.any isMark = false) (nest : List Nest)
    (gap : List Piece) :
    lexeme nest gap (mark :: body ++ [mark] ++ rest) =
      some ⟨⟨gap, .literal, mark :: body ++ [mark]⟩, nest, rest⟩ := by
  -- neither a digit nor a point, and the beginning of one mark and not of three
  have plain : Text.isAsciiDigit mark = false ∧ mark ≠ '.' := by
    rw [isMark, Bool.or_eq_true, beq_iff_eq, beq_iff_eq] at marks
    rcases marks with rfl | rfl <;> exact ⟨rfl, by decide⟩
  have alone : [mark, mark].isPrefixOf (body ++ mark :: rest) = false := by
    cases body with
    | nil =>
      cases rest with
      | nil => simp [List.isPrefixOf]
      | cons first later =>
        have other : mark ≠ first := by
          rintro rfl
          simp [marks] at apart
        simp [List.isPrefixOf, other]
    | cons first later =>
      have other : mark ≠ first := by
        rintro rfl
        unfold Guarded at guarded
        split at guarded
        case h_1 same => cases same
        case h_2 same =>
          cases same
          cases marks
        case h_3 same =>
          cases same
          exact guarded.1.1 rfl
      simp [List.isPrefixOf, other]
  have shape : mark :: body ++ [mark] ++ rest = mark :: (body ++ mark :: rest) := by simp
  rw [shape, lexeme, if_neg (by simp [plain]), if_pos marks, literalLexeme]
  simp only [alone, Bool.false_eq_true, if_false]
  rw [singleQuoted_of_guarded marks guarded rest]
  rfl

/-- A character between marks is written as an escape sequence of one character, as itself, or as an
escape sequence of enough hexadecimal digits. -/
theorem escape_cases {mark : Char} (marks : isMark mark = true) (c : Char) :
    (∃ letter, Text.escape mark c = ['\x5c', letter] ∧ singleEscapes.lookup letter = some c) ∨
      (Text.escape mark c = [c] ∧ c ≠ '\x5c' ∧ c ≠ mark ∧ Text.isBreak c = false) ∨
      ∃ letter others,
        Text.escape mark c = '\x5c' :: letter :: Text.hexDigits (others + 1) c.toNat ∧
        EscapeState.open_ letter = (.hexadecimal others 0, []) ∧ c.toNat < 16 ^ (others + 1) := by
  unfold Text.escape
  split
  case isTrue own =>
    rw [Bool.or_eq_true, decide_eq_true_eq, decide_eq_true_eq] at own
    refine .inl ⟨c, rfl, ?_⟩
    rcases own with rfl | rfl
    · rw [isMark, Bool.or_eq_true, beq_iff_eq, beq_iff_eq] at marks
      rcases marks with rfl | rfl <;> rfl
    · rfl
  case isFalse other =>
    rw [Bool.or_eq_true, decide_eq_true_eq, decide_eq_true_eq, not_or] at other
    split
    case isTrue feed => exact .inl ⟨'n', rfl, by rw [feed]; rfl⟩
    case isFalse feed =>
      split
      case isTrue carriage => exact .inl ⟨'r', rfl, by rw [carriage]; rfl⟩
      case isFalse carriage =>
        split
        case isTrue tab => exact .inl ⟨'t', rfl, by rw [tab]; rfl⟩
        case isFalse =>
          split
          case isTrue =>
            exact .inr (.inl ⟨rfl, other.2, other.1, by simp [Text.isBreak, feed, carriage]⟩)
          case isFalse =>
            refine .inr (.inr ?_)
            split
            case isTrue short => exact ⟨'x', 1, rfl, rfl, short⟩
            case isFalse =>
              split
              case isTrue short => exact ⟨'u', 3, rfl, rfl, short⟩
              case isFalse =>
                have valid : c.toNat.isValidChar := c.valid
                exact ⟨'U', 7, rfl, rfl, by rw [Nat.isValidChar] at valid; omega⟩

theorem hexDigits_succ (width n : Nat) :
    Text.hexDigits (width + 1) n =
      Text.hexDigit (n / 16 ^ width % 16) :: Text.hexDigits width n := by
  induction width generalizing n with
  | zero => simp [Text.hexDigits]
  | succ width ih =>
    rw [Text.hexDigits, ih, Text.hexDigits, Nat.div_div_eq_div_mul, ← Nat.pow_succ']
    rfl

/-- Every digit is read as what it was written for. -/
theorem hexDigitValue?_hexDigit {digit : Nat} (small : digit < 16) :
    hexDigitValue? (Text.hexDigit digit) = some digit := by
  have each : ∀ digit : Fin 16, hexDigitValue? (Text.hexDigit digit) = some digit.val := by decide
  exact each ⟨digit, small⟩

/-- A character is found again by its code. -/
theorem charOfCode?_toNat (c : Char) : charOfCode? c.toNat = some c := by
  have valid : c.toNat.isValidChar := c.valid
  rw [charOfCode?, if_pos valid, Char.ofNat_toNat]

section Values

variable (nameOf : Text → Option Char)

open EscapeState

/-- Digits are read to the code that they write, behind what has been read of it. -/
theorem value?_hexDigits (others code n : Nat) (rest : Text) :
    value? nameOf (.hexadecimal others code) (Text.hexDigits (others + 1) n ++ rest) =
      match charOfCode? (code * 16 ^ (others + 1) + n % 16 ^ (others + 1)) with
      | none => none
      | some found => (value? nameOf .outside rest).map (found :: ·) := by
  induction others generalizing code with
  | zero =>
    rw [hexDigits_succ, List.cons_append, value?, EscapeState.step,
      hexDigitValue?_hexDigit (Nat.mod_lt _ (by decide))]
    simp only [Text.hexDigits, Nat.pow_zero, Nat.div_one, Nat.pow_one, Option.bind_eq_bind,
      Option.bind_some, Nat.zero_add, List.nil_append]
    cases charOfCode? (code * 16 + n % 16) <;> rfl
  | succ others ih =>
    rw [hexDigits_succ, List.cons_append, value?, EscapeState.step,
      hexDigitValue?_hexDigit (Nat.mod_lt _ (by decide))]
    have whole :
        (code * 16 + n / 16 ^ (others + 1) % 16) * 16 ^ (others + 1) + n % 16 ^ (others + 1) =
          code * 16 ^ (others + 2) + n % 16 ^ (others + 2) := by
      rw [Nat.mod_pow_succ (x := n) (b := 16) (k := others + 1)]
      ring
    simp only [Option.bind_eq_bind, Option.bind_some, ih, whole]
    cases charOfCode? (code * 16 ^ (others + 2) + n % 16 ^ (others + 2)) with
    | none => rfl
    | some found => cases value? nameOf .outside rest <;> rfl

/-- The written form of a character has the character for its value. -/
theorem value?_escape {mark : Char} (marks : isMark mark = true) (c : Char) (rest : Text) :
    value? nameOf .outside (Text.escape mark c ++ rest) =
      (value? nameOf .outside rest).map (c :: ·) := by
  rcases escape_cases marks c with ⟨letter, written, known⟩ | ⟨written, plain, -⟩ |
    ⟨letter, others, written, opens, fits⟩
  · have opened : open_ letter = (.outside, [c]) := by rw [open_, known]
    rw [written]
    simp only [List.cons_append, List.nil_append, value?, step, begin, if_pos, opened]
    cases value? nameOf .outside rest <;> rfl
  · rw [written]
    simp only [List.cons_append, List.nil_append, value?, step, begin, if_neg plain]
  · rw [written]
    simp only [List.cons_append, value?, step, begin, if_pos, opens, value?_hexDigits]
    rw [Nat.mod_eq_of_lt fits, Nat.zero_mul, Nat.zero_add, charOfCode?_toNat]
    cases value? nameOf .outside rest <;> rfl

theorem value?_flatMap_escape {mark : Char} (marks : isMark mark = true) (text : Text) :
    value? nameOf .outside (text.flatMap (Text.escape mark)) = some text := by
  induction text with
  | nil => rfl
  | cons first later ih => rw [List.flatMap_cons, value?_escape nameOf marks, ih]; rfl

end Values

theorem guarded_flatMap_escape {mark : Char} (marks : isMark mark = true) (text : Text) :
    Guarded mark (text.flatMap (Text.escape mark)) := by
  have solid : ∀ digit : Fin 16, Text.hexDigit digit ≠ '\x5c' ∧
      isMark (Text.hexDigit digit) = false ∧ Text.isBreak (Text.hexDigit digit) = false := by
    decide
  have digits : ∀ width n, ∀ x ∈ Text.hexDigits width n,
      x ≠ '\x5c' ∧ x ≠ mark ∧ Text.isBreak x = false := by
    intro width n
    induction width generalizing n with
    | zero => nofun
    | succ width ih =>
      rw [Text.hexDigits, List.forall_mem_append, List.forall_mem_singleton]
      rcases solid ⟨n % 16, Nat.mod_lt n (by decide)⟩ with ⟨plain, unmarked, unbroken⟩
      refine ⟨ih _, plain, ?_, unbroken⟩
      rintro rfl
      rw [marks] at unmarked
      cases unmarked
  induction text with
  | nil => trivial
  | cons first later ih =>
    rw [List.flatMap_cons]
    rcases escape_cases marks first with ⟨letter, written, -⟩ | ⟨written, plain⟩ |
      ⟨letter, others, written, -⟩
    · rw [written]
      exact ih
    · rw [written, List.singleton_append, guarded_cons plain.1]
      exact ⟨plain.2, ih⟩
    · rw [written]
      exact (guarded_append _ (digits _ _)).2 ih

/-- The marks around a quoted text are quotation marks. -/
theorem isMark_chooseMark (text : Text) : isMark (Text.chooseMark text) = true := by
  unfold Text.chooseMark
  split <;> rfl

theorem literalValue?_quoted (nameOf : Text → Option Char) (text : Text) :
    literalValue? nameOf (Text.quoted text) = some text := by
  have marks := isMark_chooseMark text
  have guarded := guarded_flatMap_escape marks text
  unfold literalValue? Text.quoted
  dsimp only [List.cons_append]
  rw [if_pos marks, singleQuoted_of_guarded marks guarded []]
  dsimp only
  rw [List.dropLast_concat, value?_flatMap_escape nameOf marks]

end Source
end OpenRecord
