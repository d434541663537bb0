import OpenRecord.Code.Term
import OpenRecord.Proofs.Code.Reindentation

namespace OpenRecord

/-!
# At signs at the start of lines

A line of emitted code is a decorator if it starts with an at sign behind its indentation.  Whether
some line of a text starts so can be told piece by piece: a text is level if no line of it does, and
steady if at most its first line does, so that it can stand behind something else.

All lines count that emitted code is taken apart into, and not only those that a source file knows.
-/

namespace Text

/-! ## Lines -/

/-- The characters of a line stand in the text, and none of them is a boundary. -/
theorem mem_of_mem_lines {text line : Text} (member : line ∈ lines text) :
    ∀ x ∈ line, x ∈ text ∧ isBoundary x = false := by
  fun_induction lines text generalizing line with
  | case1 => cases member
  | case2 rest ih =>
    rcases List.mem_cons.1 member with rfl | later
    · nofun
    · intro x among
      exact ⟨List.mem_cons_of_mem _ (List.mem_cons_of_mem _ (ih later x among).1),
        (ih later x among).2⟩
  | case3 c rest _ boundary ih =>
    rcases List.mem_cons.1 member with rfl | later
    · nofun
    · intro x among
      exact ⟨List.mem_cons_of_mem _ (ih later x among).1, (ih later x among).2⟩
  | case4 c rest _ solid none_left ih =>
    rw [List.mem_singleton.1 member]
    intro x among
    rw [List.mem_singleton.1 among]
    exact ⟨List.mem_cons_self .., by simpa using solid⟩
  | case5 c rest _ solid first later split ih =>
    rw [split] at ih
    have behind : ∀ {line}, line ∈ first :: later → ∀ x ∈ line, x ∈ c :: rest ∧ isBoundary x = false :=
      fun inside x among =>
        ⟨List.mem_cons_of_mem _ (ih inside x among).1, (ih inside x among).2⟩
    rcases List.mem_cons.1 member with rfl | among
    · rw [List.forall_mem_cons]
      exact ⟨⟨List.mem_cons_self .., by simpa using solid⟩, behind (List.mem_cons_self ..)⟩
    · exact behind (List.mem_cons_of_mem _ among)

/-- A boundary that is not the first half of a line break ends a line. -/
theorem lines_boundary {c : Char} {rest : Text} (boundary : isBoundary c = true)
    (whole : c = '\r' → rest.head? ≠ some '\n') : lines (c :: rest) = [] :: lines rest := by
  rw [lines.eq_def]
  split
  case h_1 same => cases same
  case h_2 same =>
    cases same
    exact absurd rfl (whole rfl)
  case h_3 same =>
    cases same
    rw [if_pos boundary]

theorem lines_feed (front back : Text) :
    lines (front ++ '\n' :: back) = lines (front ++ ['\n']) ++ lines back := by
  fun_induction lines front with
  | case1 => rfl
  | case2 rest ih => simp [lines, ih]
  | case3 c rest unpaired boundary ih =>
    cases rest with
    | nil =>
      by_cases half : c = '\r'
      · subst half
        rfl
      · have feed : lines ('\n' :: back) = [] :: lines back := lines_boundary rfl nofun
        rw [List.singleton_append, List.singleton_append,
          lines_boundary boundary (absurd · half), lines_boundary boundary (absurd · half), feed]
        rfl
    | cons second later =>
      have whole : ∀ behind : Text, c = '\r' → (second :: later ++ behind).head? ≠ some '\n' := by
        intro behind half same
        cases same
        exact unpaired later half rfl
      change lines (c :: (second :: later ++ '\n' :: back)) =
        lines (c :: (second :: later ++ ['\n'])) ++ lines back
      rw [lines_boundary boundary (whole _), lines_boundary boundary (whole _), ih]
      rfl
  | case4 c rest _ solid none_left ih =>
    have unbroken : isBoundary c = false := by simpa using solid
    cases rest with
    | nil =>
      have single : ∀ x ∈ [c], isBoundary x = false := by simpa using unbroken
      rw [lines_append_feed single, lines_append_feed single]
      rfl
    | cons second later => exact absurd none_left (lines_ne_nil (List.cons_ne_nil _ _))
  | case5 c rest _ solid first later split ih =>
    have unbroken : isBoundary c = false := by simpa using solid
    rw [List.cons_append, List.cons_append, lines_cons unbroken, lines_cons unbroken, ih]
    cases ended : lines (rest ++ ['\n']) with
    | nil => exact absurd ended (lines_ne_nil (by simp))
    | cons line others => rfl

/-! ## Level and steady texts -/

/-- Whether a line starts with an at sign behind blanks. -/
def startsWithSign (line : Text) : Bool :=
  (line.dropWhile isIndent).head? == some '@'

def Level (text : Text) : Prop :=
  ∀ line ∈ lines text, startsWithSign line = false

/-- No line but possibly the first one starts with an at sign. -/
def Steady (text : Text) : Prop :=
  ∀ line ∈ (lines text).tail, startsWithSign line = false

/-- Whether a text is steady can be told by looking at its lines. -/
instance (text : Text) : Decidable (Steady text) :=
  inferInstanceAs (Decidable (∀ line ∈ (lines text).tail, startsWithSign line = false))

/-- Look for an at sign that starts a line.  `fresh` says that nothing but blanks stands in front of
the text on its first line. -/
def signless : Bool → Text → Bool
  | _, [] => true
  | fresh, c :: rest =>
    if isBoundary c then signless true rest
    else if isIndent c then signless fresh rest
    else !(fresh && c == '@') && signless false rest

theorem startsWithSign_blank {c : Char} (blank : isIndent c = true) (line : Text) :
    startsWithSign (c :: line) = startsWithSign line := by
  rw [startsWithSign, List.dropWhile_cons, if_pos blank]
  rfl

theorem startsWithSign_solid {c : Char} (solid : isIndent c = false) (line : Text) :
    startsWithSign (c :: line) = (c == '@') := by
  rw [startsWithSign, List.dropWhile_cons, if_neg (by simp [solid])]
  rfl

/-- Looking for at signs character by character and line by line gives the same. -/
theorem signless_eq (text : Text) :
    signless true text = (lines text).all (!startsWithSign ·) ∧
      signless false text = (lines text).tail.all (!startsWithSign ·) := by
  fun_induction lines text with
  | case1 => exact ⟨rfl, rfl⟩
  | case2 rest ih => exact ⟨ih.1, ih.1⟩
  | case3 c rest _ boundary ih =>
    rw [signless, signless, if_pos boundary, if_pos boundary]
    exact ⟨ih.1, ih.1⟩
  | case4 c rest _ solid none_left ih =>
    cases rest with
    | cons second later => exact absurd none_left (lines_ne_nil (List.cons_ne_nil _ _))
    | nil =>
      simp only [signless, if_neg solid]
      cases blank : isIndent c with
      | true => simp [startsWithSign_blank blank, show startsWithSign [] = false from rfl]
      | false => simp [startsWithSign_solid blank]
  | case5 c rest _ solid first later split ih =>
    rw [split] at ih
    simp only [signless, if_neg solid]
    cases blank : isIndent c with
    | true => simpa [startsWithSign_blank blank] using ih
    | false => simp [startsWithSign_solid blank, show _ = later.all _ from ih.2]

/-- A text is level if the search finds nothing from the start on. -/
theorem level_iff {text : Text} : Level text ↔ signless true text = true := by
  simp [Level, signless_eq]

/-- A text is steady if the search finds nothing behind something else. -/
theorem steady_iff {text : Text} : Steady text ↔ signless false text = true := by
  simp [Steady, signless_eq]

theorem Level.steady {text : Text} (level : Level text) : Steady text :=
  fun line member => level line (List.mem_of_mem_tail member)

theorem signless_append {fresh : Bool} {front back : Text} (first : signless fresh front = true)
    (second : Level back) : signless fresh (front ++ back) = true := by
  induction front generalizing fresh with
  | nil =>
    cases fresh with
    | true => exact level_iff.1 second
    | false => exact steady_iff.1 second.steady
  | cons c front ih =>
    rw [signless] at first
    rw [List.cons_append, signless]
    split at first
    case isTrue boundary =>
      rw [if_pos boundary]
      exact ih first
    case isFalse boundary =>
      rw [if_neg boundary]
      split at first
      case isTrue blank =>
        rw [if_pos blank]
        exact ih first
      case isFalse blank =>
        rw [if_neg blank]
        rw [Bool.and_eq_true] at first ⊢
        exact ⟨first.1, ih first.2⟩

theorem Level.append {front back : Text} (first : Level front) (second : Level back) :
    Level (front ++ back) :=
  level_iff.2 (signless_append (level_iff.1 first) second)

theorem Steady.append {front back : Text} (first : Steady front) (second : Level back) :
    Steady (front ++ back) :=
  steady_iff.2 (signless_append (steady_iff.1 first) second)

theorem level_of_not_mem {text : Text} (plain : '@' ∉ text) : Level text := by
  intro line member
  rw [startsWithSign, beq_eq_false_iff_ne]
  intro sign
  have among := (List.dropWhile_suffix isIndent).subset (List.mem_of_head? sign)
  exact plain (mem_of_mem_lines member _ among).1

/-- A steady text behind a character that is neither a blank nor a boundary nor an at sign is
level. -/
theorem Steady.level_cons {c : Char} {text : Text} (steady : Steady text)
    (solid : (isBoundary c || isIndent c || c == '@') = false) : Level (c :: text) := by
  rw [Bool.or_eq_false_iff, Bool.or_eq_false_iff] at solid
  rw [level_iff, signless, if_neg (by simp [solid]), if_neg (by simp [solid]), solid.2]
  exact steady_iff.1 steady

theorem Steady.cons_space {text : Text} (steady : Steady text) : Steady (' ' :: text) := by
  rw [steady_iff] at steady ⊢
  exact steady

theorem Level.spaces {text : Text} (level : Level text) (count : Nat) :
    Level (List.replicate count ' ' ++ text) := by
  induction count with
  | zero => exact level
  | succ count ih =>
    rw [level_iff] at ih ⊢
    exact ih

/-! ## Quoted texts -/

theorem steady_of_unbroken {text : Text} (unbroken : ∀ x ∈ text, isBoundary x = false) :
    Steady text := by
  rw [steady_iff]
  induction text with
  | nil => rfl
  | cons c rest ih =>
    rw [List.forall_mem_cons] at unbroken
    simp [signless, unbroken.1, ih unbroken.2]

theorem isBoundary_of_isPrintable {c : Char} (printable : isPrintable c = true) :
    isBoundary c = false := by
  cases boundary : isBoundary c with
  | false => rfl
  | true =>
    simp only [isBoundary, isBreak, Bool.or_eq_true, beq_iff_eq, or_assoc] at boundary
    rcases boundary with rfl | rfl | rfl | rfl | rfl | rfl | rfl | rfl | rfl | rfl <;>
      exact absurd printable (by decide +kernel)

theorem unbroken_hexDigits (width n : Nat) : ∀ x ∈ hexDigits width n, isBoundary x = false := by
  have each : ∀ digit : Fin 16, isBoundary (hexDigit digit) = false := by decide
  induction width generalizing n with
  | zero => nofun
  | succ width ih =>
    rw [hexDigits, List.forall_mem_append, List.forall_mem_singleton]
    exact ⟨ih _, each ⟨n % 16, Nat.mod_lt n (by decide)⟩⟩

theorem unbroken_escape {mark : Char} (plain : isBoundary mark = false) (c : Char) :
    ∀ x ∈ escape mark c, isBoundary x = false := by
  have coded : ∀ {letter width n}, isBoundary letter = false →
      ∀ x ∈ '\x5c' :: letter :: hexDigits width n, isBoundary x = false := by
    intro letter width n solid
    rw [List.forall_mem_cons, List.forall_mem_cons]
    exact ⟨rfl, solid, unbroken_hexDigits _ _⟩
  have lettered : ∀ {letter}, isBoundary letter = false →
      ∀ x ∈ ['\x5c', letter], isBoundary x = false := by
    intro letter solid
    rw [List.forall_mem_cons, List.forall_mem_singleton]
    exact ⟨rfl, solid⟩
  unfold escape
  split
  case isTrue own =>
    simp only [Bool.or_eq_true, decide_eq_true_eq] at own
    rcases own with rfl | rfl
    · exact lettered plain
    · exact lettered rfl
  · split
    · exact lettered rfl
    · split
      · exact lettered rfl
      · split
        · exact lettered rfl
        · split
          case isTrue printable => simpa using isBoundary_of_isPrintable printable
          · split
            · exact coded rfl
            · split
              · exact coded rfl
              · exact coded rfl

theorem unbroken_quoted (text : Text) : ∀ x ∈ quoted text, isBoundary x = false := by
  have plain : isBoundary (chooseMark text) = false := by
    unfold chooseMark
    split <;> rfl
  unfold quoted
  simp only [List.cons_append, List.forall_mem_cons, List.forall_mem_append, List.mem_flatMap]
  refine ⟨plain, ?_, by simpa using plain⟩
  rintro x ⟨c, -, among⟩
  exact unbroken_escape plain c x among

theorem steady_quoted (text : Text) : Steady (quoted text) :=
  steady_of_unbroken (unbroken_quoted text)

end Text

namespace Code

/-! ## Emitted code -/

/-- A type expression is steady as a string literal if it is so itself. -/
theorem steady_quote {type : Text} (steady : type.Steady) : (quote type).Steady := by
  unfold quote
  split
  · exact Text.steady_quoted _
  · split
    · exact steady
    · exact Text.steady_quoted _

/-- A type expression that is no string literal already is steady as one in any case. -/
theorem steady_quote_cons {c : Char} (single : c ≠ Text.singleMark) (double : c ≠ Text.doubleMark)
    (rest : Text) : (quote (c :: rest)).Steady := by
  rw [quote, if_neg (by simp [single, double])]
  exact Text.steady_quoted _

theorem forall_mem_lines_emit {P : Text → Prop} (blank : P []) {parts : List Text}
    (each : ∀ part ∈ parts, ∀ line ∈ Text.lines (part ++ ['\n']), P line) :
    ∀ line ∈ Text.lines (emit parts), P line := by
  induction parts with
  | nil =>
    intro line member
    rw [List.mem_singleton.1 (show line ∈ [[]] from member)]
    exact blank
  | cons first later ih =>
    rw [List.forall_mem_cons] at each
    cases later with
    | nil => simpa [emit, Text.join, List.intercalate] using each.1
    | cons second others =>
      rw [emit_cons_cons, Text.lines_feed, List.forall_mem_append]
      exact ⟨each.1, ih each.2⟩

/-- The lines of the parts of a class are those of each part, and empty ones between them. -/
theorem forall_mem_memberLines {P : Text → Prop} (blank : P []) {members : List Member}
    (each : ∀ member ∈ members, ∀ line ∈ member.lines, P line) :
    ∀ line ∈ memberLines members, P line := by
  fun_induction memberLines members with
  | case1 => nofun
  | case2 only => exact List.forall_mem_singleton.1 each
  | case3 first name type hidden later ih =>
    rw [List.forall_mem_cons] at each
    exact List.forall_mem_append.2 ⟨each.1, ih each.2⟩
  | case4 first later _ _ ih =>
    rw [List.forall_mem_cons] at each
    exact List.forall_mem_append.2 ⟨each.1, List.forall_mem_cons.2 ⟨blank, ih each.2⟩⟩

theorem blank_repeated {unit : Text} (blank : ∀ x ∈ unit, Text.isIndent x = true) (count : Nat) :
    ∀ x ∈ repeated unit count, Text.isIndent x = true := by
  intro x member
  rcases List.mem_flatten.1 member with ⟨level, among, inside⟩
  exact blank x (List.eq_of_mem_replicate among ▸ inside)

section Reindentation

variable {unit margin : Text} (unitBlank : ∀ x ∈ unit, Text.isIndent x = true)
  (marginBlank : ∀ x ∈ margin, Text.isIndent x = true)

include unitBlank marginBlank

/-- Reindentation changes nothing about a line but the blanks in front of it. -/
theorem dropWhile_reindentLine (line : Text) :
    (reindentLine unit margin line).dropWhile Text.isIndent = line.dropWhile Text.isIndent := by
  have behind : line.dropWhile Text.isIndent =
      (line.dropWhile (· == ' ')).dropWhile Text.isIndent := by
    have spaces : ∀ x ∈ line.takeWhile (· == ' '), Text.isIndent x = true := by
      intro x member
      have space := List.all_eq_true.1 List.all_takeWhile x member
      rw [eq_of_beq space]
      rfl
    have whole : (line.takeWhile (· == ' ') ++ line.dropWhile (· == ' ')).dropWhile Text.isIndent =
        (line.dropWhile (· == ' ')).dropWhile Text.isIndent :=
      List.dropWhile_append_of_pos spaces
    rwa [List.takeWhile_append_dropWhile] at whole
  rw [behind, reindentLine]
  split
  case h_1 empty => rw [empty]
  case h_2 first later solid =>
    dsimp only
    rw [solid, List.append_assoc, List.dropWhile_append_of_pos marginBlank,
      List.dropWhile_append_of_pos (blank_repeated unitBlank _)]

/-- The characters of a reindented line are blanks and those of the line. -/
theorem mem_of_mem_reindentLine {line : Text} :
    ∀ x ∈ reindentLine unit margin line, Text.isIndent x = true ∨ x ∈ line := by
  unfold reindentLine
  split
  case h_1 => nofun
  case h_2 first later solid =>
    dsimp only
    rw [List.forall_mem_append, List.forall_mem_append, ← solid]
    exact ⟨⟨fun x member => .inl (marginBlank x member),
      fun x member => .inl (blank_repeated unitBlank _ x member)⟩,
      fun x member => .inr ((List.dropWhile_suffix _).subset member)⟩

end Reindentation

end Code
end OpenRecord
