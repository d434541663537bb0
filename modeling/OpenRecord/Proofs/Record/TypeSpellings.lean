import OpenRecord.Proofs.Record.ClassBodies
import OpenRecord.Proofs.Text.Parts

namespace OpenRecord

/-!
# Spellings of a type

Whether a declaration is a field is decided on the text of its type, out of which a name is cut.  Here
the cutting is described by where the name stands: in front of it quotation marks and white space or
a path that ends with a dot, behind it white space and then quotation marks or a subscript.  The
description says what other spellings of a text come to.  Quotation marks around it change nothing.
White space put in can only make a field of what was none, and so can parentheses around it.

Of the names that matter nothing is used but that none of their characters means anything to the
cutting.
-/

open Source

/-! ## The name that a type starts with -/

def isMark (c : Char) : Bool :=
  c == Text.singleMark || c == Text.doubleMark

/-- White space, and what continues a line. -/
def isGap (c : Char) : Bool :=
  Text.isSpace c || c == '\\'

/-- A name none of whose characters matters where the name of a type is looked for. -/
structure IsBareName (name : Text) : Prop where
  solid : name ≠ []
  gap : ∀ c ∈ name, isGap c = false
  mark : ∀ c ∈ name, isMark c = false
  plain : ∀ c ∈ name, c ∉ ['.', '[', '(', ')']

theorem isBareName_of_all {name : Text} (solid : name ≠ [])
    (all : name.all (fun c => !isGap c && !isMark c && decide (c ∉ ['.', '[', '(', ')'])) = true) :
    IsBareName name := by
  simp only [List.all_eq_true, Bool.and_eq_true, Bool.not_eq_true', decide_eq_true_eq] at all
  exact ⟨solid, fun c member => (all c member).1.1, fun c member => (all c member).1.2,
    fun c member => (all c member).2⟩

/-- The names that keep a declaration from being a field are bare. -/
theorem isBareName_of_mem {name : Text} (wrapper : name ∈ nonFieldWrappers) : IsBareName name := by
  simp only [nonFieldWrappers, List.mem_cons, List.not_mem_nil, or_false] at wrapper
  rcases wrapper with rfl | rfl | rfl
  all_goals exact isBareName_of_all (by decide) (by decide)

/-- What stands in front of the name that a type starts with: quotation marks and then white space,
or a path that ends with a dot. -/
inductive TypeFront : Text → Prop
  | quoted {marks blanks : Text} : (∀ c ∈ marks, isMark c = true) →
      (∀ c ∈ blanks, Text.isSpace c = true) → TypeFront (marks ++ blanks)
  | dotted {path : Text} : '[' ∉ path → TypeFront (path ++ ['.'])

/-- What stands behind the name that a type starts with: white space, and then quotation marks or a
subscript. -/
inductive TypeBack : Text → Prop
  | quoted {blanks marks : Text} : (∀ c ∈ blanks, Text.isSpace c = true) →
      (∀ c ∈ marks, isMark c = true) → TypeBack (blanks ++ marks)
  | subscripted {blanks : Text} (elements : Text) : (∀ c ∈ blanks, Text.isSpace c = true) →
      TypeBack (blanks ++ '[' :: elements)

def StartsWith (name rendered : Text) : Prop :=
  ∃ front back, rendered = front ++ name ++ back ∧ TypeFront front ∧ TypeBack back

section Names

variable {name rendered : Text}

/-- What is marked off at the front leads to a name or ends with a dot. -/
theorem typeFront_of_path {marks blanks : Text} (path : Text)
    (opens : ∀ c ∈ marks, isMark c = true) (leading : ∀ c ∈ blanks, Text.isSpace c = true)
    (unsubscripted : '[' ∉ blanks ++ path) :
    ∃ front, marks ++ (blanks ++ path) = front ++ Text.afterLast '.' path ∧ TypeFront front := by
  rcases Text.afterLast_cases '.' path with whole | ⟨before, parts⟩
  · refine ⟨marks ++ blanks, ?_, .quoted opens leading⟩
    rw [← whole, List.append_assoc]
  · refine ⟨marks ++ (blanks ++ before) ++ ['.'], ?_, .dotted ?_⟩
    · conv_lhs => rw [parts]
      simp only [List.append_assoc, List.singleton_append]
    · rw [List.mem_append]
      rintro (marked | within)
      · exact absurd (opens _ marked) (by decide)
      · rw [parts] at unsubscripted
        refine unsubscripted ?_
        rw [← List.append_assoc]
        exact List.mem_append_left _ within

theorem startsWith_typeHead (rendered : Text) : StartsWith (typeHead rendered) rendered := by
  have found : typeHead rendered =
      Text.afterLast '.' (Text.trim (Text.before '[' (Text.strip isMark rendered))) := rfl
  rcases Text.exists_strip isMark rendered with ⟨opening, closing, whole, opens, closes⟩
  rw [found]
  generalize Text.strip isMark rendered = bare at whole
  have unsubscripted := Text.notMem_before '[' bare
  have parts := Text.before_cases '[' bare
  generalize Text.before '[' bare = named at unsubscripted parts
  rcases Text.exists_strip Text.isSpace named with ⟨left, right, between, leading, trailing⟩
  rw [← Text.trim] at between
  generalize Text.trim named = path at between
  subst between
  rcases typeFront_of_path path opens leading fun within =>
    unsubscripted (List.mem_append_left _ within) with ⟨front, same, isFront⟩
  rcases parts with rfl | ⟨elements, rfl⟩
  · refine ⟨front, right ++ closing, ?_, isFront, .quoted trailing closes⟩
    rw [← same, whole]
    simp only [List.append_assoc]
  · refine ⟨front, right ++ '[' :: (elements ++ closing), ?_, isFront, .subscripted _ trailing⟩
    rw [← same, whole]
    simp only [List.append_assoc, List.cons_append]

theorem isMark_of_isSpace {c : Char} (blank : Text.isSpace c = true) : isMark c = false := by
  cases marked : isMark c with
  | false => rfl
  | true =>
    simp only [isMark, Bool.or_eq_true, beq_iff_eq] at marked
    rcases marked with rfl | rfl <;> cases blank

variable (bare : IsBareName name)

include bare

/-- White space beside a bare name is without quotation marks, as the name is. -/
theorem IsBareName.isMark {blanks : Text} (blank : ∀ c ∈ blanks, Text.isSpace c = true) {c : Char}
    (member : c ∈ blanks ∨ c ∈ name) : OpenRecord.isMark c = false :=
  member.elim (fun blanks => isMark_of_isSpace (blank c blanks)) (bare.mark c)

/-- White space beside a bare name is without a certain bracket, as the name is. -/
theorem IsBareName.notMem {blanks : Text} (blank : ∀ c ∈ blanks, Text.isSpace c = true) :
    '[' ∉ name ++ blanks := by
  rw [List.mem_append]
  rintro (named | between)
  · exact bare.plain _ named (by decide)
  · exact absurd (blank _ between) (by decide)

/-- Quotation marks taken off the front leave white space or a path with a dot. -/
theorem exists_stripLeft_front {front : Text} (isFront : TypeFront front) (back : Text) :
    ∃ rest, Text.stripLeft isMark (front ++ name ++ back) = rest ++ name ++ back ∧
      '[' ∉ rest ∧ ((∀ c ∈ rest, Text.isSpace c = true) ∨ ∃ path, rest = path ++ ['.']) := by
  cases isFront with
  | @quoted marks blanks opens leading =>
    refine ⟨blanks, ?_, fun within => absurd (leading _ within) (by decide), .inl leading⟩
    rw [List.append_assoc, List.append_assoc, Text.stripLeft, List.dropWhile_append_of_pos opens,
      ← List.append_assoc]
    exact Text.stripLeft_of_front (by simp [bare.solid])
      (fun c member => bare.isMark leading (List.mem_append.1 member)) back
  | @dotted path unsubscripted =>
    refine ⟨Text.stripLeft isMark path ++ ['.'], ?_, ?_, .inr ⟨_, rfl⟩⟩
    · simp only [Text.stripLeft, List.append_assoc, List.singleton_append]
      exact dropWhile_append_of_stop path (by decide)
    · rw [List.mem_append, List.mem_singleton]
      rintro (within | ⟨⟨⟩⟩)
      exact unsubscripted ((List.dropWhile_suffix _).subset within)

/-- Quotation marks taken off the end leave white space and perhaps a subscript. -/
theorem exists_stripRight_back {back : Text} (isBack : TypeBack back) (front : Text) :
    ∃ blanks later, Text.stripRight isMark (front ++ name ++ back) =
        front ++ (name ++ blanks) ++ later ∧
      (∀ c ∈ blanks, Text.isSpace c = true) ∧ (later = [] ∨ ∃ elements, later = '[' :: elements) := by
  cases isBack with
  | @quoted blanks marks trailing closes =>
    refine ⟨blanks, [], ?_, trailing, .inl rfl⟩
    have stays : ∀ c ∈ name ++ blanks, isMark c = false := fun c member =>
      bare.isMark trailing (List.mem_append.1 member).symm
    have last := Text.stripRight_of_back (by simp [bare.solid]) stays closes front
    rw [List.append_nil, ← last]
    simp only [List.append_assoc]
  | @subscripted blanks elements trailing =>
    refine ⟨blanks, '[' :: Text.stripRight isMark elements, ?_, trailing, .inr ⟨_, rfl⟩⟩
    have stops : OpenRecord.isMark '[' = false := by decide
    rw [← List.append_assoc, Text.stripRight_of_stop stops]
    simp only [List.append_assoc]

/-- What is left in front of a subscript ends with the name, once white space is taken off. -/
theorem afterLast_trim {rest blanks : Text} (trailing : ∀ c ∈ blanks, Text.isSpace c = true)
    (leads : (∀ c ∈ rest, Text.isSpace c = true) ∨ ∃ path, rest = path ++ ['.']) :
    Text.afterLast '.' (Text.trim (rest ++ (name ++ blanks))) = name := by
  have stays : ∀ c ∈ name, Text.isSpace c = false := fun c member =>
    (Bool.or_eq_false_iff.1 (bare.gap c member)).1
  have free : '.' ∉ name := fun member => bare.plain _ member (by decide)
  rw [Text.trim, Text.strip]
  rcases leads with leading | ⟨path, rfl⟩
  · rw [Text.stripLeft, List.dropWhile_append_of_pos leading, ← Text.stripLeft,
      Text.stripLeft_of_front bare.solid stays]
    have last := Text.stripRight_of_back bare.solid stays trailing []
    rw [List.nil_append, List.nil_append] at last
    rw [last, Text.afterLast_of_notMem free]
  · have stops : Text.isSpace '.' = false := by decide
    rw [List.append_assoc, List.singleton_append, Text.stripLeft, dropWhile_append_of_stop _ stops,
      ← List.singleton_append, ← List.append_assoc,
      Text.stripRight_of_back bare.solid stays trailing, List.append_assoc, List.singleton_append,
      Text.afterLast_append free]

theorem typeHead_of_startsWith (starts : StartsWith name rendered) : typeHead rendered = name := by
  rcases starts with ⟨front, back, rfl, isFront, isBack⟩
  rcases exists_stripLeft_front bare isFront back with ⟨rest, left, unsubscripted, leads⟩
  rcases exists_stripRight_back bare isBack rest with ⟨blanks, later, right, trailing, ends⟩
  have found : typeHead (front ++ name ++ back) = Text.afterLast '.'
      (Text.trim (Text.before '[' (Text.stripRight isMark
        (Text.stripLeft isMark (front ++ name ++ back))))) := rfl
  have free : '[' ∉ rest ++ (name ++ blanks) := by
    rw [List.mem_append]
    exact fun member => member.elim unsubscripted (bare.notMem trailing)
  rw [found, left, right, Text.before_append free ends]
  exact afterLast_trim bare trailing leads

end Names

/-- A declaration is no field exactly if its type starts with one of certain names. -/
theorem isNonFieldType_iff {rendered : Text} :
    isNonFieldType rendered = true ↔ ∃ name ∈ nonFieldWrappers, StartsWith name rendered := by
  rw [isNonFieldType, List.contains_iff_mem]
  constructor
  · exact fun wrapper => ⟨_, wrapper, startsWith_typeHead rendered⟩
  · rintro ⟨name, wrapper, starts⟩
    rwa [typeHead_of_startsWith (isBareName_of_mem wrapper) starts]

/-! ## Other spellings of a text -/

section Spellings

variable {name s t : Text}

/-- What leads to a name does so before white space is put in. -/
theorem TypeFront.of_spread (front : TypeFront t) (spread : Text.Spread isGap s t) :
    TypeFront s := by
  cases front with
  | quoted opens leading =>
    rcases spread.exists_append with ⟨marks, blanks, rfl, first, second⟩
    exact .quoted (fun c member => opens c (first.subset member))
      fun c member => leading c (second.subset member)
  | dotted unsubscripted =>
    rcases spread.exists_append with ⟨path, dot, rfl, first, second⟩
    cases second.eq_of_clear (List.forall_mem_singleton.2 (by decide))
    exact .dotted fun member => unsubscripted (first.subset member)

/-- What may follow a name may do so before white space is put in. -/
theorem TypeBack.of_spread (back : TypeBack t) (spread : Text.Spread isGap s t) : TypeBack s := by
  cases back with
  | quoted trailing closes =>
    rcases spread.exists_append with ⟨blanks, marks, rfl, first, second⟩
    exact .quoted (fun c member => trailing c (first.subset member))
      fun c member => closes c (second.subset member)
  | subscripted elements trailing =>
    rcases spread.exists_append with ⟨blanks, subscript, rfl, first, second⟩
    cases second with
    | keep rest => exact .subscripted _ fun c member => trailing c (first.subset member)
    | put between rest => cases between

/-- A type starts with a name before white space is put in. -/
theorem StartsWith.of_spread (bare : IsBareName name) (starts : StartsWith name t)
    (spread : Text.Spread isGap s t) : StartsWith name s := by
  rcases starts with ⟨front, back, rfl, isFront, isBack⟩
  rcases spread.exists_append with ⟨first, last, rfl, spread, behind⟩
  rcases spread.exists_append with ⟨first, middle, rfl, ahead, within⟩
  cases within.eq_of_clear bare.gap
  exact ⟨first, last, rfl, isFront.of_spread ahead, isBack.of_spread behind⟩

/-- White space that is put in keeps a declaration from being a field exactly if it did before and
white space does not show in the name that the type starts with. -/
theorem isNonFieldType_spread_iff (spread : Text.Spread isGap s t) :
    isNonFieldType t = true ↔ isNonFieldType s = true ∧ typeHead t = typeHead s := by
  constructor
  · intro wrapped
    have wrapper : typeHead t ∈ nonFieldWrappers := List.contains_iff_mem.1 wrapped
    have bare := isBareName_of_mem wrapper
    have same := typeHead_of_startsWith bare ((startsWith_typeHead t).of_spread bare spread)
    refine ⟨?_, same.symm⟩
    rwa [isNonFieldType, same]
  · rintro ⟨wrapped, same⟩
    rwa [isNonFieldType, same]

theorem TypeFront.notMem (front : TypeFront s) : '[' ∉ s := by
  cases front with
  | quoted opens leading =>
    rw [List.mem_append]
    rintro (marked | blank)
    · exact absurd (opens _ marked) (by decide)
    · exact absurd (leading _ blank) (by decide)
  | dotted unsubscripted => simpa using unsubscripted

theorem TypeFront.exists_path (bare : IsBareName name) {front blanks : Text}
    (isFront : TypeFront front) (trailing : ∀ c ∈ blanks, Text.isSpace c = true)
    (dotted : '.' ∈ front ++ (name ++ blanks)) : ∃ path, front = path ++ ['.'] ∧ '[' ∉ path := by
  cases isFront with
  | @quoted marks leading opens leads =>
    simp only [List.mem_append] at dotted
    rcases dotted with (marked | blank) | named | blank
    · exact absurd (opens _ marked) (by decide)
    · exact absurd (leads _ blank) (by decide)
    · exact absurd (by decide) (bare.plain _ named)
    · exact absurd (trailing _ blank) (by decide)
  | dotted unsubscripted => exact ⟨_, rfl, unsubscripted⟩

theorem TypeFront.of_parenthesis (bare : IsBareName name) {front back : Text}
    (isFront : TypeFront front) (whole : '(' :: t = front ++ (name ++ back)) :
    ∃ path, front = '(' :: path ++ ['.'] ∧ '[' ∉ path := by
  cases isFront with
  | @quoted marks blanks opens leading =>
    rw [← List.append_assoc] at whole
    rcases List.mem_append.1 (Text.mem_of_cons_eq_append whole (by simp [bare.solid])) with
      ahead | named
    · rcases List.mem_append.1 ahead with marked | blank
      · exact absurd (opens _ marked) (by decide)
      · exact absurd (leading _ blank) (by decide)
    · exact absurd (by decide) (bare.plain _ named)
  | @dotted path unsubscripted =>
    cases path with
    | nil => cases whole
    | cons c path =>
      cases whole
      exact ⟨path, rfl, fun member => unsubscripted (List.mem_cons_of_mem _ member)⟩

theorem TypeBack.of_parenthesis (bare : IsBareName name) {front back : Text}
    (isBack : TypeBack back) (whole : t ++ [')'] = front ++ (name ++ back)) :
    ∃ blanks elements, back = blanks ++ '[' :: elements ++ [')'] ∧
      ∀ c ∈ blanks, Text.isSpace c = true := by
  cases isBack with
  | @quoted blanks marks trailing closes =>
    rcases List.mem_append.1 (Text.mem_of_concat_eq_append whole (by simp [bare.solid])) with
      named | behind
    · exact absurd (by decide) (bare.plain _ named)
    · rcases List.mem_append.1 behind with blank | marked
      · exact absurd (trailing _ blank) (by decide)
      · exact absurd (closes _ marked) (by decide)
  | @subscripted blanks elements trailing =>
    rw [← List.append_assoc, ← List.append_assoc] at whole
    rcases List.eq_nil_or_concat elements with rfl | ⟨inner, c, rfl⟩
    · exact absurd (Text.mem_of_concat_eq_append whole (by simp)) (by decide)
    · rw [List.concat_eq_append, ← List.cons_append, ← List.append_assoc] at whole
      have last := Text.mem_of_concat_eq_append whole (by simp)
      cases List.mem_singleton.1 last
      exact ⟨blanks, inner, by simp, trailing⟩

theorem TypeFront.before_subscript (bare : IsBareName name) {front blanks : Text}
    (isFront : TypeFront front) (trailing : ∀ c ∈ blanks, Text.isSpace c = true)
    (elements : Text) :
    Text.before '[' (front ++ name ++ (blanks ++ '[' :: elements)) = front ++ (name ++ blanks) := by
  have free : '[' ∉ front ++ (name ++ blanks) := by
    rw [List.mem_append]
    exact fun member => member.elim isFront.notMem (bare.notMem trailing)
  rw [← List.append_assoc, List.append_assoc front, Text.before_append free (.inr ⟨elements, rfl⟩)]

/-- In parentheses a type keeps a declaration from being a field only if it is subscripted and its
name is behind a dot. -/
theorem isNonFieldType_parentheses_iff :
    isNonFieldType ('(' :: t ++ [')']) = true ↔
      isNonFieldType t = true ∧ '[' ∈ t ∧ '.' ∈ Text.before '[' t := by
  rw [isNonFieldType_iff, isNonFieldType_iff]
  constructor
  · rintro ⟨name, wrapper, front, back, whole, isFront, isBack⟩
    have bare := isBareName_of_mem wrapper
    rw [List.append_assoc] at whole
    rcases isFront.of_parenthesis bare whole with ⟨path, rfl, unsubscripted⟩
    rcases isBack.of_parenthesis bare whole with ⟨blanks, elements, rfl, trailing⟩
    have inner : t = path ++ ['.'] ++ name ++ (blanks ++ '[' :: elements) := by
      simpa [← List.append_assoc] using whole
    have leads : TypeFront (path ++ ['.']) := .dotted unsubscripted
    refine ⟨⟨name, wrapper, _, _, inner, leads, .subscripted _ trailing⟩, by simp [inner], ?_⟩
    rw [inner, leads.before_subscript bare trailing]
    simp
  · rintro ⟨⟨name, wrapper, front, back, rfl, isFront, isBack⟩, subscripted, dotted⟩
    have bare := isBareName_of_mem wrapper
    cases isBack with
    | @quoted blanks marks trailing closes =>
      refine absurd subscripted ?_
      rw [List.append_assoc, ← List.append_assoc name, List.mem_append, List.mem_append]
      rintro (ahead | within | marked)
      · exact isFront.notMem ahead
      · exact bare.notMem trailing within
      · exact absurd (closes _ marked) (by decide)
    | @subscripted blanks elements trailing =>
      rw [isFront.before_subscript bare trailing] at dotted
      rcases isFront.exists_path bare trailing dotted with ⟨path, rfl, unsubscripted⟩
      refine ⟨name, wrapper, '(' :: path ++ ['.'], blanks ++ '[' :: (elements ++ [')']), by simp,
        .dotted ?_, .subscripted _ trailing⟩
      rintro (_ | ⟨_, within⟩)
      exact unsubscripted within

/-- Quotation marks around a type make no difference. -/
theorem isNonFieldType_quoted {opening closing : Text} (opens : ∀ c ∈ opening, isMark c = true)
    (closes : ∀ c ∈ closing, isMark c = true) :
    isNonFieldType (opening ++ t ++ closing) = isNonFieldType t :=
  congrArg (fun bare => nonFieldWrappers.contains
    (Text.afterLast '.' (Text.trim (Text.before '[' bare)))) (Text.strip_between opens closes)

end Spellings

end OpenRecord
