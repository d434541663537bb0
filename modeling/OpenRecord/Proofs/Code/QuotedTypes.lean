import OpenRecord.Proofs.Code.LineStarts
import OpenRecord.Proofs.Source.LiteralValues

namespace OpenRecord

/-!
# Types as string literals

A type expression is written as a string literal unless it starts with a quotation mark.  What is
written is one literal on one line, its value is the expression, and reindentation handles it as a
whole: what stands around it in the reindented code is the same whichever expression it holds.

Nothing is said here of expressions that start with a quotation mark, which are left as they are.
-/

/-! ## Lines around a piece of code -/

namespace Text

/-- A text without boundaries goes into the first line of what stands behind it. -/
theorem lines_unbroken_append {piece : Text} (nonempty : piece ≠ [])
    (unbroken : ∀ x ∈ piece, isBoundary x = false) (back : Text) :
    lines (piece ++ back) = (piece ++ (lines back).headD []) :: (lines back).tail := by
  induction piece with
  | nil => exact absurd rfl nonempty
  | cons first others ih =>
    rw [List.forall_mem_cons] at unbroken
    rw [List.cons_append, lines_cons unbroken.1]
    cases others with
    | nil =>
      rw [List.nil_append]
      cases lines back <;> rfl
    | cons second more => rw [ih (by simp) unbroken.2]; rfl

/-- A text puts lines in front of another one, and characters in front of its first line, that do
not depend on it, if it does not start with a boundary. -/
theorem exists_lines_append (front : Text) :
    ∃ above left, ∀ c rest, isBoundary c = false →
      lines (front ++ c :: rest) =
        above ++ (left ++ (lines (c :: rest)).headD []) :: (lines (c :: rest)).tail := by
  have whole (c : Char) (rest : Text) :
      lines (c :: rest) = (lines (c :: rest)).headD [] :: (lines (c :: rest)).tail := by
    cases split : lines (c :: rest) with
    | nil => exact absurd split (lines_ne_nil (List.cons_ne_nil c rest))
    | cons line later => rfl
  fun_induction lines front with
  | case1 => exact ⟨[], [], fun c rest _ => whole c rest⟩
  | case2 front ih =>
    rcases ih with ⟨above, left, split⟩
    exact ⟨[] :: above, left, fun c rest solid => congrArg ([] :: ·) (split c rest solid)⟩
  | case3 d front unpaired boundary ih =>
    rcases ih with ⟨above, left, split⟩
    refine ⟨[] :: above, left, fun c rest solid => ?_⟩
    have apart : d = '\r' → (front ++ c :: rest).head? ≠ some '\n' := by
      rintro half
      cases front with
      | nil =>
        rintro ⟨⟩
        cases solid
      | cons first later =>
        rintro ⟨⟩
        exact unpaired later half rfl
    rw [List.cons_append, lines_boundary boundary apart, split c rest solid]
    rfl
  | case4 d front _ solid none_left ih =>
    cases front with
    | cons first later => exact absurd none_left (lines_ne_nil (List.cons_ne_nil _ _))
    | nil =>
      refine ⟨[], [d], fun c rest _ => ?_⟩
      rw [List.singleton_append, lines_cons (by simpa using solid), whole c rest]
      rfl
  | case5 d front _ solid line later split ih =>
    rcases ih with ⟨above, left, split⟩
    have unbroken : isBoundary d = false := by simpa using solid
    cases above with
    | nil =>
      refine ⟨[], d :: left, fun c rest solid => ?_⟩
      rw [List.cons_append, lines_cons unbroken, split c rest solid]
      rfl
    | cons first others =>
      refine ⟨(d :: first) :: others, left, fun c rest solid => ?_⟩
      rw [List.cons_append, lines_cons unbroken, split c rest solid]
      rfl

end Text

namespace Code

/-- Reindentation handles a piece of code without boundaries as a whole. -/
theorem exists_reindent_append (front back unit margin : Text) :
    ∃ top bottom, ∀ c piece, c ≠ ' ' → (∀ x ∈ c :: piece, Text.isBoundary x = false) →
      reindent (front ++ c :: piece ++ back) unit margin = top ++ c :: piece ++ bottom := by
  rcases Text.exists_lines_append front with ⟨above, left, split⟩
  let change := reindentLine unit margin
  refine ⟨(above.map change).flatMap (· ++ ['\n']) ++ (margin ++ repeated unit
      ((left.length - (left.dropWhile (· == ' ')).length) / indentUnit.length) ++
        left.dropWhile (· == ' ')),
    (Text.lines back).headD [] ++ '\n' ::
      ((Text.lines back).tail.map change).flatMap (· ++ ['\n']), ?_⟩
  intro c piece solid unbroken
  have own : Text.lines (c :: (piece ++ back)) =
      (c :: piece ++ (Text.lines back).headD []) :: (Text.lines back).tail :=
    Text.lines_unbroken_append (List.cons_ne_nil c piece) unbroken back
  unfold reindent
  rw [List.append_assoc, List.cons_append, split c _ (unbroken c (List.mem_cons_self ..)), own,
    emit_eq_flatMap (by simp), List.map_append, List.map_cons, List.headD_cons, List.tail_cons,
    List.cons_append, reindentLine_append solid]
  simp [change]

/-! ## Quoting -/

def StartsMarked (text : Text) : Prop :=
  text.head?.any Source.isMark = true

instance (text : Text) : Decidable (StartsMarked text) :=
  inferInstanceAs (Decidable (_ = _))

theorem quote_of_startsMarked {type : Text} (marked : StartsMarked type) : quote type = type := by
  unfold quote
  split
  · cases marked
  case h_2 first later =>
    have known : first = Text.singleMark ∨ first = Text.doubleMark := by
      simpa [StartsMarked, Source.isMark, Text.singleMark, Text.doubleMark] using marked
    rw [if_pos (by simpa using known)]

theorem quote_eq_quoted {type : Text} (bare : ¬StartsMarked type) :
    quote type = Text.quoted type := by
  unfold quote
  split
  · rfl
  case h_2 first later =>
    have known : ¬(first = Text.singleMark ∨ first = Text.doubleMark) := by
      simpa [StartsMarked, Source.isMark, Text.singleMark, Text.doubleMark] using bare
    rw [if_neg (by simpa using known)]

theorem lexeme_quoted (nest : List Source.Nest) (gap : List Source.Piece) (text : Text)
    {rest : Text} (apart : ¬StartsMarked rest) :
    Source.lexeme nest gap (Text.quoted text ++ rest) =
      some ⟨⟨gap, .literal, Text.quoted text⟩, nest, rest⟩ := by
  have marks := Source.isMark_chooseMark text
  have guarded := Source.guarded_flatMap_escape marks text
  exact Source.lexeme_of_guarded marks guarded (Bool.eq_false_of_not_eq_true apart) nest gap

/-- A text is written as a literal in one pair of marks, in which no mark is without a backslash
before it. -/
def EnclosedByMarks (literal : Text) : Prop :=
  ∃ mark body, Source.isMark mark = true ∧ literal = mark :: body ++ [mark] ∧
    Source.Guarded mark body

/-- Nothing is lost of a type expression that does not start with a mark when it is written as a
string literal.  It is one literal between two marks, whatever other text follows; its value is the
expression; it has no boundary of lines in it; different expressions give different literals; and
reindentation of code around it leaves it as it is. -/
theorem quote_lossless (nameOf : Text → Option Char) :
    (∀ type, ¬StartsMarked type →
      EnclosedByMarks (quote type) ∧
      (∀ nest gap rest, ¬StartsMarked rest → Source.lexeme nest gap (quote type ++ rest) =
        some ⟨⟨gap, .literal, quote type⟩, nest, rest⟩) ∧
      Source.literalValue? nameOf (quote type) = some type ∧
      ∀ x ∈ quote type, Text.isBoundary x = false) ∧
    (∀ type other, ¬StartsMarked type → ¬StartsMarked other → quote type = quote other →
      type = other) ∧
    ∀ front back unit margin, ∃ top bottom, ∀ type, ¬StartsMarked type →
      reindent (front ++ quote type ++ back) unit margin = top ++ quote type ++ bottom := by
  refine ⟨fun type bare => ?_, fun type other bare bareOther same => ?_,
    fun front back unit margin => ?_⟩
  · rw [quote_eq_quoted bare]
    have marks := Source.isMark_chooseMark type
    exact ⟨⟨_, _, marks, rfl, Source.guarded_flatMap_escape marks type⟩,
      fun nest gap rest apart => lexeme_quoted nest gap type apart,
      Source.literalValue?_quoted nameOf type, Text.unbroken_quoted type⟩
  · rw [quote_eq_quoted bare, quote_eq_quoted bareOther] at same
    have values := Source.literalValue?_quoted nameOf type
    rw [same, Source.literalValue?_quoted nameOf other] at values
    exact (Option.some.inj values).symm
  · rcases exists_reindent_append front back unit margin with ⟨top, bottom, whole⟩
    refine ⟨top, bottom, fun type bare => ?_⟩
    rw [quote_eq_quoted bare]
    have solid : Text.chooseMark type ≠ ' ' := by
      intro same
      have marks := Source.isMark_chooseMark type
      rw [same] at marks
      cases marks
    exact whole _ _ solid (Text.unbroken_quoted type)

/-- A type expression with a mark, a backslash and a line separator in it is found again. -/
theorem quote_lossless_marks :
    let type := "Literal[\x27it\x5c\u2028\x27]".toList
    ¬StartsMarked type ∧ Source.literalValue? (fun _ => none) (quote type) = some type := by
  have bare : ¬StartsMarked "Literal[\x27it\x5c\u2028\x27]".toList := by decide
  exact ⟨bare, ((quote_lossless fun _ => none).1 _ bare).2.2.1⟩

end Code
end OpenRecord
