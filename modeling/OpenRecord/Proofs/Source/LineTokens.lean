import OpenRecord.Proofs.Source.LiteralRuns
import OpenRecord.Proofs.Source.Spelling

namespace OpenRecord
namespace Source

/-!
# The tokens of a line stand apart

Whatever is open around a token, it is read behind blanks, it is not empty, and the text goes on
behind it with nothing that would have continued it.  So consecutive tokens of a line stand apart,
also inside brackets and templates, where the blanks may hold line breaks and comments.
-/

/-! ## Gaps -/

theorem blanks_of_isBreak {text : Text} (broken : ∀ c ∈ text, Text.isBreak c = true) :
    Blanks text := by
  induction text with
  | nil => exact .nil
  | cons c text ih =>
    rw [List.forall_mem_cons] at broken
    exact .broken broken.1 (ih broken.2)

/-- A line break is rendered as characters of line breaks, one at least. -/
theorem exists_print_read (usual : Text) {text found rest : Text}
    (cut : Text.splitBreak text = some (found, rest)) :
    ∃ c more, (LineBreak.read usual found).print renderLayout = c :: more ∧
      Text.isBreak c = true ∧ ∀ x ∈ more, Text.isBreak x = true := by
  unfold LineBreak.read
  split
  · exact ⟨'\n', [], rfl, rfl, nofun⟩
  · unfold Text.splitBreak at cut
    split at cut <;> cases cut
    · exact ⟨_, _, rfl, rfl, List.forall_mem_singleton.2 rfl⟩
    · exact ⟨_, _, rfl, rfl, nofun⟩
    · exact ⟨_, _, rfl, rfl, nofun⟩

/-- A comment is empty or begins with its sign. -/
theorem comment_cases (text : Text) :
    (comment text).1 = [] ∨ ∃ remark, (comment text).1 = '#' :: remark := by
  unfold comment
  split
  · exact .inr ⟨_, rfl⟩
  · exact .inl rfl

theorem Blanks.comment_append (text : Text) {c : Char} {more : Text} (ends : Text.isBreak c = true)
    (blanks : Blanks more) : Blanks ((comment text).1 ++ c :: more) := by
  have unbroken := unbroken_comment text
  rcases comment_cases text with none | ⟨remark, shape⟩
  · rw [none]
    exact .broken ends blanks
  · rw [shape, List.forall_mem_cons] at unbroken
    rw [shape, List.cons_append]
    exact .remark unbroken.2 ends blanks

/-- In front of a token on the same line is no comment, and nothing is left out if there are no
blanks. -/
theorem behind_blankRun {text : Text} (solid : (comment (blankRun text).2).2 ≠ [])
    (whole : Text.splitBreak (comment (blankRun text).2).2 = none) :
    (comment (blankRun text).2).1 = [] ∧
      ((blankRun text).1 = [] → (comment (blankRun text).2).2 = text) := by
  have remark := comment_eq_nil solid whole
  have spelled := comment_spells (blankRun text).2
  have parts := blankRun_spells text
  rw [remark, List.nil_append] at spelled
  refine ⟨remark, fun none => ?_⟩
  rwa [none, List.nil_append, ← spelled] at parts

/-- The end of a line inside brackets, and what stands in front of the next token, are blanks. -/
theorem blanks_ending (context : LineContext) {text found next : Text} (pieces : List Piece)
    (cut : Text.splitBreak (comment (blankRun text).2).2 = some (found, next))
    (blanks : Blanks (printGap renderLayout pieces)) :
    let ending := Piece.run ((blankRun text).1 ++ (comment (blankRun text).2).1) ++
      [.lineBreak (.read context.usual found)]
    Blanks (printGap renderLayout (ending ++ pieces)) ∧
      printGap renderLayout (ending ++ pieces) ≠ [] := by
  rcases exists_print_read context.usual cut with ⟨c, more, printed, ends, broken⟩
  have shape : printGap renderLayout (Piece.run ((blankRun text).1 ++
      (comment (blankRun text).2).1) ++ [.lineBreak (.read context.usual found)] ++ pieces) =
      (blankRun text).1 ++ ((comment (blankRun text).2).1 ++
        c :: (more ++ printGap renderLayout pieces)) := by
    rw [printGap_append, printGap_append, printGap_run, printGap_cons, Piece.print, printed]
    simp [printGap]
  dsimp only
  rw [shape]
  refine ⟨(blanks_blankRun text).append ?_, by simp⟩
  exact .comment_append _ ends ((blanks_of_isBreak broken).append blanks)

/-- What stands in front of a token inside brackets is rendered as blanks, and nothing is left out
if they are none. -/
theorem blanks_bracketGap (context : LineContext) (fuel : Nat) {text : Text}
    (solid : (bracketGap context fuel text).2 ≠ []) :
    Blanks (printGap renderLayout (bracketGap context fuel text).1) ∧
      (printGap renderLayout (bracketGap context fuel text).1 = [] →
        (bracketGap context fuel text).2 = text) := by
  induction fuel generalizing text with
  | zero => exact ⟨.nil, fun _ => rfl⟩
  | succ fuel ih =>
    simp only [bracketGap] at solid ⊢
    cases cut : Text.splitBreak (comment (blankRun text).2).2 with
    | none =>
      rw [cut] at solid
      rcases behind_blankRun solid cut with ⟨remark, whole⟩
      dsimp only
      rw [remark, List.append_nil, printGap_run]
      exact ⟨blanks_blankRun text, whole⟩
    | some pair =>
      rcases pair with ⟨found, next⟩
      rw [cut] at solid
      dsimp only at solid ⊢
      split at solid
      case isTrue margin =>
        have ended := blanks_ending context (.margin :: _) cut (ih solid).1
        rw [if_pos margin]
        exact ⟨ended.1, fun none => absurd none ended.2⟩
      case isFalse margin =>
        have ended := blanks_ending context _ cut (ih solid).1
        rw [if_neg margin]
        exact ⟨ended.1, fun none => absurd none ended.2⟩

/-! ## Single tokens -/

/-- What is known of a token that was read from the front of a text. -/
structure Lexeme.StandsIn (found : Lexeme) (text : Text) : Prop where
  gap : Blanks (printGap renderLayout found.token.gap)
  written : found.token.text ≠ []
  rescans : ¬found.token.InTemplate → found.token.Rescans
  ends : ∀ c ∈ found.rest.head?, found.token.EndsBefore c
  first : printGap renderLayout found.token.gap = [] → ∀ c ∈ found.token.text.head?, c ∈ text.head?

theorem mem_head?_append {front back : Text} {c : Char} (first : c ∈ front.head?) :
    c ∈ (front ++ back).head? := by
  rw [Option.mem_def, List.head?_eq_some_iff] at first
  rcases first with ⟨rest, rfl⟩
  rfl

/-- A token outside of templates, behind blanks. -/
theorem standsIn_of_lexeme {nest : List Nest} {gap : List Piece} {text rest : Text} {found : Lexeme}
    (scanned : lexeme nest gap rest = some found) (blanks : Blanks (printGap renderLayout gap))
    (whole : printGap renderLayout gap = [] → rest = text) : found.StandsIn text := by
  have spells := lexeme_spells scanned
  have known := rescans_of_lexeme scanned
  refine ⟨spells.gap_eq ▸ blanks, known.1.written, fun _ => known.1, known.2,
    fun none c first => ?_⟩
  rw [spells.gap_eq] at none
  rw [← whole none, ← spells.spelled]
  exact mem_head?_append first

/-- A brace is no literal wherever it stands. -/
theorem strange_brace {which : Symbol} {brace : Char} (known : brace = '{' ∨ brace = '}') :
    Token.Strange ⟨[], .symbol which, [brace]⟩ where
  kind := nofun
  never := by
    refine ⟨[brace], [], rfl, List.cons_ne_nil _ _, ?_, fun nest gap rest found _ scanned => ?_⟩
    · rw [List.forall_mem_singleton]
      rcases known with rfl | rfl <;> exact ⟨rfl, rfl, by decide, by decide, rfl⟩
    · rcases known with rfl | rfl <;> exact kind_of_lexeme_ne rfl (.inr rfl) scanned

/-- A token of a template outside its fields. -/
theorem standsIn_of_templateLexeme {quotation : Quotation} {inSpecification : Bool}
    {outer : List Nest} {text : Text} {found : Lexeme}
    (scanned : templateLexeme quotation inSpecification outer text = some found) :
    found.StandsIn text := by
  have spelled := (templateLexeme_spells scanned).spelled
  have first : ∀ c ∈ found.token.text.head?, c ∈ text.head? := fun c first => by
    rw [← spelled]
    exact mem_head?_append first
  unfold templateLexeme at scanned
  split at scanned
  case h_1 =>
    cases scanned
    exact ⟨.nil, List.cons_ne_nil _ _, fun outside => absurd (.inl rfl) outside, fun _ _ => trivial,
      fun _ => first⟩
  case h_2 =>
    cases scanned
    exact ⟨.nil, List.cons_ne_nil _ _, fun _ => .inr (strange_brace (.inl rfl)), fun _ _ => trivial,
      fun _ => first⟩
  case h_3 =>
    split at scanned <;> cases scanned
    exact ⟨.nil, List.cons_ne_nil _ _, fun _ => .inr (strange_brace (.inr rfl)), fun _ _ => trivial,
      fun _ => first⟩
  case h_4 =>
    split at scanned <;> cases scanned
    have written : quotation.marks ≠ [] := by
      unfold Quotation.marks
      split <;> exact List.cons_ne_nil _ _
    exact ⟨.nil, written, fun outside => absurd (.inr rfl) outside, fun _ _ => trivial,
      fun _ => first⟩

theorem standsIn_of_bracketStep {context : LineContext} {nest : List Nest} {text : Text}
    {found : Lexeme} (scanned : bracketStep context nest text = some (.go found)) :
    found.StandsIn text := by
  have known := @blanks_bracketGap context (text.length + 1) text
  unfold bracketStep at scanned
  split at scanned
  case h_1 gap rest split =>
    rcases Option.map_eq_some_iff.1 scanned with ⟨next, token, wrapped⟩
    cases wrapped
    rw [split] at known
    have solid : rest ≠ [] := by
      rintro rfl
      cases token
    exact standsIn_of_lexeme token (known solid).1 (known solid).2

theorem standsIn_of_lineStep {context : LineContext} {nest : List Nest} {text : Text}
    {found : Lexeme} (scanned : lineStep context nest text = some (.go found)) :
    found.StandsIn text := by
  unfold lineStep at scanned
  split at scanned
  · dsimp only at scanned
    split at scanned
    · cases scanned
    · split at scanned <;> cases scanned
    case h_3 whole solid =>
      rcases Option.map_eq_some_iff.1 scanned with ⟨next, token, wrapped⟩
      cases wrapped
      have blanks := blanks_blankRun text
      rw [← printGap_run renderLayout (blankRun text).1] at blanks
      refine standsIn_of_lexeme token blanks fun none => ?_
      rw [printGap_run] at none
      exact (behind_blankRun solid whole).2 none
  · split at scanned
    · exact standsIn_of_bracketStep scanned
    · rcases Option.map_eq_some_iff.1 scanned with ⟨next, token, wrapped⟩
      cases wrapped
      exact standsIn_of_templateLexeme token
  · exact standsIn_of_bracketStep scanned

/-! ## Lines -/

/-- The tokens of a line stand apart, and the first of them stands at the front of the text unless
it stands behind blanks. -/
theorem standApart_of_logicalLine {context : LineContext} {fuel : Nat} {nest : List Nest}
    {text : Text} {tokens : List Token} {ending : LineEnd} {after : Text}
    (scanned : logicalLine context fuel nest text = some (tokens, ending, after)) :
    StandApart tokens ∧ ∀ first ∈ tokens.head?, printGap renderLayout first.gap = [] →
      ∀ c ∈ first.text.head?, c ∈ text.head? := by
  induction fuel generalizing nest text tokens with
  | zero => cases scanned
  | succ fuel ih =>
    unfold logicalLine at scanned
    split at scanned
    · cases scanned
    · cases scanned
      exact ⟨⟨nofun, nofun, nofun, .nil⟩, nofun⟩
    case h_3 token inner rest step =>
      split at scanned
      · cases scanned
      case h_2 later finish behind more =>
        cases scanned
        have own := standsIn_of_lineStep step
        rcases ih more with ⟨others, next⟩
        refine ⟨⟨?_, ?_, ?_, List.isChain_cons.2 ⟨?_, others.next⟩⟩, ?_⟩
        · exact List.forall_mem_cons.2 ⟨own.gap, others.gaps⟩
        · exact List.forall_mem_cons.2 ⟨own.written, others.written⟩
        · exact List.forall_mem_cons.2 ⟨own.rescans, others.rescans⟩
        · exact fun first member none c inside => own.ends c (next first member none c inside)
        · rintro _ ⟨⟩
          exact own.first

theorem standApart_of_logicalLines {usual : Text} {fuel number : Nat} {stack : List Indentation}
    {above : List BlankLine} {text : Text} {lines : List LogicalLine} {after : List BlankLine}
    (scanned : logicalLines usual fuel number stack above text = some (lines, after)) :
    ∀ line ∈ lines, StandApart line.tokens := by
  intro line member
  rcases exists_logicalLine scanned line member with ⟨context, fuel, rest, ending, behind, read⟩
  exact (standApart_of_logicalLine read).1

end Source
end OpenRecord
