import OpenRecord.Proofs.Source.Scanning

namespace OpenRecord
namespace Source

/-!
# The lines of a text

A line that the lexer takes off the front of a text is its tokens, each with the gap in front of it,
and its end, up to the break that the last line of a text may lack.  A last line lacks its break only if
the text does not end with one.  What is left behind a line starts directly behind a line break, unless
it is empty.
-/

/-! ## Tokens of a line -/

/-- What was written and what is left are a text, up to the break that its last line may lack. -/
def SpellsLine (newline written rest text : Text) : Prop :=
  written ++ rest = text ∨ rest = [] ∧ written = text ++ newline ∧ ¬ EndsBroken text

theorem SpellsLine.push {newline written rest text : Text}
    (spells : SpellsLine newline written rest text) {front : Text}
    (solid : text = [] → ¬ EndsBroken front) :
    SpellsLine newline (front ++ written) rest (front ++ text) := by
  rcases spells with whole | ⟨ended, whole, open_⟩
  · exact .inl (by rw [List.append_assoc, whole])
  · refine .inr ⟨ended, by rw [whole, List.append_assoc], ?_⟩
    by_cases empty : text = []
    · rw [empty, List.append_nil]
      exact solid empty
    · rwa [endsBroken_append front empty]

/-- The next token of a line, with its gap. -/
structure Lexeme.Continues (found : Lexeme) (context : LineContext) (nest : List Nest)
    (text : Text) : Prop where
  spelled : found.token.print context.layout ++ found.rest = text
  nonempty : text ≠ []
  opens : NestUnbroken nest → NestUnbroken found.nest
  solid : NestUnbroken nest → found.nest = [] → found.rest = [] → ¬ EndsBroken text

theorem Lexeme.Spells.continues {found : Lexeme} {context : LineContext} {nest outer : List Nest}
    {gap : List Piece} {behind text : Text} (spells : found.Spells nest gap behind)
    (parts : printGap context.layout gap ++ behind = text)
    (solid : behind ≠ []) (inner : NestUnbroken outer → NestUnbroken nest) :
    found.Continues context outer text where
  spelled := by
    rw [Token.print, spells.gap_eq, List.append_assoc, spells.spelled]
    exact parts
  nonempty := by
    rw [← parts]
    exact List.append_ne_nil_of_right_ne_nil _ solid
  opens nested := spells.opens (inner nested)
  solid nested closed ended := by
    rw [← parts, endsBroken_append _ solid]
    exact spells.solid (inner nested) closed ended

theorem ne_nil_of_lexeme {nest : List Nest} {gap : List Piece} {text : Text} {found : Lexeme}
    (scanned : lexeme nest gap text = some found) : text ≠ [] := by
  rintro rfl
  cases scanned

theorem ne_nil_of_templateLexeme {quotation : Quotation} {inSpecification : Bool}
    {outer : List Nest} {text : Text} {found : Lexeme}
    (scanned : templateLexeme quotation inSpecification outer text = some found) : text ≠ [] := by
  rintro rfl
  have marks : quotation.marks.isPrefixOf [] = false := by
    unfold Quotation.marks
    split <;> rfl
  have nothing : templateText quotation inSpecification .plain [] = ([], []) := by
    unfold templateText
    rfl
  unfold templateLexeme at scanned
  simp [nothing, marks] at scanned

/-- The next token inside brackets. -/
theorem bracketStep_continues {context : LineContext} {nest outer : List Nest} {text : Text}
    {step : LineStep} (inner : NestUnbroken outer → NestUnbroken nest)
    (scanned : bracketStep context nest text = some step) :
    ∃ found, step = .go found ∧ found.Continues context outer text := by
  have gap := bracketGap_spells context (text.length + 1) text
  unfold bracketStep at scanned
  rcases Option.map_eq_some_iff.1 scanned with ⟨found, token, rfl⟩
  exact ⟨found, rfl, (lexeme_spells token).continues gap (ne_nil_of_lexeme token) inner⟩

theorem lineStep_continues {context : LineContext} {nest : List Nest} {text : Text} {found : Lexeme}
    (scanned : lineStep context nest text = some (.go found)) :
    found.Continues context nest text := by
  have bracketed : ∀ {inner}, (NestUnbroken nest → NestUnbroken inner) →
      bracketStep context inner text = some (.go found) → found.Continues context nest text := by
    intro inner opens inside
    rcases bracketStep_continues opens inside with ⟨_, same, continues⟩
    cases same
    exact continues
  unfold lineStep at scanned
  split at scanned
  case h_1 =>
    dsimp only at scanned
    split at scanned
    case h_1 => cases scanned
    case h_2 => split at scanned <;> cases scanned
    case h_3 whole solid =>
      rcases Option.map_eq_some_iff.1 scanned with ⟨next, token, same⟩
      cases same
      refine (lexeme_spells token).continues ?_ (ne_nil_of_lexeme token) id
      have remark := comment_spells (blankRun text).2
      rw [comment_eq_nil (ne_nil_of_lexeme token) whole] at remark
      rw [printGap_run]
      exact (congrArg _ remark).trans (blankRun_spells text)
  case h_2 quotation inSpecification outer =>
    split at scanned
    case isTrue => exact bracketed (fun nested => (List.forall_mem_cons.1 nested).2) scanned
    case isFalse =>
      rcases Option.map_eq_some_iff.1 scanned with ⟨next, token, same⟩
      cases same
      exact (templateLexeme_spells token).continues rfl (ne_nil_of_templateLexeme token) id
  case h_3 => exact bracketed id scanned

/-! ## Ends of lines -/

theorem ending_spells {text found rest : Text}
    (cut : Text.splitBreak (comment (blankRun text).2).2 = some (found, rest)) :
    (blankRun text).1 ++ (comment (blankRun text).2).1 ++ (found ++ rest) = text := by
  rw [splitBreak_spells cut, List.append_assoc, comment_spells, blankRun_spells]

/-- Blanks and a comment with nothing behind them do not end with a line break, unless they end with a
continued line. -/
theorem open_ending {text : Text} (ended : (comment (blankRun text).2).2 = [])
    (closed : ¬ (decide ((comment (blankRun text).2).1 = []) &&
      (blankRun text).1.getLast?.any Text.isBreak) = true) :
    (blankRun text).1 ++ (comment (blankRun text).2).1 = text ∧ ¬ EndsBroken text := by
  have whole : (blankRun text).1 ++ (comment (blankRun text).2).1 = text := by
    have parts := comment_spells (blankRun text).2
    rw [ended, List.append_nil] at parts
    rw [parts, blankRun_spells]
  refine ⟨whole, ?_⟩
  rw [← whole]
  by_cases empty : (comment (blankRun text).2).1 = []
  · rw [empty, List.append_nil]
    rw [decide_eq_true empty, Bool.true_and] at closed
    exact closed
  · rw [endsBroken_append _ empty]
    exact not_endsBroken (unbroken_comment _)

theorem lineStep_stop_spells {context : LineContext} {nest : List Nest} {text rest : Text}
    {ending : LineEnd} (scanned : lineStep context nest text = some (.stop ending rest)) :
    nest = [] ∧ SpellsLine context.usual (ending.print context.layout) rest text := by
  have bracketed : ∀ {nest}, bracketStep context nest text ≠ some (.stop ending rest) := by
    intro nest inside
    rcases bracketStep_continues id inside with ⟨_, same, -⟩
    cases same
  unfold lineStep at scanned
  split at scanned
  case h_1 =>
    refine ⟨rfl, ?_⟩
    dsimp only at scanned
    split at scanned
    case h_1 found rest cut =>
      cases scanned
      have broken : (LineBreak.read context.usual found).print context.layout = found :=
        LineBreak.print_read context.layout found
      left
      rw [LineEnd.print, broken, List.append_assoc]
      exact ending_spells cut
    case h_2 nothing _ =>
      split at scanned
      case isTrue => cases scanned
      case isFalse closed =>
        cases scanned
        rcases open_ending nothing closed with ⟨whole, unbroken⟩
        exact .inr ⟨rfl, congrArg (· ++ context.usual) whole, unbroken⟩
    case h_3 =>
      rcases Option.map_eq_some_iff.1 scanned with ⟨next, -, same⟩
      cases same
  case h_2 =>
    split at scanned
    case isTrue => exact absurd scanned bracketed
    case isFalse =>
      rcases Option.map_eq_some_iff.1 scanned with ⟨next, -, same⟩
      cases same
  case h_3 => exact absurd scanned bracketed

/-- Nothing is read of an empty text while something is open. -/
theorem nest_eq_nil_of_logicalLine {context : LineContext} {fuel : Nat} {nest : List Nest}
    {tokens : List Token} {ending : LineEnd} {after : Text}
    (scanned : logicalLine context fuel nest [] = some (tokens, ending, after)) : nest = [] := by
  cases fuel with
  | zero => cases scanned
  | succ fuel =>
    unfold logicalLine at scanned
    split at scanned
    case h_1 => cases scanned
    case h_2 stop => exact (lineStep_stop_spells stop).1
    case h_3 step => exact absurd rfl (lineStep_continues step).nonempty

theorem logicalLine_spells {context : LineContext} {fuel : Nat} {nest : List Nest}
    {text after : Text} {tokens : List Token} {ending : LineEnd} (nested : NestUnbroken nest)
    (scanned : logicalLine context fuel nest text = some (tokens, ending, after)) :
    SpellsLine context.usual (printTokens context.layout tokens ++ ending.print context.layout)
      after text := by
  induction fuel generalizing nest text tokens with
  | zero => cases scanned
  | succ fuel ih =>
    unfold logicalLine at scanned
    split at scanned
    case h_1 => cases scanned
    case h_2 stop =>
      cases scanned
      exact (lineStep_stop_spells stop).2
    case h_3 token inner rest step =>
      split at scanned
      case h_1 => cases scanned
      case h_2 more =>
        cases scanned
        have continues := lineStep_continues step
        have later := ih (continues.opens nested) more
        have solid : rest = [] → ¬ EndsBroken (token.print context.layout) := by
          rintro rfl
          have whole := continues.solid nested (nest_eq_nil_of_logicalLine more) rfl
          rwa [← continues.spelled, List.append_nil] at whole
        have whole := later.push solid
        rw [continues.spelled, ← List.append_assoc] at whole
        exact whole

theorem blankLine_spells {newline text next : Text} {line : BlankLine}
    (scanned : blankLine newline text = some (line, next)) :
    SpellsLine newline (line.chars ++ line.lineBreak.print ⟨[], newline⟩) next text := by
  unfold blankLine at scanned
  dsimp only at scanned
  split at scanned
  case h_1 found rest cut =>
    cases scanned
    left
    rw [LineBreak.print_read ⟨[], newline⟩ found, List.append_assoc]
    exact ending_spells cut
  case h_2 nothing _ =>
    split at scanned
    case isTrue => cases scanned
    case isFalse closed =>
      cases scanned
      rw [Bool.or_eq_true, not_or] at closed
      rcases open_ending nothing closed.2 with ⟨whole, unbroken⟩
      exact .inr ⟨rfl, congrArg (· ++ newline) whole, unbroken⟩
  case h_3 => cases scanned

/-! ## Starts of lines -/

/-- A text that ends directly behind a line break of another one. -/
def StartsLine (rest text : Text) : Prop :=
  ∃ front c, Text.isBreak c = true ∧ text = front ++ c :: rest

theorem StartsLine.trans_suffix {rest part text : Text} (starts : StartsLine rest part)
    (suffix : part <:+ text) : StartsLine rest text := by
  rcases starts with ⟨front, c, ends, rfl⟩
  rcases suffix with ⟨before, rfl⟩
  exact ⟨before ++ front, c, ends, by simp⟩

theorem startsLine_of_splitBreak {text found rest : Text}
    (cut : Text.splitBreak text = some (found, rest)) : StartsLine rest text := by
  unfold Text.splitBreak at cut
  split at cut <;> cases cut
  · exact ⟨['\r'], '\n', rfl, rfl⟩
  · exact ⟨[], '\r', rfl, rfl⟩
  · exact ⟨[], '\n', rfl, rfl⟩

theorem lineStep_stop {context : LineContext} {nest : List Nest} {text rest : Text}
    {ending : LineEnd} (scanned : lineStep context nest text = some (.stop ending rest)) :
    rest = [] ∨ StartsLine rest text := by
  rcases lineStep_stop_spells scanned with ⟨rfl, -⟩
  unfold lineStep at scanned
  dsimp only at scanned
  split at scanned
  case h_1 broken =>
    cases scanned
    exact .inr ((startsLine_of_splitBreak broken).trans_suffix
      ((comment_suffix _).trans (blankRun_suffix text)))
  case h_2 =>
    split at scanned <;> cases scanned
    exact .inl rfl
  case h_3 =>
    rcases Option.map_eq_some_iff.1 scanned with ⟨next, -, same⟩
    cases same

theorem logicalLine_startsLine {context : LineContext} {fuel : Nat} {nest : List Nest}
    {text after : Text} {tokens : List Token} {ending : LineEnd}
    (scanned : logicalLine context fuel nest text = some (tokens, ending, after)) :
    after = [] ∨ StartsLine after text := by
  induction fuel generalizing nest text tokens with
  | zero => cases scanned
  | succ fuel ih =>
    unfold logicalLine at scanned
    split at scanned
    case h_1 => cases scanned
    case h_2 stop =>
      cases scanned
      exact lineStep_stop stop
    case h_3 token inner rest step =>
      split at scanned
      case h_1 => cases scanned
      case h_2 more =>
        cases scanned
        have behind : rest <:+ text := ⟨_, (lineStep_continues step).spelled⟩
        exact (ih more).imp_right fun starts => starts.trans_suffix behind

theorem blankLine_startsLine {usual text next : Text} {line : BlankLine}
    (scanned : blankLine usual text = some (line, next)) : next = [] ∨ StartsLine next text := by
  unfold blankLine at scanned
  dsimp only at scanned
  split at scanned
  case h_1 broken =>
    cases scanned
    exact .inr ((startsLine_of_splitBreak broken).trans_suffix
      ((comment_suffix _).trans (blankRun_suffix text)))
  case h_2 =>
    split at scanned <;> cases scanned
    exact .inl rfl
  case h_3 => cases scanned

end Source
end OpenRecord
