import OpenRecord.Source.Tree

namespace OpenRecord

/-!
# Spelling of names

The lexer calls nothing a name that is no identifier, nor a reserved word.  This is shown of every
token of every logical line of a text, inside brackets and templates as well.
-/

/-- An identifier that is no reserved word. -/
def Text.IsName (name : Text) : Prop :=
  isIdentifier name = true ∧ Source.Keyword.ofText? name = none

instance (name : Text) : Decidable name.IsName :=
  inferInstanceAs (Decidable (_ ∧ _))

/-- A name has no characters but those of identifiers. -/
theorem Text.IsName.notMem {name : Text} (named : name.IsName) {c : Char}
    (other : isNameContinue c = false) : c ∉ name := by
  intro member
  have continues := (chars_of_isIdentifier named.1).2 c member
  rw [other] at continues
  cases continues

namespace Source

/-- A token that, if it is a name, is an identifier and no reserved word. -/
def Token.Spelled (token : Token) : Prop :=
  token.kind = .name → Text.isIdentifier token.text = true ∧ Keyword.ofText? token.text = none

theorem Token.spelled_of_kind {token : Token} (kind : token.kind ≠ .name) : token.Spelled :=
  fun named => absurd named kind

/-! ## Single tokens -/

theorem literalLexeme_spelled {nest : List Nest} {gap : List Piece} {letters text : Text}
    {flavour : LiteralFlavour} {found : Lexeme}
    (scanned : literalLexeme nest gap letters flavour text = some found) :
    found.token.Spelled := by
  unfold literalLexeme at scanned
  split at scanned
  · cases scanned
  · dsimp only at scanned
    split at scanned
    · cases scanned
      exact Token.spelled_of_kind (by simp)
    · split at scanned
      · cases scanned
      · cases scanned
        exact Token.spelled_of_kind (by simp)

/-- Words are names only if they are identifiers and not reserved. -/
theorem wordLexeme_spelled {nest : List Nest} {gap : List Piece} {text : Text} {found : Lexeme}
    (scanned : wordLexeme nest gap text = some found) : found.token.Spelled := by
  unfold wordLexeme at scanned
  dsimp only at scanned
  split at scanned
  · exact literalLexeme_spelled scanned
  · split at scanned
    · cases scanned
      exact Token.spelled_of_kind (by simp)
    case h_2 free =>
      split at scanned
      case isTrue identifier =>
        cases scanned
        exact fun _ => ⟨identifier, free⟩
      · cases scanned

theorem symbolLexeme_spelled {nest : List Nest} {gap : List Piece} {text : Text} {found : Lexeme}
    (scanned : symbolLexeme nest gap text = some found) : found.token.Spelled := by
  have close : ∀ {token rest}, token.kind ≠ .name →
      symbolLexeme.close nest token rest = some found → found.token.Spelled := by
    intro token rest kind closed
    unfold symbolLexeme.close at closed
    split at closed
    · split at closed
      · cases closed
        exact Token.spelled_of_kind kind
      · cases closed
    · cases closed
  unfold symbolLexeme at scanned
  split at scanned
  · cases scanned
    exact Token.spelled_of_kind (by simp)
  · cases scanned
    exact Token.spelled_of_kind (by simp)
  · split at scanned <;> cases scanned <;> exact Token.spelled_of_kind (by simp)
  · rcases Option.bind_eq_some_iff.1 scanned with ⟨⟨which, chars, rest⟩, -, found⟩
    dsimp only at found
    split at found
    all_goals first
      | exact close (by simp) found
      | (cases found; exact Token.spelled_of_kind (by simp))

theorem lexeme_spelled {nest : List Nest} {gap : List Piece} {text : Text} {found : Lexeme}
    (scanned : lexeme nest gap text = some found) : found.token.Spelled := by
  unfold lexeme at scanned
  split at scanned
  · cases scanned
  · split at scanned
    · split at scanned
      · cases scanned
      · cases scanned
        exact Token.spelled_of_kind (by simp)
    · split at scanned
      · exact literalLexeme_spelled scanned
      · split at scanned
        · exact wordLexeme_spelled scanned
        · exact symbolLexeme_spelled scanned

theorem templateLexeme_spelled {quotation : Quotation} {inSpecification : Bool} {outer : List Nest}
    {text : Text} {found : Lexeme}
    (scanned : templateLexeme quotation inSpecification outer text = some found) :
    found.token.Spelled := by
  unfold templateLexeme at scanned
  split at scanned
  · cases scanned
    exact Token.spelled_of_kind (by simp)
  · cases scanned
    exact Token.spelled_of_kind (by simp)
  · split at scanned
    · cases scanned
      exact Token.spelled_of_kind (by simp)
    · cases scanned
  · split at scanned
    · cases scanned
      exact Token.spelled_of_kind (by simp)
    · cases scanned

theorem bracketStep_spelled {context : LineContext} {nest : List Nest} {text : Text}
    {found : Lexeme} (scanned : bracketStep context nest text = some (.go found)) :
    found.token.Spelled := by
  unfold bracketStep at scanned
  rcases Option.map_eq_some_iff.1 scanned with ⟨next, same, wrapped⟩
  cases wrapped
  exact lexeme_spelled same

theorem lineStep_spelled {context : LineContext} {nest : List Nest} {text : Text} {found : Lexeme}
    (scanned : lineStep context nest text = some (.go found)) : found.token.Spelled := by
  unfold lineStep at scanned
  split at scanned
  · dsimp only at scanned
    split at scanned
    · cases scanned
    · split at scanned <;> cases scanned
    · rcases Option.map_eq_some_iff.1 scanned with ⟨next, same, wrapped⟩
      cases wrapped
      exact lexeme_spelled same
  · split at scanned
    · exact bracketStep_spelled scanned
    · rcases Option.map_eq_some_iff.1 scanned with ⟨next, same, wrapped⟩
      cases wrapped
      exact templateLexeme_spelled same
  · exact bracketStep_spelled scanned

/-! ## Lines -/

theorem logicalLine_spelled {context : LineContext} {fuel : Nat} {nest : List Nest} {text : Text}
    {tokens : List Token} {ending : LineEnd} {after : Text}
    (scanned : logicalLine context fuel nest text = some (tokens, ending, after)) :
    ∀ token ∈ tokens, token.Spelled := by
  induction fuel generalizing nest text tokens with
  | zero => cases scanned
  | succ fuel ih =>
    unfold logicalLine at scanned
    split at scanned
    · cases scanned
    · cases scanned
      simp
    case h_3 token inner rest step =>
      split at scanned
      · cases scanned
      case h_2 later finish behind more =>
        cases scanned
        rw [List.forall_mem_cons]
        exact ⟨lineStep_spelled step, ih more⟩

theorem exists_logicalLine {usual : Text} {fuel number : Nat} {stack : List Indentation}
    {above : List BlankLine} {text : Text} {lines : List LogicalLine} {after : List BlankLine}
    (scanned : logicalLines usual fuel number stack above text = some (lines, after)) :
    ∀ line ∈ lines, ∃ context fuel rest ending behind,
      logicalLine context fuel [] rest = some (line.tokens, ending, behind) := by
  induction fuel generalizing number stack above text lines with
  | zero => cases scanned
  | succ fuel ih =>
    unfold logicalLines at scanned
    split at scanned
    · exact ih scanned
    · split at scanned
      · cases scanned
        simp
      · dsimp only at scanned
        split at scanned
        · cases scanned
        · cases scanned
        · split at scanned
          · cases scanned
          · cases scanned
          case h_3 tokens ending next some_token read =>
            split at scanned
            · cases scanned
            case h_2 later behind more =>
              cases scanned
              rw [List.forall_mem_cons]
              exact ⟨⟨_, _, _, _, _, read⟩, ih more⟩

theorem logicalLines_spelled {usual : Text} {fuel number : Nat} {stack : List Indentation}
    {above : List BlankLine} {text : Text} {lines : List LogicalLine} {after : List BlankLine}
    (scanned : logicalLines usual fuel number stack above text = some (lines, after)) :
    ∀ line ∈ lines, ∀ token ∈ line.tokens, token.Spelled := by
  intro line member
  rcases exists_logicalLine scanned line member with ⟨context, fuel, rest, ending, behind, read⟩
  exact logicalLine_spelled read

end Source
end OpenRecord
