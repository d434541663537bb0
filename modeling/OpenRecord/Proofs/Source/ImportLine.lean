import Mathlib.Data.List.TakeWhile
import OpenRecord.Proofs.Source.OpeningWords
import OpenRecord.Proofs.Source.Spelling

namespace OpenRecord
namespace Source

/-!
# The line of an import

The import of a module is written as a text and read again as a statement.  For every name that could
stand in a program it is read as one line with nothing on it but the import of that name under itself.
A name with a dot, or a reserved word, is no such name.
-/

def importTokens (name : Text) : List Token :=
  [⟨[], .keyword .importWord, "import"⟩, ⟨[.chars [' ']], .name, name⟩]

def importLine (name : Text) : Statement :=
  .simple [] [⟨importTokens name, .imports [⟨name, none⟩], none⟩] ⟨[], .usual⟩

/-! ## The end of a text -/

theorem lexeme_of_isName {nest : List Nest} {gap : List Piece} {name : Text}
    (named : name.IsName) : lexeme nest gap name = some ⟨⟨gap, .name, name⟩, nest, []⟩ := by
  rcases named with ⟨identifier, free⟩
  have spelled := Text.chars_of_isIdentifier identifier
  have word : ∀ x ∈ name, isWordChar x = true :=
    fun x member => isWordChar_of_isNameContinue (spelled.2 x member)
  rcases List.exists_cons_of_ne_nil spelled.1 with ⟨first, later, rfl⟩
  have letter : Text.isAsciiDigit first = false := by
    rw [Text.isIdentifier, Bool.and_eq_true] at identifier
    exact isAsciiDigit_of_isNameStart identifier.1
  rw [lexeme_word (word first (List.mem_cons_self ..)) letter]
  simp only [wordLexeme, List.takeWhile_eq_self_iff.2 word, List.dropWhile_eq_nil_iff.2 word,
    List.head?_nil, Option.any_none, Bool.false_eq_true, if_false, free, identifier, if_true]

theorem logicalLines_alone {usual : Text} {fuel number : Nat} {c : Char} {rest : Text}
    {first : Token} {later : List Token} {ending : LineEnd} (start : StartsToken c)
    (line : logicalLine ⟨usual, []⟩ (rest.length + 2) [] (c :: rest) =
      some (first :: later, ending, [])) :
    logicalLines usual (fuel + 2) number [⟨[], 0, 0⟩] [] (c :: rest) =
      some ([⟨[], [], 0, number, first :: later, ending⟩], []) := by
  have level : reindentStack (.measure []) [⟨[], 0, 0⟩] = some [⟨[], 0, 0⟩] := by rfl
  have blank : ∀ x ∈ ([] : Text), Text.isIndent x = true := nofun
  have solid : blankLine usual (c :: rest) = none := blankLine_append blank start
  have margin : (c :: rest).takeWhile Text.isIndent = [] := takeWhile_isIndent blank start
  have behind : (c :: rest).dropWhile Text.isIndent = c :: rest := dropWhile_isIndent blank start
  unfold logicalLines
  rw [solid]
  simp only [reduceCtorEq, if_false, margin, behind, level, List.length_cons, line]
  rfl

/-! ## Reading the line -/

theorem logicalLine_import {name : Text} (named : name.IsName) (context : LineContext)
    (fuel : Nat) :
    logicalLine context (fuel + 3) [] (("import" : Text) ++ ' ' :: name) =
      some (importTokens name, ⟨[], .usual⟩, []) := by
  have spelled := Text.chars_of_isIdentifier named.1
  have keyword : lexeme [] [] (("import" : Text) ++ ' ' :: name) =
      some ⟨⟨[], .keyword .importWord, "import"⟩, [], ' ' :: name⟩ := by
    have word : ∀ x ∈ ("import" : Text), isWordChar x = true :=
      List.all_eq_true.1 (by decide)
    have scanned : lexeme [] [] (("import" : Text) ++ ' ' :: name) =
        wordLexeme [] [] (("import" : Text) ++ ' ' :: name) := lexeme_word (by decide) (by decide)
    rw [scanned, wordLexeme_append word (by decide) (by decide)]
    rfl
  have reserved : lineStep context [] (("import" : Text) ++ ' ' :: name) =
      some (.go ⟨⟨[], .keyword .importWord, "import"⟩, [], ' ' :: name⟩) := by
    have opens : StartsToken 'i' := startsToken_of_isWordChar (by decide)
    change lineStep context [] ([] ++ 'i' :: (("mport" : Text) ++ ' ' :: name)) = _
    rw [lineStep_append (by simp) opens]
    exact congrArg (Option.map LineStep.go) keyword
  have bound : lineStep context [] (' ' :: name) =
      some (.go ⟨⟨[.chars [' ']], .name, name⟩, [], []⟩) := by
    have blank : ∀ x ∈ [' '], Text.isIndent x = true := by simp [Text.isIndent]
    rcases List.exists_cons_of_ne_nil spelled.1 with ⟨first, later, rfl⟩
    have start : StartsToken first := startsToken_of_isWordChar
      (isWordChar_of_isNameContinue (spelled.2 first (List.mem_cons_self ..)))
    rw [← List.singleton_append, lineStep_append blank start, lexeme_of_isName named]
    rfl
  have ended : logicalLine context (fuel + 1) [] [] = some ([], ⟨[], .usual⟩, []) := by rfl
  exact logicalLine_go reserved (logicalLine_go bound ended)

/-- The text that imports a module of a plain name is read as the line that imports it. -/
theorem parse?_import {name : Text} (named : name.IsName) :
    Statement.parse? ("import " ++ name) = some (importLine name) := by
  have opens : StartsToken 'i' := startsToken_of_isWordChar (by decide)
  have scanned : lexLines (("import " : Text) ++ name) =
      some ([⟨[], [], 0, 1, importTokens name, ⟨[], .usual⟩⟩], []) :=
    logicalLines_alone opens (logicalLine_import named _ _)
  change (lexLines (("import " : Text) ++ name)).bind _ = _
  rw [scanned]
  rfl

end Source
end OpenRecord
