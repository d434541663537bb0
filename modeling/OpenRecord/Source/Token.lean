import OpenRecord.Text.Lines

namespace OpenRecord
namespace Source

/-!
# Tokens of a source file

A token is kept together with everything that stands between it and the token before it, so that
the tokens of a line spell the line.  What stands between tokens is a list of *pieces*.  Two
kinds of piece are not spelled out, because they change when a statement moves to another place:
a line break that is the usual one of its file, and the margin of a continued line, which is the
indentation of the block that the line stands in.
-/

inductive Keyword
  | falseWord
  | noneWord
  | trueWord
  | andWord
  | asWord
  | assertWord
  | asyncWord
  | awaitWord
  | breakWord
  | classWord
  | continueWord
  | defWord
  | delWord
  | elifWord
  | elseWord
  | exceptWord
  | finallyWord
  | forWord
  | fromWord
  | globalWord
  | ifWord
  | importWord
  | inWord
  | isWord
  | lambdaWord
  | nonlocalWord
  | notWord
  | orWord
  | passWord
  | raiseWord
  | returnWord
  | tryWord
  | whileWord
  | withWord
  | yieldWord
deriving DecidableEq

def Keyword.spellings : List (Text × Keyword) :=
  [(['F', 'a', 'l', 's', 'e'], .falseWord), (['N', 'o', 'n', 'e'], .noneWord),
    (['T', 'r', 'u', 'e'], .trueWord), (['a', 'n', 'd'], .andWord), (['a', 's'], .asWord),
    (['a', 's', 's', 'e', 'r', 't'], .assertWord), (['a', 's', 'y', 'n', 'c'], .asyncWord),
    (['a', 'w', 'a', 'i', 't'], .awaitWord), (['b', 'r', 'e', 'a', 'k'], .breakWord),
    (['c', 'l', 'a', 's', 's'], .classWord),
    (['c', 'o', 'n', 't', 'i', 'n', 'u', 'e'], .continueWord), (['d', 'e', 'f'], .defWord),
    (['d', 'e', 'l'], .delWord), (['e', 'l', 'i', 'f'], .elifWord),
    (['e', 'l', 's', 'e'], .elseWord), (['e', 'x', 'c', 'e', 'p', 't'], .exceptWord),
    (['f', 'i', 'n', 'a', 'l', 'l', 'y'], .finallyWord), (['f', 'o', 'r'], .forWord),
    (['f', 'r', 'o', 'm'], .fromWord), (['g', 'l', 'o', 'b', 'a', 'l'], .globalWord),
    (['i', 'f'], .ifWord), (['i', 'm', 'p', 'o', 'r', 't'], .importWord), (['i', 'n'], .inWord),
    (['i', 's'], .isWord), (['l', 'a', 'm', 'b', 'd', 'a'], .lambdaWord),
    (['n', 'o', 'n', 'l', 'o', 'c', 'a', 'l'], .nonlocalWord), (['n', 'o', 't'], .notWord),
    (['o', 'r'], .orWord), (['p', 'a', 's', 's'], .passWord),
    (['r', 'a', 'i', 's', 'e'], .raiseWord), (['r', 'e', 't', 'u', 'r', 'n'], .returnWord),
    (['t', 'r', 'y'], .tryWord), (['w', 'h', 'i', 'l', 'e'], .whileWord),
    (['w', 'i', 't', 'h'], .withWord), (['y', 'i', 'e', 'l', 'd'], .yieldWord)]

/-- The reserved word that a text spells, if it spells one. -/
def Keyword.ofText? (text : Text) : Option Keyword :=
  (spellings.find? (·.1 == text)).map (·.2)

/-- The punctuation and operators.  Operators that no rule tells apart share a constructor. -/
inductive Symbol
  | openRound
  | closeRound
  | openSquare
  | closeSquare
  | openCurly
  | closeCurly
  | comma
  | colon
  | semicolon
  | dot
  | ellipsis
  | arrow
  | at
  | tilde
  | bang
  | plusOrMinus (negative : Bool)
  | star
  | doubleStar
  | slash
  | multiplicative
  | shift
  | bar
  | caret
  | ampersand
  | comparison
  | equal
  | walrus
  | augmented
deriving DecidableEq

/-- A line break: the usual one of the file, or another one as it was written. -/
inductive LineBreak
  | usual
  | written (chars : Text)
deriving DecidableEq

/-- A line break read in a file whose usual one is given. -/
def LineBreak.read (usual found : Text) : LineBreak :=
  if found = usual then .usual else .written found

/-- What may stand between two tokens. -/
inductive Piece
  | chars (text : Text)
  | lineBreak (which : LineBreak)
  | margin
deriving DecidableEq

/-- A run of characters as pieces; no piece for no characters. -/
def Piece.run (text : Text) : List Piece :=
  if text = [] then [] else [.chars text]

/-- What a token is to the grammar.  A literal with replacement fields is a sequence of tokens:
its opening, its stretches of text, the tokens of its fields, and its closing mark. -/
inductive TokenKind
  | name
  | keyword (word : Keyword)
  | symbol (which : Symbol)
  | number
  | literal
  | templateOpen
  | templateText
  | templateClose
deriving DecidableEq

structure Token where
  gap : List Piece
  kind : TokenKind
  text : Text
deriving DecidableEq

/-- The end of a line: blanks and a comment, then a break. -/
structure LineEnd where
  chars : Text
  lineBreak : LineBreak
deriving DecidableEq

structure BlankLine where
  chars : Text
  lineBreak : LineBreak
deriving DecidableEq

/-- The tokens up to a line break outside all brackets, with the blank lines above them.
`indent` is the indentation of the block that the line stands in and `depth` the number of
blocks around that block. `number` is the place of its first token among the lines of the file. -/
structure LogicalLine where
  above : List BlankLine
  indent : Text
  depth : Nat
  number : Nat
  tokens : List Token
  ending : LineEnd
deriving DecidableEq

/-! ## Printing -/

/-- The two things that the printed form of a piece depends on. -/
structure Layout where
  indent : Text
  newline : Text
deriving DecidableEq

/-- The layout inside a block that is indented further. -/
def Layout.deeper (layout : Layout) (indent : Text) : Layout :=
  { layout with indent := layout.indent ++ indent }

def LineBreak.print (layout : Layout) : LineBreak → Text
  | .usual => layout.newline
  | .written chars => chars

def Piece.print (layout : Layout) : Piece → Text
  | .chars text => text
  | .lineBreak which => which.print layout
  | .margin => layout.indent

def Token.print (layout : Layout) (token : Token) : Text :=
  token.gap.flatMap (·.print layout) ++ token.text

/-- The characters of consecutive tokens. -/
def printTokens (layout : Layout) (tokens : List Token) : Text :=
  tokens.flatMap (·.print layout)

def LineEnd.print (layout : Layout) (ending : LineEnd) : Text :=
  ending.chars ++ ending.lineBreak.print layout

/-- Tokens without what stands before the first of them. -/
def withoutFirstGap : List Token → List Token
  | [] => []
  | first :: later => { first with gap := [] } :: later

/-- A printed sequence of tokens is printed piece by piece. -/
theorem printTokens_append (layout : Layout) (front back : List Token) :
    printTokens layout (front ++ back) = printTokens layout front ++ printTokens layout back := by
  simp [printTokens]

/-- A break read in a file prints back under the usual break of that file. -/
theorem LineBreak.print_read (layout : Layout) (found : Text) :
    (LineBreak.read layout.newline found).print layout = found := by
  unfold LineBreak.read
  split <;> simp_all [LineBreak.print]

end Source
end OpenRecord
