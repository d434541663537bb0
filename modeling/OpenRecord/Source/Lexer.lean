import OpenRecord.Source.Literal
import OpenRecord.Source.Token
import OpenRecord.Text.Blank

namespace OpenRecord
namespace Source

/-!
# From characters to logical lines

A file is read as a list of logical lines.  Scanning keeps the stack of open indentations, because
the margin of a continued line is the indentation of the innermost open block, and the stack of
open brackets, because a line break inside brackets ends no logical line.

The fuel of each loop bounds the number of its steps, each of which takes at least one character
away; the loops are started with one more than the number of characters.
-/

/-! ## Between tokens -/

/-- Blanks and continued line ends at the front of a text. -/
def blankRun : Text → Text × Text
  | '\x5c' :: '\r' :: '\n' :: rest => push ['\x5c', '\r', '\n'] (blankRun rest)
  | '\x5c' :: '\n' :: rest => push ['\x5c', '\n'] (blankRun rest)
  | '\x5c' :: '\r' :: rest => push ['\x5c', '\r'] (blankRun rest)
  | c :: rest => if Text.isIndent c then push [c] (blankRun rest) else ([], c :: rest)
  | [] => ([], [])
where
  /-- Put characters in front of the run. -/
  push (front : Text) : Text × Text → Text × Text
    | (run, rest) => (front ++ run, rest)

/-- A comment at the front of a text, up to the line break. -/
def comment (text : Text) : Text × Text :=
  match text with
  | '#' :: _ => (text.takeWhile (!Text.isBreak ·), text.dropWhile (!Text.isBreak ·))
  | _ => ([], text)

/-- What reading a file takes from its beginning and its blocks: the usual line break, and the
indentation of the innermost open block. -/
structure LineContext where
  usual : Text
  indent : Text

/-- What stands before the next token inside brackets, where comments and line breaks are blank.  A
line that starts with the indentation of the block has it as its margin. -/
def bracketGap (context : LineContext) : Nat → Text → List Piece × Text
  | 0, text => ([], text)
  | fuel + 1, text =>
    match blankRun text with
    | (blanks, afterBlanks) =>
      match comment afterBlanks with
      | (remark, afterRemark) =>
        match Text.splitBreak afterRemark with
        | none => (Piece.run (blanks ++ remark), afterRemark)
        | some (found, next) =>
          let ending := Piece.run (blanks ++ remark) ++ [.lineBreak (.read context.usual found)]
          if context.indent.isPrefixOf next then
            match bracketGap context fuel (next.drop context.indent.length) with
            | (pieces, rest) => (ending ++ .margin :: pieces, rest)
          else
            match bracketGap context fuel next with
            | (pieces, rest) => (ending ++ pieces, rest)

/-! ## Tokens -/

/-- An open bracket, or an open part of a literal with replacement fields. -/
inductive Nest
  | bracket (closer : Symbol)
  | template (quotation : Quotation) (inSpecification : Bool)
  | field (quotation : Quotation)

/-- The symbols and their characters.  Of two that start alike the longer one stands first. -/
def symbols : List (Symbol × Text) :=
  [(.augmented, ['*', '*', '=']), (.augmented, ['/', '/', '=']), (.augmented, ['<', '<', '=']),
    (.augmented, ['>', '>', '=']), (.ellipsis, ['.', '.', '.']), (.doubleStar, ['*', '*']),
    (.multiplicative, ['/', '/']), (.shift, ['<', '<']), (.shift, ['>', '>']),
    (.comparison, ['<', '=']), (.comparison, ['>', '=']), (.comparison, ['=', '=']),
    (.comparison, ['!', '=']), (.arrow, ['-', '>']), (.walrus, [':', '=']),
    (.augmented, ['+', '=']), (.augmented, ['-', '=']), (.augmented, ['*', '=']),
    (.augmented, ['/', '=']), (.augmented, ['%', '=']), (.augmented, ['&', '=']),
    (.augmented, ['|', '=']), (.augmented, ['^', '=']), (.augmented, ['@', '=']),
    (.openRound, ['(']), (.closeRound, [')']), (.openSquare, ['[']), (.closeSquare, [']']),
    (.openCurly, ['{']), (.closeCurly, ['}']), (.comma, [',']), (.colon, [':']),
    (.semicolon, [';']), (.dot, ['.']), (.at, ['@']), (.tilde, ['~']), (.plusOrMinus false, ['+']),
    (.plusOrMinus true, ['-']), (.star, ['*']), (.slash, ['/']), (.multiplicative, ['%']),
    (.bar, ['|']), (.caret, ['^']), (.ampersand, ['&']), (.comparison, ['<']),
    (.comparison, ['>']), (.equal, ['='])]

/-- The symbol at the front of a text; the longest one wins. -/
def symbol (text : Text) : Option (Symbol × Text × Text) :=
  match symbols.find? (·.2.isPrefixOf text) with
  | some (which, chars) => some (which, chars, text.drop chars.length)
  | none => none

/-- A scanned token, the nesting behind it and the text behind it. -/
structure Lexeme where
  token : Token
  nest : List Nest
  rest : Text

/-- A symbol as a token.  An opening bracket must be closed by its own closer, and the exclamation
mark stands alone only at the top of a replacement field, where also a colon is always alone and
begins the format specification. -/
def symbolLexeme (nest : List Nest) (gap : List Piece) (text : Text) : Option Lexeme :=
  match nest, text with
  | .field q :: outer, ':' :: rest =>
    some ⟨⟨gap, .symbol .colon, [':']⟩, .template q true :: .field q :: outer, rest⟩
  | .field _ :: outer, '}' :: rest => some ⟨⟨gap, .symbol .closeCurly, ['}']⟩, outer, rest⟩
  | .field q :: outer, '!' :: next :: rest =>
    if next == '=' then some ⟨⟨gap, .symbol .comparison, ['!', '=']⟩, .field q :: outer, rest⟩
    else some ⟨⟨gap, .symbol .bang, ['!']⟩, .field q :: outer, next :: rest⟩
  | _, _ => do
    let (which, chars, rest) ← symbol text
    let token : Token := ⟨gap, .symbol which, chars⟩
    match which with
    | .openRound => some ⟨token, .bracket .closeRound :: nest, rest⟩
    | .openSquare => some ⟨token, .bracket .closeSquare :: nest, rest⟩
    | .openCurly => some ⟨token, .bracket .closeCurly :: nest, rest⟩
    | .closeRound => close token rest
    | .closeSquare => close token rest
    | .closeCurly => close token rest
    | _ => some ⟨token, nest, rest⟩
where
  /-- Close the innermost bracket, which must wait for this closer. -/
  close (token : Token) (rest : Text) : Option Lexeme :=
    match nest with
    | .bracket closer :: outer =>
      if token.kind = .symbol closer then some ⟨token, outer, rest⟩ else none
    | _ => none

def literalLexeme (nest : List Nest) (gap : List Piece) (letters : Text)
    (flavour : LiteralFlavour) (text : Text) : Option Lexeme :=
  match text with
  | [] => none
  | mark :: rest =>
    let triple := [mark, mark].isPrefixOf rest
    let opening := if triple then [mark, mark, mark] else [mark]
    let body := if triple then rest.drop 2 else rest
    if flavour.template then
      some ⟨⟨gap, .templateOpen, letters ++ opening⟩,
        .template ⟨mark, triple, flavour.raw⟩ false :: nest, body⟩
    else
      match if triple then tripleQuoted mark body else singleQuoted mark body with
      | none => none
      | some (run, after) => some ⟨⟨gap, .literal, letters ++ opening ++ run⟩, nest, after⟩

def isMark (c : Char) : Bool :=
  c == '\x27' || c == '\x22'

/-- A character of a word before it is known whether the word is a name. -/
def isWordChar (c : Char) : Bool :=
  Text.isAsciiNameStart c || Text.isAsciiDigit c || 128 ≤ c.toNat

/-- A word: the letters of a literal, a reserved word or a name. -/
def wordLexeme (nest : List Nest) (gap : List Piece) (text : Text) : Option Lexeme :=
  let word := text.takeWhile isWordChar
  let rest := text.dropWhile isWordChar
  let flavour := if rest.head?.any isMark then LiteralFlavour.ofLetters? word else none
  match flavour with
  | some flavour => literalLexeme nest gap word flavour rest
  | none =>
    match Keyword.ofText? word with
    | some keyword => some ⟨⟨gap, .keyword keyword, word⟩, nest, rest⟩
    | none =>
      if Text.isIdentifier word then some ⟨⟨gap, .name, word⟩, nest, rest⟩ else none

/-- A token of the ordinary kind at the front of a text. -/
def lexeme (nest : List Nest) (gap : List Piece) (text : Text) : Option Lexeme :=
  match text with
  | [] => none
  | c :: rest =>
    if Text.isAsciiDigit c || (c == '.' && rest.head?.any Text.isAsciiDigit) then
      match number text with
      | none => none
      | some (digits, after) => some ⟨⟨gap, .number, digits⟩, nest, after⟩
    else if isMark c then literalLexeme nest gap [] ⟨false, false⟩ text
    else if isWordChar c then wordLexeme nest gap text
    else symbolLexeme nest gap text

/-- The next token of a template outside its fields: a stretch of text if there is one, else the
brace or mark that ends it. -/
def templateLexeme (quotation : Quotation) (inSpecification : Bool) (outer : List Nest)
    (text : Text) : Option Lexeme :=
  match templateText quotation inSpecification .plain text with
  | (c :: run, rest) =>
    some ⟨⟨[], .templateText, c :: run⟩, .template quotation inSpecification :: outer, rest⟩
  | ([], '{' :: rest) =>
    some ⟨⟨[], .symbol .openCurly, ['{']⟩,
      .field quotation :: .template quotation inSpecification :: outer, rest⟩
  | ([], '}' :: rest) =>
    match inSpecification, outer with
    | true, .field _ :: beyond => some ⟨⟨[], .symbol .closeCurly, ['}']⟩, beyond, rest⟩
    | _, _ => none
  | ([], rest) =>
    if !inSpecification && quotation.marks.isPrefixOf rest then
      some ⟨⟨[], .templateClose, quotation.marks⟩, outer, rest.drop quotation.marks.length⟩
    else none

/-- What comes next in a logical line: its end, or one more token. -/
inductive LineStep
  | stop (ending : LineEnd) (rest : Text)
  | go (lexeme : Lexeme)

/-- One more token inside brackets. -/
def bracketStep (context : LineContext) (nest : List Nest) (text : Text) : Option LineStep :=
  match bracketGap context (text.length + 1) text with
  | (gap, rest) => (lexeme nest gap rest).map .go

/-- A line ends at a break outside all brackets, or with the text.  No text ends directly behind a
continued line end.  A break in a format specification between single marks ends the
specification, but not its field. -/
def lineStep (context : LineContext) (nest : List Nest) (text : Text) : Option LineStep :=
  match nest with
  | [] =>
    match blankRun text with
    | (blanks, afterBlanks) =>
      match comment afterBlanks with
      | (remark, afterRemark) =>
        match afterRemark, Text.splitBreak afterRemark with
        | _, some (found, rest) => some (.stop ⟨blanks ++ remark, .read context.usual found⟩ rest)
        | [], none =>
          if remark = [] && blanks.getLast?.any Text.isBreak then none
          else some (.stop ⟨blanks ++ remark, .usual⟩ [])
        | _, none => (lexeme [] (Piece.run blanks) afterRemark).map .go
  | .template quotation inSpecification :: outer =>
    if inSpecification && !quotation.triple && (Text.splitBreak text).isSome then
      bracketStep context outer text
    else (templateLexeme quotation inSpecification outer text).map .go
  | nest => bracketStep context nest text

def logicalLine (context : LineContext) :
    Nat → List Nest → Text → Option (List Token × LineEnd × Text)
  | 0, _, _ => none
  | fuel + 1, nest, text =>
    match lineStep context nest text with
    | none => none
    | some (.stop ending rest) => some ([], ending, rest)
    | some (.go ⟨token, inner, rest⟩) =>
      match logicalLine context fuel inner rest with
      | none => none
      | some (tokens, ending, after) => some (token :: tokens, ending, after)

/-! ## Lines -/

/-- An open indentation: its characters, and its width when a tab reaches the next multiple of eight
and when a tab is one column.  Both widths have to agree about which of two lines is deeper. -/
structure Indentation where
  chars : Text
  wide : Nat
  narrow : Nat
deriving DecidableEq

/-- The widths of a run of blanks; a form feed starts the count again. -/
def Indentation.measure (chars : Text) : Indentation :=
  chars.foldl step ⟨chars, 0, 0⟩
where
  /-- Count one blank. -/
  step (sofar : Indentation) (c : Char) : Indentation :=
    if c == '\t' then { sofar with wide := (sofar.wide / 8 + 1) * 8, narrow := sofar.narrow + 1 }
    else if c == '\x0c' then { sofar with wide := 0, narrow := 0 }
    else { sofar with wide := sofar.wide + 1, narrow := sofar.narrow + 1 }

/-- The stack of open indentations at a line that starts with the given blanks: the line opens a
block, stays in the innermost one, or closes blocks down to one of exactly its width. -/
def reindentStack (line : Indentation) : List Indentation → Option (List Indentation)
  | [] => some [line]
  | top :: below =>
    if line.wide = top.wide then
      if line.narrow = top.narrow then some (top :: below) else none
    else if top.wide < line.wide then
      if top.narrow < line.narrow then some (line :: top :: below) else none
    else close (top :: below)
where
  /-- Close blocks until the innermost one has the width of the line. -/
  close : List Indentation → Option (List Indentation)
    | [] => none
    | top :: below =>
      if line.wide < top.wide then close below
      else if line.wide = top.wide && line.narrow = top.narrow then some (top :: below)
      else none

/-- A line without a token at the front of a text, and the text behind its break.  The last line of a
text may lack the break, but it cannot be a continued one. -/
def blankLine (usual text : Text) : Option (BlankLine × Text) :=
  match blankRun text with
  | (blanks, afterBlanks) =>
    match comment afterBlanks with
    | (remark, afterRemark) =>
      match afterRemark, Text.splitBreak afterRemark with
      | _, some (found, next) => some (⟨blanks ++ remark, .read usual found⟩, next)
      | [], none =>
        if text = [] || (remark = [] && blanks.getLast?.any Text.isBreak) then none
        else some (⟨blanks ++ remark, .usual⟩, [])
      | _, none => none

/-- The logical lines of a text, and the blank lines below the last of them. -/
def logicalLines (usual : Text) :
    Nat → Nat → List Indentation → List BlankLine → Text →
      Option (List LogicalLine × List BlankLine)
  | 0, _, _, _, _ => none
  | fuel + 1, number, stack, above, text =>
    match blankLine usual text with
    | some (line, next) =>
      logicalLines usual fuel (number + Text.breakCount line.chars + 1) stack (above ++ [line]) next
    | none =>
      if text = [] then some ([], above)
      else
        let blanks := text.takeWhile Text.isIndent
        let rest := text.dropWhile Text.isIndent
        match reindentStack (.measure blanks) stack with
        | none => none
        | some [] => none
        | some (top :: below) =>
          match logicalLine ⟨usual, top.chars⟩ (rest.length + 1) [] rest with
          | none => none
          | some ([], _, _) => none
          | some (tokens, ending, next) =>
            let consumed := rest.take (rest.length - next.length)
            let line : LogicalLine := ⟨above, top.chars, below.length, number, tokens, ending⟩
            match logicalLines usual fuel (number + Text.breakCount consumed) (top :: below) []
              next with
            | none => none
            | some (lines, after) => some (line :: lines, after)

/-- The usual line break of a text: the first one in it, a line feed if there is none. -/
def usualBreak (text : Text) : Text :=
  (Text.firstBreak text).getD ['\n']

def withoutByteOrderMark : Text → Text
  | '\ufeff' :: rest => rest
  | text => text

/-- A text as logical lines, and the blank lines at its end. -/
def lexLines (text : Text) : Option (List LogicalLine × List BlankLine) :=
  logicalLines (usualBreak text) (text.length + 1) 1 [⟨[], 0, 0⟩] [] text

end Source
end OpenRecord
