import OpenRecord.Source.Item
import OpenRecord.Source.Lexer
import OpenRecord.Source.Outline

namespace OpenRecord
namespace Source

/-!
# The tree of a source file

The tree holds every character of a file, so that printing it gives the file back.  Statements keep
the blank lines above them and blocks those at their foot.  The indentation of a statement is not
stored: it is the sum of the indentations of the blocks around it, and a statement that is put into
another block is printed at the indentation of that block.
-/

/-- A blank or comment line.  If it started with the indentation of its block, it moves with the
block. -/
structure Line where
  margin : Bool
  chars : Text
  lineBreak : LineBreak
deriving DecidableEq

def Line.empty : Line :=
  ⟨false, [], .usual⟩

/-- A blank line as seen from a block. -/
def Line.within (indent : Text) (blank : BlankLine) : Line :=
  if indent.isPrefixOf blank.chars then
    ⟨true, blank.chars.drop indent.length, blank.lineBreak⟩
  else ⟨false, blank.chars, blank.lineBreak⟩

/-- Where a definition starts: its line counted from one, and its column counted from zero. -/
structure Position where
  line : Nat
  column : Nat
deriving DecidableEq

structure Decorator where
  above : List Line
  tokens : List Token
  expression : Expression
  ending : LineEnd

/-- A class or function definition without its body.  `above` are the lines above the first
decorator, or above the definition if it has none. -/
structure Definition where
  above : List Line
  decorators : List Decorator
  belowDecorators : List Line
  tokens : List Token
  role : Role
  position : Position

mutual

inductive Statement
  | simple (above : List Line) (items : List Item) (ending : LineEnd)
  | definition (head : Definition) (body : Suite)
  | compound (clauses : List Clause)

/-- What stands behind the colon of a header: statements on the same line, an indented block, or,
for a `match` header only, indented cases. -/
inductive Suite
  | inline (items : List Item) (ending : LineEnd)
  | block (opening : LineEnd) (indent : Text) (body : List Statement) (foot : List Line)
  | cases (opening : LineEnd) (indent : Text) (clauses : List Clause) (foot : List Line)

/-- A clause of a compound statement. -/
inductive Clause
  | clause (kind : ClauseKind) (above : List Line) (tokens : List Token) (suite : Suite)

end

def Clause.kind : Clause → ClauseKind
  | .clause kind _ _ _ => kind

structure SourceFile where
  header : List Line
  body : List Statement
  footer : List Line
  /-- The indentation of the first block. -/
  defaultIndent : Text
  /-- The usual line break. -/
  newline : Text
  endsWithBreak : Bool

/-! ## Printing -/

/-- A blank or comment line. -/
def Line.print (layout : Layout) (line : Line) : Text :=
  (if line.margin then layout.indent else []) ++ line.chars ++ line.lineBreak.print layout

/-- Consecutive blank or comment lines. -/
def printLines (layout : Layout) (lines : List Line) : Text :=
  lines.flatMap (·.print layout)

/-- A small statement and the semicolon behind it. -/
def Item.print (layout : Layout) (item : Item) : Text :=
  printTokens layout (item.tokens ++ item.separator.toList)

/-- Small statements on one line. -/
def printItems (layout : Layout) (items : List Item) : Text :=
  items.flatMap (·.print layout)

def Decorator.print (layout : Layout) (decorator : Decorator) : Text :=
  printLines layout decorator.above ++ layout.indent ++ printTokens layout decorator.tokens ++
    decorator.ending.print layout

def Definition.print (layout : Layout) (head : Definition) : Text :=
  printLines layout head.above ++ head.decorators.flatMap (·.print layout) ++
    printLines layout head.belowDecorators ++ layout.indent ++ printTokens layout head.tokens

mutual

def Statement.print (layout : Layout) : Statement → Text
  | .simple above items ending =>
    printLines layout above ++ layout.indent ++ printItems layout items ++ ending.print layout
  | .definition head body => head.print layout ++ body.print layout
  | .compound clauses => printClauses layout clauses

/-- The characters behind a colon. -/
def Suite.print (layout : Layout) : Suite → Text
  | .inline items ending => printItems layout items ++ ending.print layout
  | .block opening indent body foot =>
    opening.print layout ++ printStatements (layout.deeper indent) body ++
      printLines (layout.deeper indent) foot
  | .cases opening indent clauses foot =>
    opening.print layout ++ printClauses (layout.deeper indent) clauses ++
      printLines (layout.deeper indent) foot

def Clause.print (layout : Layout) : Clause → Text
  | .clause _ above tokens suite =>
    printLines layout above ++ layout.indent ++ printTokens layout tokens ++ suite.print layout

/-- The characters of consecutive statements. -/
def printStatements (layout : Layout) : List Statement → Text
  | [] => []
  | first :: later => first.print layout ++ printStatements layout later

/-- The characters of consecutive clauses. -/
def printClauses (layout : Layout) : List Clause → Text
  | [] => []
  | first :: later => first.print layout ++ printClauses layout later

end

/-- The characters of a file.  A file that did not end with a line feed loses its last break. -/
def SourceFile.print (file : SourceFile) : Text :=
  let layout : Layout := ⟨[], file.newline⟩
  let text := printLines layout file.header ++ printStatements layout file.body ++
    printLines layout file.footer
  if !file.endsWithBreak then Text.dropFinalBreak text
  else if text = [] then file.newline
  else text

/-! ## Building the tree -/

/-- What an outline contributes to the statements around it. -/
inductive Part
  | statement (statement : Statement)
  | decorator (decorator : Decorator)
  /-- A definition whose lines above are still to be divided among its decorators. -/
  | definition (head : Definition) (body : Suite)
  | clause (clause : Clause)

/-- Whether a clause of a kind may come first. -/
def ClauseKind.opens : ClauseKind → Bool
  | .ifClause => true
  | .forClause => true
  | .whileClause => true
  | .tryClause => true
  | .withClause => true
  | .matchClause => true
  | _ => false

/-- Whether a clause of a kind may follow clauses of which the first and the last are given. -/
def ClauseKind.follows (first last next : ClauseKind) : Bool :=
  match first, last, next with
  | .ifClause, .ifClause, .elifClause => true
  | .ifClause, .elifClause, .elifClause => true
  | .ifClause, .ifClause, .elseClause => true
  | .ifClause, .elifClause, .elseClause => true
  | .forClause, .forClause, .elseClause => true
  | .whileClause, .whileClause, .elseClause => true
  | .tryClause, .tryClause, .exceptClause => true
  | .tryClause, .exceptClause, .exceptClause => true
  | .tryClause, .tryClause, .exceptGroupClause => true
  | .tryClause, .exceptGroupClause, .exceptGroupClause => true
  | .tryClause, .exceptClause, .elseClause => true
  | .tryClause, .exceptGroupClause, .elseClause => true
  | .tryClause, .tryClause, .finallyClause => true
  | .tryClause, .exceptClause, .finallyClause => true
  | .tryClause, .exceptGroupClause, .finallyClause => true
  | .tryClause, .elseClause, .finallyClause => true
  | _, _, _ => false

/-- A compound statement of collected clauses, if there are any; a `try` clause cannot stand alone. -/
def closeClauses : List Clause → Option (List Statement)
  | [] => some []
  | [only] => if only.kind = .tryClause then none else some [.compound [only]]
  | clauses => some [.compound clauses]

/-- Whether a clause goes on with the collected ones. -/
def extendsClauses (clauses : List Clause) (next : Clause) : Bool :=
  match clauses.head?, clauses.getLast? with
  | some first, some last => first.kind.follows last.kind next.kind
  | _, _ => false

/-- A definition below its decorators.  The lines above the first decorator become those of the
definition, and its own lines stand below the last decorator. -/
def Definition.decorated (head : Definition) : List Decorator → Definition
  | [] => head
  | first :: later =>
    { head with
      above := first.above
      decorators := { first with above := [] } :: later
      belowDecorators := head.above }

/-- Group decorators with their definitions and clauses into compound statements. -/
def assemble (decorators : List Decorator) (clauses : List Clause) :
    List Part → Option (List Statement)
  | [] => if decorators.isEmpty then closeClauses clauses else none
  | .decorator next :: later => do
    let closed ← closeClauses clauses
    let others ← assemble (decorators ++ [next]) [] later
    some (closed ++ others)
  | .definition head body :: later => do
    let closed ← closeClauses clauses
    let others ← assemble [] [] later
    some (closed ++ .definition (head.decorated decorators) body :: others)
  | .statement next :: later =>
    if decorators.isEmpty then do
      let closed ← closeClauses clauses
      let others ← assemble [] [] later
      some (closed ++ next :: others)
    else none
  | .clause next :: later =>
    if !decorators.isEmpty then none
    else if extendsClauses clauses next then assemble [] (clauses ++ [next]) later
    else if next.kind.opens then do
      let closed ← closeClauses clauses
      let others ← assemble [] [next] later
      some (closed ++ others)
    else none

/-- The clauses among parts that are nothing but cases. -/
def casesOnly : List Part → Option (List Clause)
  | [] => some []
  | .clause next :: later => (casesOnly later).map (next :: ·)
  | _ => none

def Head.part (line : LogicalLine) (tokens : List Token) (suite : Suite) : Head → Option Part
  | .decorator _ => none
  | .definition role =>
    some <| .definition
      ⟨line.above.map (.within line.indent), [], [], tokens, role,
        ⟨line.number, line.indent.length⟩⟩ suite
  | .clause kind => some (.clause (.clause kind (line.above.map (.within line.indent)) tokens suite))

/-- The indentation of a block relative to the line above it. -/
def relativeIndent (line : LogicalLine) : List Outline → Text
  | [] => []
  | first :: _ => first.line.indent.drop line.indent.length

/-- The blank lines at the foot of a block, as seen from the block. -/
def footLines (children : List Outline) (foot : List BlankLine) : List Line :=
  match children with
  | [] => []
  | first :: _ => foot.map (.within first.line.indent)

mutual

def Outline.read (amongCases : Bool) : Outline → Option Part
  | .node line children foot => do
    let above := line.above.map (Line.within line.indent)
    match ← readLine amongCases line.tokens with
    | .items items => do
      if !children.isEmpty then none
      some (.statement (.simple above items line.ending))
    | .header (.decorator value) tokens _ => do
      if !children.isEmpty then none
      some (.decorator ⟨above, tokens, value, line.ending⟩)
    | .header head tokens (first :: later) => do
      if !children.isEmpty then none
      head.part line tokens (.inline (first :: later) line.ending)
    | .header (.clause .matchClause) tokens [] => do
      if children.isEmpty then none
      let parts ← readOutlines true children
      let clauses ← casesOnly parts
      Head.part line tokens
        (.cases line.ending (relativeIndent line children) clauses (footLines children foot))
        (.clause .matchClause)
    | .header head tokens [] => do
      if children.isEmpty then none
      let parts ← readOutlines false children
      let body ← assemble [] [] parts
      head.part line tokens
        (.block line.ending (relativeIndent line children) body (footLines children foot))

def readOutlines (amongCases : Bool) : List Outline → Option (List Part)
  | [] => some []
  | first :: later => do
    let part ← first.read amongCases
    let parts ← readOutlines amongCases later
    some (part :: parts)

end

/-- The statements of a file, with its header and footer. -/
def readStatements (lines : List LogicalLine) (after : List BlankLine) :
    Option (List Line × List Statement × List Line) := do
  match Forest.ofLines lines after with
  | ⟨[], after⟩ => some (after.map (.within []), [], [])
  | ⟨first :: later, after⟩ =>
    if (first :: later).any fun root => root.line.depth != 0 then none
    let parts ← readOutlines false (first.withAbove [] :: later)
    let body ← assemble [] [] parts
    some (first.line.above.map (.within []), body, after.map (.within []))

/-- The indentation of the first line that is deeper than the file; four spaces if there is none. -/
def firstIndent (lines : List LogicalLine) : Text :=
  match lines.find? (0 < ·.depth) with
  | some line => line.indent
  | none => [' ', ' ', ' ', ' ']

/-- Whether a text ends with a line feed that no backslash stands before. -/
def endsWithLineFeed (text : Text) : Bool :=
  match text.reverse with
  | '\n' :: '\x5c' :: _ => false
  | '\n' :: '\r' :: '\x5c' :: _ => false
  | '\n' :: _ => true
  | _ => false

def SourceFile.parse? (text : Text) : Option SourceFile := do
  let text := withoutByteOrderMark text
  let (lines, after) ← lexLines text
  let (header, body, footer) ← readStatements lines after
  some ⟨header, body, footer, firstIndent lines, usualBreak text, endsWithLineFeed text⟩

/-- Read a text that holds exactly one statement. -/
def Statement.parse? (text : Text) : Option Statement := do
  let (lines, after) ← lexLines (withoutByteOrderMark text)
  match ← readStatements lines after with
  | (_, [statement], _) => some statement
  | _ => none

/-- Read a text that holds exactly one expression, and its tokens. -/
def Expression.parse? (text : Text) : Option (Expression × List Token) := do
  let (lines, _) ← lexLines (withoutByteOrderMark text)
  match lines with
  | [line] =>
    if line.depth != 0 then none
    let (value, rest) ← starExpressions (grammarFuel line.tokens) line.tokens
    if rest.isEmpty then some (value, line.tokens) else none
  | _ => none

end Source
end OpenRecord
