import OpenRecord.Source.Pattern

namespace OpenRecord
namespace Source

/-!
# Small statements and headers

A logical line holds either small statements with semicolons between them, or the header of a
compound statement with, possibly, small statements behind its colon.  What the library needs of a
small statement is which names it binds and how; this is its *form*.  Of a header it needs the
parts of class and function definitions, and of all others only their kind.
-/

/-- An imported name as written, its parts joined by dots, and the name that stands for it. -/
structure Alias where
  dotted : Text
  renamed : Option Text

/-- What a small statement is for. -/
inductive Form
  | value (expression : Expression)
  | assignment (targets : List Expression)
  /-- A target with a type expression and its tokens. -/
  | declaration (target : Expression) (type : Expression) (typeTokens : List Token)
  | imports (aliases : List Alias)
  /-- Names taken from a module, whose own name is missing when only dots are written; no names
  when all of them are taken. -/
  | importsFrom (origin : Option Text) (aliases : Option (List Alias))
  | plain

/-- A small statement with the semicolon behind it, if there is one. -/
structure Item where
  tokens : List Token
  form : Form
  separator : Option Token

structure TypeParameter where
  applied : Text
  tokens : List Token

structure ClassHead where
  name : Text
  typeParameters : List TypeParameter
  arguments : List Argument

structure FunctionHead where
  name : Text
  parameters : List Text

inductive Role
  | classDefinition (head : ClassHead)
  | functionDefinition (head : FunctionHead)

def Role.name : Role → Text
  | .classDefinition head => head.name
  | .functionDefinition head => head.name

/-- The kinds of clauses that compound statements are made of, definitions apart. -/
inductive ClauseKind
  | ifClause
  | elifClause
  | elseClause
  | forClause
  | whileClause
  | tryClause
  | exceptClause
  | exceptGroupClause
  | finallyClause
  | withClause
  | matchClause
  | caseClause
deriving DecidableEq

inductive Head
  | decorator (expression : Expression)
  | definition (role : Role)
  | clause (kind : ClauseKind)

/-- A logical line read by the grammar. -/
inductive ReadLine
  | items (items : List Item)
  /-- A header with the small statements behind it; with none the body is on the lines below. -/
  | header (head : Head) (tokens : List Token) (items : List Item)

/-! ## Imports -/

def dottedName : List Token → Option (Text × List Token)
  | ⟨_, .name, identifier⟩ :: ⟨_, .symbol .dot, _⟩ :: rest =>
    match dottedName rest with
    | some (later, after) => some (identifier ++ '.' :: later, after)
    | none => none
  | ⟨_, .name, identifier⟩ :: rest => some (identifier, rest)
  | _ => none

def newName : List Token → Option (Option Text × List Token)
  | ⟨_, .keyword .asWord, _⟩ :: ⟨_, .name, identifier⟩ :: rest => some (some identifier, rest)
  | ⟨_, .keyword .asWord, _⟩ :: _ => none
  | tokens => some (none, tokens)

def importedModules : Nat → List Token → Option (List Alias × List Token)
  | 0, _ => none
  | fuel + 1, tokens => do
    let (dotted, rest) ← dottedName tokens
    let (renamed, rest) ← newName rest
    match expectSymbol .comma rest with
    | none => some ([⟨dotted, renamed⟩], rest)
    | some rest => do
      let (later, rest) ← importedModules fuel rest
      some (⟨dotted, renamed⟩ :: later, rest)

/-- Names with commas between them; inside parentheses a comma may end them. -/
def importedNameList (bracketed : Bool) : Nat → List Token → Option (List Alias × List Token)
  | 0, _ => none
  | fuel + 1, tokens =>
    match tokens with
    | ⟨_, .name, identifier⟩ :: rest => do
      let (renamed, rest) ← newName rest
      match expectSymbol .comma rest with
      | none => some ([⟨identifier, renamed⟩], rest)
      | some rest =>
        if bracketed && startsWith (.symbol .closeRound) rest then
          some ([⟨identifier, renamed⟩], rest)
        else do
          let (later, rest) ← importedNameList bracketed fuel rest
          some (⟨identifier, renamed⟩ :: later, rest)
    | _ => none

/-- The dots before the name of a module, and the tokens behind them. -/
def leadingDots : List Token → Bool × List Token
  | ⟨_, .symbol .dot, _⟩ :: rest => (true, (leadingDots rest).2)
  | ⟨_, .symbol .ellipsis, _⟩ :: rest => (true, (leadingDots rest).2)
  | tokens => (false, tokens)

def importFrom (fuel : Nat) (tokens : List Token) : Option (Form × List Token) := do
  let (relative, rest) := leadingDots tokens
  let (origin, rest) ←
    match dottedName rest with
    | some (name, after) => some (some name, after)
    | none => if relative then some (none, rest) else none
  let rest ← expectKeyword .importWord rest
  match rest with
  | ⟨_, .symbol .star, _⟩ :: rest => some (.importsFrom origin none, rest)
  | ⟨_, .symbol .openRound, _⟩ :: rest => do
    let (aliases, rest) ← importedNameList true fuel rest
    let rest ← expectSymbol .closeRound rest
    some (.importsFrom origin (some aliases), rest)
  | _ => do
    let (aliases, rest) ← importedNameList false fuel rest
    some (.importsFrom origin (some aliases), rest)

/-! ## Small statements -/

def nameList : List Token → Option (List Token)
  | ⟨_, .name, _⟩ :: ⟨_, .symbol .comma, _⟩ :: rest => nameList rest
  | ⟨_, .name, _⟩ :: rest => some rest
  | _ => none

/-- The values behind the first target of an assignment, each of which but the last is a target. -/
def assigned : Nat → List Token → Option (List Expression × List Token)
  | 0, _ => none
  | fuel + 1, tokens => do
    let (value, rest) ← produced fuel tokens
    match expectSymbol .equal rest with
    | none => some ([], rest)
    | some rest =>
      if value.isTarget then do
        let (later, rest) ← assigned fuel rest
        some (value :: later, rest)
      else none

/-- Type parameters with commas between them, up to the closing bracket. -/
def typeParameters : Nat → List Token → Option (List TypeParameter × List Token)
  | 0, _ => none
  | fuel + 1, tokens => do
    let (applied, rest) ←
      match tokens with
      | ⟨_, .symbol .star, _⟩ :: ⟨_, .name, identifier⟩ :: rest => do
        let rest ←
          match expectSymbol .equal rest with
          | some rest => (starExpression fuel rest).map (·.2)
          | none => some rest
        some ('*' :: identifier, rest)
      | ⟨_, .symbol .doubleStar, _⟩ :: ⟨_, .name, identifier⟩ :: rest => do
        let rest ← typeDefault fuel rest
        some (identifier, rest)
      | ⟨_, .name, identifier⟩ :: rest => do
        let rest ←
          match expectSymbol .colon rest with
          | some rest => (expression fuel rest).map (·.2)
          | none => some rest
        let rest ← typeDefault fuel rest
        some (identifier, rest)
      | _ => none
    let parameter : TypeParameter := ⟨applied, tokensRead tokens rest⟩
    match rest with
    | ⟨_, .symbol .comma, _⟩ :: ⟨_, .symbol .closeSquare, _⟩ :: after => some ([parameter], after)
    | ⟨_, .symbol .closeSquare, _⟩ :: after => some ([parameter], after)
    | ⟨_, .symbol .comma, _⟩ :: after => do
      let (later, after) ← typeParameters fuel after
      some (parameter :: later, after)
    | _ => none
where
  /-- The default of a type parameter, if it has one. -/
  typeDefault (fuel : Nat) (tokens : List Token) : Option (List Token) :=
    match expectSymbol .equal tokens with
    | some rest => (expression fuel rest).map (·.2)
    | none => some tokens

def typeParameterList (fuel : Nat) (tokens : List Token) :
    Option (List TypeParameter × List Token) :=
  match expectSymbol .openSquare tokens with
  | some rest => typeParameters fuel rest
  | none => some ([], tokens)

def valueStatement (fuel : Nat) (tokens : List Token) : Option (Form × List Token) := do
  let (value, rest) ← produced fuel tokens
  match rest with
  | ⟨_, .symbol .colon, _⟩ :: after =>
    if value.isSingleTarget then do
      let (type, rest) ← expression fuel after
      let typeTokens := tokensRead after rest
      match expectSymbol .equal rest with
      | none => some (.declaration value type typeTokens, rest)
      | some rest => do
        let (_, rest) ← produced fuel rest
        some (.declaration value type typeTokens, rest)
    else none
  | ⟨_, .symbol .augmented, _⟩ :: rest =>
    if value.isSingleTarget then do
      let (_, rest) ← produced fuel rest
      some (.plain, rest)
    else none
  | ⟨_, .symbol .equal, _⟩ :: rest =>
    if value.isTarget then do
      let (later, rest) ← assigned fuel rest
      some (.assignment (value :: later), rest)
    else none
  | _ => some (.value value, rest)

def smallStatement (fuel : Nat) (tokens : List Token) : Option (Form × List Token) :=
  match tokens with
  | [] => none
  | ⟨_, .keyword .passWord, _⟩ :: rest => some (.plain, rest)
  | ⟨_, .keyword .breakWord, _⟩ :: rest => some (.plain, rest)
  | ⟨_, .keyword .continueWord, _⟩ :: rest => some (.plain, rest)
  | ⟨_, .keyword .returnWord, _⟩ :: rest =>
    match starExpressions fuel rest with
    | some (_, rest) => some (.plain, rest)
    | none => some (.plain, rest)
  | ⟨_, .keyword .raiseWord, _⟩ :: rest =>
    match expression fuel rest with
    | none => some (.plain, rest)
    | some (_, rest) =>
      match expectKeyword .fromWord rest with
      | none => some (.plain, rest)
      | some rest => (expression fuel rest).map fun (_, rest) => (.plain, rest)
  | ⟨_, .keyword .assertWord, _⟩ :: rest => do
    let (_, rest) ← expression fuel rest
    match expectSymbol .comma rest with
    | none => some (.plain, rest)
    | some rest => (expression fuel rest).map fun (_, rest) => (.plain, rest)
  | ⟨_, .keyword .delWord, _⟩ :: rest => do
    let (value, rest) ← targets fuel rest
    if value.isDeletable then some (.plain, rest) else none
  | ⟨_, .keyword .globalWord, _⟩ :: rest => (nameList rest).map fun rest => (.plain, rest)
  | ⟨_, .keyword .nonlocalWord, _⟩ :: rest => (nameList rest).map fun rest => (.plain, rest)
  | ⟨_, .keyword .importWord, _⟩ :: rest =>
    (importedModules fuel rest).map fun (aliases, rest) => (.imports aliases, rest)
  | ⟨_, .keyword .fromWord, _⟩ :: rest => importFrom fuel rest
  | ⟨_, .name, ['t', 'y', 'p', 'e']⟩ :: ⟨_, .name, _⟩ :: rest => do
    let (_, rest) ← typeParameterList fuel rest
    let rest ← expectSymbol .equal rest
    let (_, rest) ← expression fuel rest
    some (.plain, rest)
  | _ => valueStatement fuel tokens

/-- Small statements with semicolons between them, which take up all the tokens. -/
def smallStatements : Nat → List Token → Option (List Item)
  | 0, _ => none
  | fuel + 1, tokens => do
    let (form, rest) ← smallStatement fuel tokens
    let read := tokensRead tokens rest
    match rest with
    | [] => some [⟨read, form, none⟩]
    | token :: later =>
      if token.kind = .symbol .semicolon then
        if later = [] then some [⟨read, form, some token⟩]
        else do
          let items ← smallStatements fuel later
          some (⟨read, form, some token⟩ :: items)
      else none

/-! ## Headers -/

/-- One context of a `with` statement, and its target if it has one. -/
def context (fuel : Nat) (tokens : List Token) : Option (List Token) := do
  let (_, rest) ← expression fuel tokens
  match expectKeyword .asWord rest with
  | some rest => (target fuel rest).map (·.2)
  | none => some rest

def contexts : Nat → List Token → Option (List Token)
  | 0, _ => none
  | fuel + 1, tokens => do
    let rest ← context fuel tokens
    match expectSymbol .comma rest with
    | none => some rest
    | some rest =>
      if startsWith (.symbol .closeRound) rest then some rest else contexts fuel rest

/-- The contexts of a `with` statement up to its colon: inside parentheses, where a comma may end
them, or without. -/
def contextList (fuel : Nat) (tokens : List Token) : Option (List Token) :=
  let bracketed := do
    let rest ← expectSymbol .openRound tokens
    let rest ← contexts fuel rest
    let rest ← expectSymbol .closeRound rest
    expectSymbol .colon rest
  match bracketed with
  | some rest => some rest
  | none => do
    let rest ← contexts fuel tokens
    expectSymbol .colon rest

def functionHeader (fuel : Nat) (tokens : List Token) : Option (Head × List Token) :=
  match tokens with
  | ⟨_, .name, name⟩ :: rest => do
    let (_, rest) ← typeParameterList fuel rest
    let rest ← expectSymbol .openRound rest
    let (names, rest) ← parameters fuel true .start rest
    let rest ← expectSymbol .closeRound rest
    let rest ←
      match expectSymbol .arrow rest with
      | some rest => (expression fuel rest).map (·.2)
      | none => some rest
    let rest ← expectSymbol .colon rest
    some (.definition (.functionDefinition ⟨name, names⟩), rest)
  | _ => none

def classHeader (fuel : Nat) (tokens : List Token) : Option (Head × List Token) :=
  match tokens with
  | ⟨_, .name, name⟩ :: rest => do
    let (typeParameters, rest) ← typeParameterList fuel rest
    let (arguments, rest) ←
      match expectSymbol .openRound rest with
      | none => some ([], rest)
      | some rest => do
        let (list, rest) ← arguments fuel false .positional rest
        let rest ← expectSymbol .closeRound rest
        some (list, rest)
    let rest ← expectSymbol .colon rest
    some (.definition (.classDefinition ⟨name, typeParameters, arguments⟩), rest)
  | _ => none

/-- A clause of a kind whose header is an expression of some sort before the colon. -/
def clauseHeader (kind : ClauseKind) (behind : Option (List Token)) :
    Option (Head × List Token) := do
  let rest ← behind
  let rest ← expectSymbol .colon rest
  some (.clause kind, rest)

/-- A header that starts with a reserved word or an at sign, and the tokens behind its colon. -/
def header (fuel : Nat) (tokens : List Token) : Option (Head × List Token) :=
  match tokens with
  | ⟨_, .symbol .at, _⟩ :: rest => do
    let (value, rest) ← named fuel rest
    some (.decorator value, rest)
  | ⟨_, .keyword .classWord, _⟩ :: rest => classHeader fuel rest
  | ⟨_, .keyword .defWord, _⟩ :: rest => functionHeader fuel rest
  | ⟨_, .keyword .asyncWord, _⟩ :: ⟨_, .keyword .defWord, _⟩ :: rest => functionHeader fuel rest
  | ⟨_, .keyword .asyncWord, _⟩ :: ⟨_, .keyword .forWord, _⟩ :: rest => loop rest
  | ⟨_, .keyword .asyncWord, _⟩ :: ⟨_, .keyword .withWord, _⟩ :: rest => managed rest
  | ⟨_, .keyword .forWord, _⟩ :: rest => loop rest
  | ⟨_, .keyword .withWord, _⟩ :: rest => managed rest
  | ⟨_, .keyword .ifWord, _⟩ :: rest => clauseHeader .ifClause ((named fuel rest).map (·.2))
  | ⟨_, .keyword .elifWord, _⟩ :: rest => clauseHeader .elifClause ((named fuel rest).map (·.2))
  | ⟨_, .keyword .elseWord, _⟩ :: rest => clauseHeader .elseClause (some rest)
  | ⟨_, .keyword .whileWord, _⟩ :: rest => clauseHeader .whileClause ((named fuel rest).map (·.2))
  | ⟨_, .keyword .tryWord, _⟩ :: rest => clauseHeader .tryClause (some rest)
  | ⟨_, .keyword .finallyWord, _⟩ :: rest => clauseHeader .finallyClause (some rest)
  | ⟨_, .keyword .exceptWord, _⟩ :: ⟨_, .symbol .star, _⟩ :: rest =>
    clauseHeader .exceptGroupClause (caught rest)
  | ⟨_, .keyword .exceptWord, _⟩ :: ⟨_, .symbol .colon, _⟩ :: rest =>
    some (.clause .exceptClause, rest)
  | ⟨_, .keyword .exceptWord, _⟩ :: rest => clauseHeader .exceptClause (caught rest)
  | _ => none
where
  /-- The targets and the values of a loop. -/
  loop (tokens : List Token) : Option (Head × List Token) := do
    let (_, rest) ← targets fuel tokens
    let rest ← expectKeyword .inWord rest
    clauseHeader .forClause ((starExpressions fuel rest).map (·.2))
  /-- The contexts of a `with` statement. -/
  managed (tokens : List Token) : Option (Head × List Token) :=
    (contextList fuel tokens).map fun rest => (.clause .withClause, rest)
  /-- A caught exception, and its name if it gets one. -/
  caught (tokens : List Token) : Option (List Token) := do
    let (_, rest) ← expression fuel tokens
    match rest with
    | ⟨_, .keyword .asWord, _⟩ :: ⟨_, .name, _⟩ :: rest => some rest
    | ⟨_, .keyword .asWord, _⟩ :: _ => none
    | _ => some rest

/-- The header of a `match` statement: the word is reserved only where a subject and a colon at the
end of the line follow it. -/
def matchHeader (fuel : Nat) (tokens : List Token) : Option Head :=
  match tokens with
  | ⟨_, .name, ['m', 'a', 't', 'c', 'h']⟩ :: rest => do
    let (first, after) ← starNamed fuel rest
    let after ←
      match expectSymbol .comma after, first with
      | some _, _ => (starNamedItems fuel after).map (·.2)
      | none, .starred _ => none
      | none, _ => some after
    let after ← expectSymbol .colon after
    if after = [] then some (.clause .matchClause) else none
  | _ => none

/-- The header of a case, and the tokens behind its colon. -/
def caseHeader (fuel : Nat) (tokens : List Token) : Option (Head × List Token) :=
  match tokens with
  | ⟨_, .name, ['c', 'a', 's', 'e']⟩ :: rest => do
    let rest ← patterns fuel rest
    let rest ←
      match expectKeyword .ifWord rest with
      | some rest => (named fuel rest).map (·.2)
      | none => some rest
    clauseHeader .caseClause (some rest)
  | _ => none

def withItems (fuel : Nat) (tokens : List Token) :
    Option (Head × List Token) → Option ReadLine
  | none => none
  | some (head, rest) =>
    match rest, head with
    | [], _ => some (.header head tokens [])
    | _, .decorator _ => none
    | _, _ => do
      let items ← smallStatements fuel rest
      some (.header head (tokensRead tokens rest) items)

/-- Whether a line starts with a word or sign that only headers start with. -/
def startsHeader : List Token → Bool
  | token :: _ =>
    match token.kind with
    | .symbol .at => true
    | .keyword word =>
      word ∈ [.classWord, .defWord, .asyncWord, .forWord, .withWord, .ifWord, .elifWord, .elseWord,
        .whileWord, .tryWord, .finallyWord, .exceptWord]
    | _ => false
  | [] => false

/-- Read the tokens of a logical line.  `amongCases` says that the line stands directly below a
`match` header, where only cases may stand. -/
def readLine (amongCases : Bool) (tokens : List Token) : Option ReadLine :=
  let fuel := grammarFuel tokens
  if amongCases then withItems fuel tokens (caseHeader fuel tokens)
  else if startsHeader tokens then withItems fuel tokens (header fuel tokens)
  else
    match matchHeader fuel tokens with
    | some head => some (.header head tokens [])
    | none => do
      let items ← smallStatements fuel tokens
      some (.items items)

end Source
end OpenRecord
