import OpenRecord.Source.Expression

namespace OpenRecord
namespace Source

/-!
# The grammar of expressions

Each function reads one phrase of the Python 3.13 grammar from the front of a list of tokens and
returns what it read together with the tokens behind it.  No phrase is read twice: where two rules
begin alike, their common part is read first and the token behind it decides.

The fuel of every function bounds the depth of the calls.  Between two tokens there are at most
thirty-two calls, one within another, so `grammarFuel` is never used up.
-/

/-- Enough depth for reading a list of tokens. -/
def grammarFuel (tokens : List Token) : Nat :=
  32 * (tokens.length + 1)

/-- The tokens that were read to get from one list to a later part of it. -/
def tokensRead (before after : List Token) : List Token :=
  before.take (before.length - after.length)

def expect (kind : TokenKind) : List Token → Option (List Token)
  | token :: rest => if token.kind = kind then some rest else none
  | [] => none

/-- Whether the next token is of a given kind. -/
def startsWith (kind : TokenKind) (tokens : List Token) : Bool :=
  (expect kind tokens).isSome

def expectSymbol (which : Symbol) (tokens : List Token) : Option (List Token) :=
  expect (.symbol which) tokens

/-- The tokens behind a given reserved word. -/
def expectKeyword (word : Keyword) (tokens : List Token) : Option (List Token) :=
  expect (.keyword word) tokens

/-- The tokens behind a binary operator of a given level, from the loosest one. -/
def afterOperator (level : Nat) (tokens : List Token) : Option (List Token) :=
  match tokens with
  | [] => none
  | token :: rest =>
    match level, token.kind with
    | 0, .keyword .orWord => some rest
    | 1, .keyword .andWord => some rest
    | 3, .symbol .comparison => some rest
    | 3, .keyword .inWord => some rest
    | 3, .keyword .notWord => expectKeyword .inWord rest
    | 3, .keyword .isWord => some ((expectKeyword .notWord rest).getD rest)
    | 4, .symbol .bar => some rest
    | 5, .symbol .caret => some rest
    | 6, .symbol .ampersand => some rest
    | 7, .symbol .shift => some rest
    | 8, .symbol (.plusOrMinus _) => some rest
    | 9, .symbol .star => some rest
    | 9, .symbol .slash => some rest
    | 9, .symbol .multiplicative => some rest
    | 9, .symbol .at => some rest
    | _, _ => none

/-- The level of `|`, at which the value behind a star is read. -/
def starLevel : Nat := 4

/-- The tokens behind the words that open a clause of a comprehension. -/
def afterFor (tokens : List Token) : Option (List Token) :=
  expectKeyword .forWord ((expectKeyword .asyncWord tokens).getD tokens)

/-- Which arguments may still come. -/
inductive ArgumentPhase
  | positional
  | keyword
  | mapping
deriving DecidableEq

/-- What has been seen of a parameter list. -/
structure ParameterPhase where
  any : Bool
  withDefault : Bool
  slash : Bool
  star : Bool
  /-- A lone star waits for a parameter behind it. -/
  waiting : Bool

def ParameterPhase.start : ParameterPhase :=
  ⟨false, false, false, false, false⟩

mutual

/-- A conditional expression, a lambda, or an operation. -/
def expression : Nat → List Token → Option (Expression × List Token)
  | 0, _ => none
  | fuel + 1, tokens =>
    match expectKeyword .lambdaWord tokens with
    | some rest => do
      let (_, rest) ← parameters fuel false .start rest
      let rest ← expectSymbol .colon rest
      let (_, rest) ← expression fuel rest
      some (.other, rest)
    | none => do
      let (value, rest) ← operation fuel 0 tokens
      match expectKeyword .ifWord rest with
      | none => some (value, rest)
      | some rest => do
        let (_, rest) ← operation fuel 0 rest
        let rest ← expectKeyword .elseWord rest
        let (_, rest) ← expression fuel rest
        some (.other, rest)

/-- An operation whose operators are of a given level or tighter. -/
def operation : Nat → Nat → List Token → Option (Expression × List Token)
  | 0, _, _ => none
  | fuel + 1, level, tokens =>
    if level = 2 then
      match expectKeyword .notWord tokens with
      | some rest => do
        let (_, rest) ← operation fuel 2 rest
        some (.other, rest)
      | none => operation fuel 3 tokens
    else if level = 10 then factor fuel tokens
    else do
      let (value, rest) ← operation fuel (level + 1) tokens
      operands fuel level value rest

/-- The operators of one level behind a first operand. -/
def operands : Nat → Nat → Expression → List Token → Option (Expression × List Token)
  | 0, _, _, _ => none
  | fuel + 1, level, value, tokens =>
    match afterOperator level tokens with
    | none => some (value, tokens)
    | some rest => do
      let (_, rest) ← operation fuel (level + 1) rest
      operands fuel level .other rest

/-- A signed value or a power. -/
def factor : Nat → List Token → Option (Expression × List Token)
  | 0, _ => none
  | fuel + 1, tokens =>
    match tokens with
    | ⟨_, .symbol (.plusOrMinus _), _⟩ :: rest => do
      let (_, rest) ← factor fuel rest
      some (.other, rest)
    | ⟨_, .symbol .tilde, _⟩ :: rest => do
      let (_, rest) ← factor fuel rest
      some (.other, rest)
    | _ => do
      let (value, rest) ← awaited fuel tokens
      match expectSymbol .doubleStar rest with
      | none => some (value, rest)
      | some rest => do
        let (_, rest) ← factor fuel rest
        some (.other, rest)

def awaited : Nat → List Token → Option (Expression × List Token)
  | 0, _ => none
  | fuel + 1, tokens =>
    match expectKeyword .awaitWord tokens with
    | some rest => do
      let (_, rest) ← primary fuel rest
      some (.other, rest)
    | none => primary fuel tokens

/-- An atom with its attributes, calls and subscripts. -/
def primary : Nat → List Token → Option (Expression × List Token)
  | 0, _ => none
  | fuel + 1, tokens => do
    let (value, rest) ← atom fuel tokens
    trailers fuel value rest

def trailers : Nat → Expression → List Token → Option (Expression × List Token)
  | 0, _, _ => none
  | fuel + 1, value, tokens =>
    match tokens with
    | ⟨_, .symbol .dot, _⟩ :: ⟨_, .name, identifier⟩ :: rest =>
      trailers fuel (.attribute value identifier) rest
    | ⟨_, .symbol .dot, _⟩ :: _ => none
    | ⟨_, .symbol .openRound, _⟩ :: rest => do
      let (_, rest) ← arguments fuel true .positional rest
      let rest ← expectSymbol .closeRound rest
      trailers fuel (.call value) rest
    | ⟨_, .symbol .openSquare, _⟩ :: rest => do
      let (elements, rest) ← subscripts fuel rest
      let rest ← expectSymbol .closeSquare rest
      trailers fuel (.subscript value elements) rest
    | _ => some (value, tokens)

def atom : Nat → List Token → Option (Expression × List Token)
  | 0, _ => none
  | fuel + 1, tokens =>
    match tokens with
    | ⟨_, .name, identifier⟩ :: rest => some (.name identifier, rest)
    | ⟨_, .keyword .noneWord, identifier⟩ :: rest => some (.constant identifier, rest)
    | ⟨_, .keyword .trueWord, identifier⟩ :: rest => some (.constant identifier, rest)
    | ⟨_, .keyword .falseWord, identifier⟩ :: rest => some (.constant identifier, rest)
    | ⟨_, .number, _⟩ :: rest => some (.other, rest)
    | ⟨_, .symbol .ellipsis, _⟩ :: rest => some (.other, rest)
    | ⟨_, .literal, _⟩ :: rest =>
      if startsWith .literal rest || startsWith .templateOpen rest then do
        let rest ← literals fuel rest
        some (.other, rest)
      else some (.literal, rest)
    | ⟨_, .templateOpen, _⟩ :: _ => do
      let rest ← literals fuel tokens
      some (.other, rest)
    | ⟨_, .symbol .openRound, _⟩ :: rest => round fuel rest
    | ⟨_, .symbol .openSquare, _⟩ :: rest => square fuel rest
    | ⟨_, .symbol .openCurly, _⟩ :: rest => curly fuel rest
    | _ => none

def literals : Nat → List Token → Option (List Token)
  | 0, _ => none
  | fuel + 1, tokens =>
    match tokens with
    | ⟨_, .literal, _⟩ :: rest => literals fuel rest
    | ⟨_, .templateOpen, _⟩ :: rest => do
      let rest ← template fuel rest
      let rest ← expect .templateClose rest
      literals fuel rest
    | _ => some tokens

/-- The text and the replacement fields of a template. -/
def template : Nat → List Token → Option (List Token)
  | 0, _ => none
  | fuel + 1, tokens =>
    match tokens with
    | ⟨_, .templateText, _⟩ :: rest => template fuel rest
    | ⟨_, .symbol .openCurly, _⟩ :: rest => do
      let (_, rest) ← produced fuel rest
      let rest := (expectSymbol .equal rest).getD rest
      let rest ←
        match expectSymbol .bang rest with
        | some rest => expect .name rest
        | none => some rest
      let rest ←
        match expectSymbol .colon rest with
        | some rest => template fuel rest
        | none => some rest
      let rest ← expectSymbol .closeCurly rest
      template fuel rest
    | _ => some tokens

/-- What stands behind an opening parenthesis, its closer included. -/
def round : Nat → List Token → Option (Expression × List Token)
  | 0, _ => none
  | fuel + 1, tokens =>
    match tokens with
    | ⟨_, .symbol .closeRound, _⟩ :: rest => some (.tuple [], rest)
    | ⟨_, .keyword .yieldWord, _⟩ :: _ => do
      let (_, rest) ← produced fuel tokens
      let rest ← expectSymbol .closeRound rest
      some (.other, rest)
    | _ => do
      let (first, rest) ← starNamed fuel tokens
      match afterFor rest, first with
      | some _, .starred _ => none
      | some _, _ => do
        let rest ← comprehension fuel rest
        let rest ← expectSymbol .closeRound rest
        some (.other, rest)
      | none, _ =>
        match expectSymbol .comma rest, first with
        | some _, _ => do
          let (later, rest) ← starNamedItems fuel rest
          let rest ← expectSymbol .closeRound rest
          some (.tuple (first :: later), rest)
        | none, .starred _ => none
        | none, _ => do
          let rest ← expectSymbol .closeRound rest
          some (first, rest)

/-- What stands behind the opening bracket of a list, its closer included. -/
def square : Nat → List Token → Option (Expression × List Token)
  | 0, _ => none
  | fuel + 1, tokens =>
    match tokens with
    | ⟨_, .symbol .closeSquare, _⟩ :: rest => some (.list [], rest)
    | _ => do
      let (first, rest) ← starNamed fuel tokens
      match afterFor rest, first with
      | some _, .starred _ => none
      | some _, _ => do
        let rest ← comprehension fuel rest
        let rest ← expectSymbol .closeSquare rest
        some (.other, rest)
      | none, _ => do
        let (later, rest) ← starNamedItems fuel rest
        let rest ← expectSymbol .closeSquare rest
        some (.list (first :: later), rest)

/-- What stands behind an opening brace, its closer included. -/
def curly : Nat → List Token → Option (Expression × List Token)
  | 0, _ => none
  | fuel + 1, tokens =>
    match tokens with
    | ⟨_, .symbol .closeCurly, _⟩ :: rest => some (.other, rest)
    | ⟨_, .symbol .doubleStar, _⟩ :: rest => do
      let (_, rest) ← operation fuel starLevel rest
      let rest ← entries fuel rest
      some (.other, rest)
    | ⟨_, .symbol .star, _⟩ :: _ => do
      let (_, rest) ← starNamed fuel tokens
      let (_, rest) ← starNamedItems fuel rest
      let rest ← expectSymbol .closeCurly rest
      some (.other, rest)
    | ⟨_, .name, _⟩ :: ⟨_, .symbol .walrus, _⟩ :: _ => do
      let (_, rest) ← named fuel tokens
      let rest ← elements fuel rest
      some (.other, rest)
    | _ => do
      let (_, rest) ← expression fuel tokens
      match expectSymbol .colon rest with
      | none => do
        let rest ← elements fuel rest
        some (.other, rest)
      | some rest => do
        let (_, rest) ← expression fuel rest
        match afterFor rest with
        | some _ => do
          let rest ← comprehension fuel rest
          let rest ← expectSymbol .closeCurly rest
          some (.other, rest)
        | none => do
          let rest ← entries fuel rest
          some (.other, rest)

/-- The elements of a set behind its first one, with the closing brace. -/
def elements : Nat → List Token → Option (List Token)
  | 0, _ => none
  | fuel + 1, tokens => do
    match afterFor tokens with
    | some _ => do
      let rest ← comprehension fuel tokens
      expectSymbol .closeCurly rest
    | none => do
      let (_, rest) ← starNamedItems fuel tokens
      expectSymbol .closeCurly rest

/-- The entries of a mapping behind one of them, with the closing brace. -/
def entries : Nat → List Token → Option (List Token)
  | 0, _ => none
  | fuel + 1, tokens =>
    match tokens with
    | ⟨_, .symbol .closeCurly, _⟩ :: rest => some rest
    | ⟨_, .symbol .comma, _⟩ :: ⟨_, .symbol .closeCurly, _⟩ :: rest => some rest
    | ⟨_, .symbol .comma, _⟩ :: ⟨_, .symbol .doubleStar, _⟩ :: rest => do
      let (_, rest) ← operation fuel starLevel rest
      entries fuel rest
    | ⟨_, .symbol .comma, _⟩ :: rest => do
      let (_, rest) ← expression fuel rest
      let rest ← expectSymbol .colon rest
      let (_, rest) ← expression fuel rest
      entries fuel rest
    | _ => none

/-- An expression with a name given to its value, or without. -/
def named : Nat → List Token → Option (Expression × List Token)
  | 0, _ => none
  | fuel + 1, tokens =>
    match tokens with
    | ⟨_, .name, _⟩ :: ⟨_, .symbol .walrus, _⟩ :: rest => do
      let (_, rest) ← expression fuel rest
      some (.other, rest)
    | _ => expression fuel tokens

def starNamed : Nat → List Token → Option (Expression × List Token)
  | 0, _ => none
  | fuel + 1, tokens =>
    match expectSymbol .star tokens with
    | some rest => do
      let (value, rest) ← operation fuel starLevel rest
      some (.starred value, rest)
    | none => named fuel tokens

/-- Further starred or named expressions, each behind a comma; a comma may also end the list. -/
def starNamedItems : Nat → List Token → Option (List Expression × List Token)
  | 0, _ => none
  | fuel + 1, tokens =>
    match expectSymbol .comma tokens with
    | none => some ([], tokens)
    | some rest =>
      match starNamed fuel rest with
      | none => some ([], rest)
      | some (item, rest) => do
        let (later, rest) ← starNamedItems fuel rest
        some (item :: later, rest)

def starExpression : Nat → List Token → Option (Expression × List Token)
  | 0, _ => none
  | fuel + 1, tokens =>
    match expectSymbol .star tokens with
    | some rest => do
      let (value, rest) ← operation fuel starLevel rest
      some (.starred value, rest)
    | none => expression fuel tokens

def starExpressions : Nat → List Token → Option (Expression × List Token)
  | 0, _ => none
  | fuel + 1, tokens => do
    let (first, rest) ← starExpression fuel tokens
    match expectSymbol .comma rest with
    | none => some (first, rest)
    | some _ => do
      let (later, rest) ← starItems fuel rest
      some (.tuple (first :: later), rest)

/-- Further items of a tuple without parentheses. -/
def starItems : Nat → List Token → Option (List Expression × List Token)
  | 0, _ => none
  | fuel + 1, tokens =>
    match expectSymbol .comma tokens with
    | none => some ([], tokens)
    | some rest =>
      match starExpression fuel rest with
      | none => some ([], rest)
      | some (item, rest) => do
        let (later, rest) ← starItems fuel rest
        some (item :: later, rest)

/-- A yield expression or a tuple without parentheses: what may be assigned. -/
def produced : Nat → List Token → Option (Expression × List Token)
  | 0, _ => none
  | fuel + 1, tokens =>
    match expectKeyword .yieldWord tokens with
    | none => starExpressions fuel tokens
    | some rest =>
      match expectKeyword .fromWord rest with
      | some rest => do
        let (_, rest) ← expression fuel rest
        some (.other, rest)
      | none =>
        match starExpressions fuel rest with
        | some (_, rest) => some (.other, rest)
        | none => some (.other, rest)

/-- The clauses of a comprehension, at least one. -/
def comprehension : Nat → List Token → Option (List Token)
  | 0, _ => none
  | fuel + 1, tokens => do
    let rest ← afterFor tokens
    let (_, rest) ← targets fuel rest
    let rest ← expectKeyword .inWord rest
    let (_, rest) ← operation fuel 0 rest
    let rest ← conditions fuel rest
    match afterFor rest with
    | some _ => comprehension fuel rest
    | none => some rest

/-- The conditions of a clause of a comprehension. -/
def conditions : Nat → List Token → Option (List Token)
  | 0, _ => none
  | fuel + 1, tokens =>
    match expectKeyword .ifWord tokens with
    | none => some tokens
    | some rest => do
      let (_, rest) ← operation fuel 0 rest
      conditions fuel rest

/-- The targets of a loop: primaries that may be assigned to. -/
def targets : Nat → List Token → Option (Expression × List Token)
  | 0, _ => none
  | fuel + 1, tokens => do
    let (first, rest) ← target fuel tokens
    match expectSymbol .comma rest with
    | none => some (first, rest)
    | some _ => do
      let (later, rest) ← targetItems fuel rest
      some (.tuple (first :: later), rest)

/-- Further targets of a loop. -/
def targetItems : Nat → List Token → Option (List Expression × List Token)
  | 0, _ => none
  | fuel + 1, tokens =>
    match expectSymbol .comma tokens with
    | none => some ([], tokens)
    | some rest =>
      match target fuel rest with
      | none => some ([], rest)
      | some (item, rest) => do
        let (later, rest) ← targetItems fuel rest
        some (item :: later, rest)

def target : Nat → List Token → Option (Expression × List Token)
  | 0, _ => none
  | fuel + 1, tokens =>
    match expectSymbol .star tokens with
    | some rest => do
      let (value, rest) ← primary fuel rest
      if value.isTarget then some (.starred value, rest) else none
    | none => do
      let (value, rest) ← primary fuel tokens
      if value.isTarget then some (value, rest) else none

/-- The arguments before a closing parenthesis, which is left unread.  Behind a keyword argument no
positional one may come, and behind a mapping no unpacked sequence either.  A comprehension may be
the only argument of a call. -/
def arguments : Nat → Bool → ArgumentPhase → List Token → Option (List Argument × List Token)
  | 0, _, _, _ => none
  | fuel + 1, lone, phase, tokens =>
    match tokens with
    | ⟨_, .symbol .closeRound, _⟩ :: _ => some ([], tokens)
    | ⟨_, .symbol .star, _⟩ :: rest => do
      if phase = .mapping then none
      let (value, after) ← expression fuel rest
      let (later, after') ← moreArguments fuel phase after
      some (⟨none, 1, value, tokensRead rest after⟩ :: later, after')
    | ⟨_, .symbol .doubleStar, _⟩ :: rest => do
      let (value, after) ← expression fuel rest
      let (later, after') ← moreArguments fuel .mapping after
      some (⟨none, 2, value, tokensRead rest after⟩ :: later, after')
    | ⟨_, .name, keyword⟩ :: ⟨_, .symbol .equal, _⟩ :: rest => do
      let (value, after) ← expression fuel rest
      let phase := if phase = .mapping then .mapping else .keyword
      let (later, after') ← moreArguments fuel phase after
      some (⟨some keyword, 0, value, tokensRead rest after⟩ :: later, after')
    | _ => do
      if phase ≠ .positional then none
      let (value, after) ← named fuel tokens
      let argument : Argument := ⟨none, 0, value, tokensRead tokens after⟩
      if lone && (afterFor after).isSome then do
        let after ← comprehension fuel after
        if startsWith (.symbol .closeRound) after then some ([argument], after) else none
      else do
        let (later, after') ← moreArguments fuel phase after
        some (argument :: later, after')

def moreArguments : Nat → ArgumentPhase → List Token → Option (List Argument × List Token)
  | 0, _, _ => none
  | fuel + 1, phase, tokens =>
    match expectSymbol .comma tokens with
    | none => some ([], tokens)
    | some rest => arguments fuel false phase rest

/-- The elements of a subscript, at least one, up to the closing bracket. -/
def subscripts : Nat → List Token → Option (List (Option Expression × List Token) × List Token)
  | 0, _ => none
  | fuel + 1, tokens => do
    let (index, rest) ← subscriptElement fuel tokens
    let element := (index, tokensRead tokens rest)
    match expectSymbol .comma rest with
    | none => some ([element], rest)
    | some rest =>
      if startsWith (.symbol .closeSquare) rest then some ([element], rest)
      else do
        let (later, rest) ← subscripts fuel rest
        some (element :: later, rest)

/-- One element of a subscript: an index, unpacked or not, or a slice. -/
def subscriptElement : Nat → List Token → Option (Option Expression × List Token)
  | 0, _ => none
  | fuel + 1, tokens =>
    match tokens with
    | ⟨_, .symbol .star, _⟩ :: rest => do
      let (value, rest) ← expression fuel rest
      some (some value, rest)
    | ⟨_, .symbol .colon, _⟩ :: rest => do
      let rest ← sliceBound fuel rest
      let rest ←
        match expectSymbol .colon rest with
        | some rest => sliceBound fuel rest
        | none => some rest
      some (none, rest)
    | ⟨_, .name, _⟩ :: ⟨_, .symbol .walrus, _⟩ :: _ => do
      let (value, rest) ← named fuel tokens
      some (some value, rest)
    | _ => do
      let (value, rest) ← expression fuel tokens
      match expectSymbol .colon rest with
      | none => some (some value, rest)
      | some rest => do
        let rest ← sliceBound fuel rest
        let rest ←
          match expectSymbol .colon rest with
          | some rest => sliceBound fuel rest
          | none => some rest
        some (none, rest)

def sliceBound : Nat → List Token → Option (List Token)
  | 0, _ => none
  | fuel + 1, tokens =>
    match tokens with
    | ⟨_, .symbol .colon, _⟩ :: _ => some tokens
    | ⟨_, .symbol .comma, _⟩ :: _ => some tokens
    | ⟨_, .symbol .closeSquare, _⟩ :: _ => some tokens
    | _ => do
      let (_, rest) ← expression fuel tokens
      some rest

/-- The names of parameters, up to the token behind the list.  Only a list of a function definition
has type expressions.  Behind a parameter with a default all further ones have one, until a star. -/
def parameters : Nat → Bool → ParameterPhase → List Token → Option (List Text × List Token)
  | 0, _, _, _ => none
  | fuel + 1, typed, phase, tokens =>
    match tokens with
    | ⟨_, .symbol .slash, _⟩ :: rest =>
      if phase.any && !phase.slash && !phase.star then
        moreParameters fuel typed { phase with slash := true } rest
      else none
    | ⟨_, .symbol .star, _⟩ :: ⟨_, .symbol .comma, _⟩ :: rest =>
      if phase.star then none
      else parameters fuel typed { phase with star := true, waiting := true } rest
    | ⟨_, .symbol .star, _⟩ :: ⟨_, .name, identifier⟩ :: rest => do
      if phase.star then none
      let rest ← parameterType fuel typed true rest
      let (later, rest) ← moreParameters fuel typed { phase with any := true, star := true } rest
      some (identifier :: later, rest)
    | ⟨_, .symbol .doubleStar, _⟩ :: ⟨_, .name, identifier⟩ :: rest => do
      if phase.waiting then none
      let rest ← parameterType fuel typed false rest
      some ([identifier], (expectSymbol .comma rest).getD rest)
    | ⟨_, .name, identifier⟩ :: rest => do
      let rest ← parameterType fuel typed false rest
      match expectSymbol .equal rest with
      | some rest => do
        let (_, rest) ← expression fuel rest
        let (later, rest) ← moreParameters fuel typed
          { phase with any := true, withDefault := true, waiting := false } rest
        some (identifier :: later, rest)
      | none => do
        if phase.withDefault && !phase.star then none
        let (later, rest) ← moreParameters fuel typed
          { phase with any := true, waiting := false } rest
        some (identifier :: later, rest)
    | _ => if phase.waiting then none else some ([], tokens)

def moreParameters : Nat → Bool → ParameterPhase → List Token → Option (List Text × List Token)
  | 0, _, _, _ => none
  | fuel + 1, typed, phase, tokens =>
    match expectSymbol .comma tokens with
    | none => if phase.waiting then none else some ([], tokens)
    | some rest => parameters fuel typed phase rest

def parameterType : Nat → Bool → Bool → List Token → Option (List Token)
  | 0, _, _, _ => none
  | fuel + 1, typed, unpacked, tokens =>
    if !typed then some tokens
    else
      match expectSymbol .colon tokens with
      | none => some tokens
      | some rest => do
        let (_, rest) ← if unpacked then starExpression fuel rest else expression fuel rest
        some rest

end

end Source
end OpenRecord
