import OpenRecord.Source.Grammar

namespace OpenRecord
namespace Source

/-!
# The grammar of patterns

What may stand between the word `case` and its colon.  Patterns leave nothing in the tree: no rule
of the library looks into them, and only whether one is well formed matters.
-/

/-- A name that a pattern may bind: any but the single underscore. -/
def captureName : List Token → Option (List Token)
  | ⟨_, .name, identifier⟩ :: rest => if identifier = ['_'] then none else some rest
  | _ => none

/-- Parts of a dotted name behind its first one, and how many of them there are. -/
def dottedParts : List Token → Nat × List Token
  | ⟨_, .symbol .dot, _⟩ :: ⟨_, .name, _⟩ :: rest =>
    match dottedParts rest with
    | (count, after) => (count + 1, after)
  | tokens => (0, tokens)

/-- A number with an optional minus sign, and an imaginary part behind it if there is one. -/
def numberPattern (tokens : List Token) : Option (List Token) := do
  let rest ← expect .number ((expectSymbol (.plusOrMinus true) tokens).getD tokens)
  match rest with
  | ⟨_, .symbol (.plusOrMinus _), _⟩ :: later => expect .number later
  | _ => some rest

mutual

/-- The patterns of a case: one pattern, or several without brackets. -/
def patterns : Nat → List Token → Option (List Token)
  | 0, _ => none
  | fuel + 1, tokens =>
    match expectSymbol .star tokens with
    | some _ => do
      let rest ← sequenceItem fuel tokens
      let rest ← expectSymbol .comma rest
      sequenceItems fuel rest
    | none => do
      let rest ← pattern fuel tokens
      match expectSymbol .comma rest with
      | some rest => sequenceItems fuel rest
      | none => some rest

/-- Alternatives, with a name for the whole if one is given. -/
def pattern : Nat → List Token → Option (List Token)
  | 0, _ => none
  | fuel + 1, tokens => do
    let rest ← alternatives fuel tokens
    match expectKeyword .asWord rest with
    | some rest => captureName rest
    | none => some rest

def alternatives : Nat → List Token → Option (List Token)
  | 0, _ => none
  | fuel + 1, tokens => do
    let rest ← closedPattern fuel tokens
    match expectSymbol .bar rest with
    | some rest => alternatives fuel rest
    | none => some rest

/-- A literal, a name, a value, a class, or a bracketed pattern. -/
def closedPattern : Nat → List Token → Option (List Token)
  | 0, _ => none
  | fuel + 1, tokens =>
    match tokens with
    | ⟨_, .number, _⟩ :: _ => numberPattern tokens
    | ⟨_, .symbol (.plusOrMinus true), _⟩ :: _ => numberPattern tokens
    | ⟨_, .literal, _⟩ :: _ => literals fuel tokens
    | ⟨_, .templateOpen, _⟩ :: _ => literals fuel tokens
    | ⟨_, .keyword .noneWord, _⟩ :: rest => some rest
    | ⟨_, .keyword .trueWord, _⟩ :: rest => some rest
    | ⟨_, .keyword .falseWord, _⟩ :: rest => some rest
    | ⟨_, .name, identifier⟩ :: rest =>
      if identifier = ['_'] then some rest
      else
        match dottedParts rest with
        | (_, after) =>
          match expectSymbol .openRound after with
          | some after => do
            let after ← classArguments fuel false after
            expectSymbol .closeRound after
          | none => some after
    | ⟨_, .symbol .openRound, _⟩ :: ⟨_, .symbol .closeRound, _⟩ :: rest => some rest
    | ⟨_, .symbol .openRound, _⟩ :: rest => do
      let rest ← patterns fuel rest
      expectSymbol .closeRound rest
    | ⟨_, .symbol .openSquare, _⟩ :: rest => do
      let rest ← sequenceItems fuel rest
      expectSymbol .closeSquare rest
    | ⟨_, .symbol .openCurly, _⟩ :: rest => do
      let rest ← mappingItems fuel rest
      expectSymbol .closeCurly rest
    | _ => none

/-- One item of a sequence: a pattern, or a starred name. -/
def sequenceItem : Nat → List Token → Option (List Token)
  | 0, _ => none
  | fuel + 1, tokens =>
    match expectSymbol .star tokens with
    | some rest => expect .name rest
    | none => pattern fuel tokens

/-- Any number of items of a sequence; a comma may end them. -/
def sequenceItems : Nat → List Token → Option (List Token)
  | 0, _ => none
  | fuel + 1, tokens =>
    match sequenceItem fuel tokens with
    | none => some tokens
    | some rest =>
      match expectSymbol .comma rest with
      | some rest => sequenceItems fuel rest
      | none => some rest

/-- The items of a mapping; a double star may stand before the last one only. -/
def mappingItems : Nat → List Token → Option (List Token)
  | 0, _ => none
  | fuel + 1, tokens =>
    match tokens with
    | ⟨_, .symbol .closeCurly, _⟩ :: _ => some tokens
    | ⟨_, .symbol .doubleStar, _⟩ :: rest => do
      let rest ← captureName rest
      some ((expectSymbol .comma rest).getD rest)
    | _ => do
      let rest ← mappingKey fuel tokens
      let rest ← expectSymbol .colon rest
      let rest ← pattern fuel rest
      match expectSymbol .comma rest with
      | some rest => mappingItems fuel rest
      | none => some rest

/-- The key of a mapping item: a literal or a dotted name. -/
def mappingKey : Nat → List Token → Option (List Token)
  | 0, _ => none
  | fuel + 1, tokens =>
    match tokens with
    | ⟨_, .name, _⟩ :: rest =>
      match dottedParts rest with
      | (0, _) => none
      | (_ + 1, after) => some after
    | ⟨_, .symbol .openRound, _⟩ :: _ => none
    | ⟨_, .symbol .openSquare, _⟩ :: _ => none
    | ⟨_, .symbol .openCurly, _⟩ :: _ => none
    | _ => closedPattern fuel tokens

/-- The patterns between the parentheses of a class pattern, those with a keyword last. -/
def classArguments : Nat → Bool → List Token → Option (List Token)
  | 0, _, _ => none
  | fuel + 1, keywordSeen, tokens =>
    match tokens with
    | ⟨_, .symbol .closeRound, _⟩ :: _ => some tokens
    | ⟨_, .name, _⟩ :: ⟨_, .symbol .equal, _⟩ :: rest => do
      let rest ← pattern fuel rest
      match expectSymbol .comma rest with
      | some rest => classArguments fuel true rest
      | none => some rest
    | _ => do
      if keywordSeen then none
      let rest ← pattern fuel tokens
      match expectSymbol .comma rest with
      | some rest => classArguments fuel false rest
      | none => some rest

end

end Source
end OpenRecord
