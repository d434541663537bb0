import OpenRecord.Proofs.Source.StatementPhrases
import OpenRecord.Proofs.Source.TreeLaw

namespace OpenRecord
namespace Source

/-!
# The names that declarations declare

An expression is read as a bare name only where a name stands among the tokens: parentheses may stand
around it, but no operator, no attribute and no bracket leaves a bare name behind.  So what a
declaration in a file declares is an identifier and no reserved word.
-/

/-! ## Expressions -/

/-- An expression that is among some tokens if it is a bare name. -/
def Expression.NamedIn (whole : List Token) : Expression → Prop
  | .name identifier => ∃ gap, ⟨gap, .name, identifier⟩ ∈ whole
  | _ => True

/-- An expression is read that is among some tokens if it is a bare name. -/
def Finds (whole : List Token) (result : Option (Expression × List Token)) : Prop :=
  ∀ found rest, result = some (found, rest) → found.NamedIn whole

namespace Finds

variable {α : Type} {whole : List Token}

theorem none : Finds whole none :=
  nofun

/-- Something was read. -/
theorem some {found : Expression} {rest : List Token} (known : found.NamedIn whole) :
    Finds whole (some (found, rest)) := by
  rintro _ _ same
  cases same
  exact known

theorem bind {result : Option (α × List Token)} {next : α × List Token → Option (Expression × List Token)}
    (first : Leaves whole result)
    (others : ∀ found rest, rest <:+ whole → Finds whole (next (found, rest))) :
    Finds whole (result >>= next) := by
  cases result with
  | none => exact none
  | some pair => exact others pair.1 pair.2 (first _ _ rfl)

theorem bindRest {result : Option (List Token)}
    {next : List Token → Option (Expression × List Token)} (first : LeavesRest whole result)
    (others : ∀ rest, rest <:+ whole → Finds whole (next rest)) :
    Finds whole (result >>= next) := by
  cases result with
  | none => exact none
  | some rest => exact others rest (first _ rfl)

theorem carry {result : Option (Expression × List Token)}
    {next : Expression × List Token → Option (Expression × List Token)}
    (known : Finds whole result) (first : Leaves whole result)
    (others : ∀ found rest, found.NamedIn whole → rest <:+ whole →
      Finds whole (next (found, rest))) :
    Finds whole (result >>= next) := by
  cases result with
  | none => exact none
  | some pair => exact others pair.1 pair.2 (known _ _ rfl) (first _ _ rfl)

end Finds

/-- Every kind of phrase that may be a bare name finds it among the tokens. -/
structure PhrasesFind (whole : List Token) (fuel : Nat) : Prop where
  expression : ∀ {tokens}, tokens <:+ whole → Finds whole (expression fuel tokens)
  operation : ∀ {level tokens}, tokens <:+ whole → Finds whole (operation fuel level tokens)
  operands : ∀ {level value tokens}, value.NamedIn whole → tokens <:+ whole →
    Finds whole (operands fuel level value tokens)
  factor : ∀ {tokens}, tokens <:+ whole → Finds whole (factor fuel tokens)
  awaited : ∀ {tokens}, tokens <:+ whole → Finds whole (awaited fuel tokens)
  primary : ∀ {tokens}, tokens <:+ whole → Finds whole (primary fuel tokens)
  trailers : ∀ {value tokens}, value.NamedIn whole → tokens <:+ whole →
    Finds whole (trailers fuel value tokens)
  atom : ∀ {tokens}, tokens <:+ whole → Finds whole (atom fuel tokens)
  round : ∀ {tokens}, tokens <:+ whole → Finds whole (round fuel tokens)
  square : ∀ {tokens}, tokens <:+ whole → Finds whole (square fuel tokens)
  curly : ∀ {tokens}, tokens <:+ whole → Finds whole (curly fuel tokens)
  named : ∀ {tokens}, tokens <:+ whole → Finds whole (named fuel tokens)
  starNamed : ∀ {tokens}, tokens <:+ whole → Finds whole (starNamed fuel tokens)
  starExpression : ∀ {tokens}, tokens <:+ whole → Finds whole (starExpression fuel tokens)
  starExpressions : ∀ {tokens}, tokens <:+ whole → Finds whole (starExpressions fuel tokens)
  produced : ∀ {tokens}, tokens <:+ whole → Finds whole (produced fuel tokens)

section Steps

variable {whole tokens : List Token} {fuel : Nat} (ih : PhrasesFind whole fuel)
  (within : tokens <:+ whole)

include ih within

/-- A conditional expression, a lambda, or an operation. -/
theorem finds_expression : Finds whole (expression (fuel + 1) tokens) := by
  have phrases := phrasesLeave whole fuel
  unfold expression
  split
  case h_1 word =>
    refine .bind (phrases.parameters (leavesRest_expect within _ word)) fun _ _ within => ?_
    refine .bindRest (leavesRest_expect within) fun _ within => ?_
    exact .bind (phrases.expression within) fun _ _ _ => .some trivial
  case h_2 =>
    refine .carry (ih.operation within) (phrases.operation within) fun _ _ known within => ?_
    dsimp only
    split
    · exact .some known
    case h_2 word =>
      refine .bind (phrases.operation (leavesRest_expect within _ word)) fun _ _ within => ?_
      refine .bindRest (leavesRest_expect within) fun _ within => ?_
      exact .bind (phrases.expression within) fun _ _ _ => .some trivial

theorem finds_operation {level : Nat} : Finds whole (operation (fuel + 1) level tokens) := by
  have phrases := phrasesLeave whole fuel
  unfold operation
  split
  · split
    case h_1 word =>
      exact .bind (phrases.operation (leavesRest_expect within _ word)) fun _ _ _ => .some trivial
    case h_2 => exact ih.operation within
  · split
    · exact ih.factor within
    · exact .carry (ih.operation within) (phrases.operation within) fun _ _ known within =>
        ih.operands known within

theorem finds_operands {level : Nat} {value : Expression} (known : value.NamedIn whole) :
    Finds whole (operands (fuel + 1) level value tokens) := by
  unfold operands
  split
  · exact .some known
  case h_2 sign =>
    exact .bind ((phrasesLeave whole fuel).operation (leavesRest_afterOperator within _ sign))
      fun _ _ within => ih.operands trivial within

/-- A signed value or a power. -/
theorem finds_factor : Finds whole (factor (fuel + 1) tokens) := by
  have phrases := phrasesLeave whole fuel
  unfold factor
  split
  · exact .bind (phrases.factor (suffix_behind within)) fun _ _ _ => .some trivial
  · exact .bind (phrases.factor (suffix_behind within)) fun _ _ _ => .some trivial
  · refine .carry (ih.awaited within) (phrases.awaited within) fun _ _ known within => ?_
    dsimp only
    split
    · exact .some known
    case h_2 sign =>
      exact .bind (phrases.factor (leavesRest_expect within _ sign)) fun _ _ _ => .some trivial

theorem finds_awaited : Finds whole (awaited (fuel + 1) tokens) := by
  unfold awaited
  split
  case h_1 word =>
    exact .bind ((phrasesLeave whole fuel).primary (leavesRest_expect within _ word))
      fun _ _ _ => .some trivial
  case h_2 => exact ih.primary within

theorem finds_primary : Finds whole (primary (fuel + 1) tokens) := by
  unfold primary
  exact .carry (ih.atom within) ((phrasesLeave whole fuel).atom within) fun _ _ known within =>
    ih.trailers known within

/-- Attributes, calls and subscripts: behind one of them the value is no bare name. -/
theorem finds_trailers {value : Expression} (known : value.NamedIn whole) :
    Finds whole (trailers (fuel + 1) value tokens) := by
  have phrases := phrasesLeave whole fuel
  unfold trailers
  split
  · exact ih.trailers trivial (suffix_behind (suffix_behind within))
  · exact .none
  · refine .bind (phrases.arguments (suffix_behind within)) fun _ _ within => ?_
    exact .bindRest (leavesRest_expect within) fun _ within => ih.trailers trivial within
  · refine .bind (phrases.subscripts (suffix_behind within)) fun _ _ within => ?_
    exact .bindRest (leavesRest_expect within) fun _ within => ih.trailers trivial within
  · exact .some known

/-- A name, a literal, or a bracketed expression. -/
theorem finds_atom : Finds whole (atom (fuel + 1) tokens) := by
  have phrases := phrasesLeave whole fuel
  unfold atom
  split
  case h_1 gap identifier rest =>
    exact .some ⟨gap, within.subset (List.mem_cons_self ..)⟩
  case h_7 =>
    split
    · exact .bindRest (phrases.literals (suffix_behind within)) fun _ _ => .some trivial
    · exact .some trivial
  case h_8 => exact .bindRest (phrases.literals within) fun _ _ => .some trivial
  case h_9 => exact ih.round (suffix_behind within)
  case h_10 => exact ih.square (suffix_behind within)
  case h_11 => exact ih.curly (suffix_behind within)
  case h_12 => exact .none
  all_goals exact .some trivial

/-- What stands behind an opening parenthesis. -/
theorem finds_round : Finds whole (round (fuel + 1) tokens) := by
  have phrases := phrasesLeave whole fuel
  unfold round
  split
  · exact .some trivial
  · refine .bind (phrases.produced within) fun _ _ within => ?_
    exact .bindRest (leavesRest_expect within) fun _ _ => .some trivial
  · refine .carry (ih.starNamed within) (phrases.starNamed within) fun _ _ known within => ?_
    dsimp only
    split
    · exact .none
    · refine .bindRest (phrases.comprehension within) fun _ within => ?_
      exact .bindRest (leavesRest_expect within) fun _ _ => .some trivial
    · split
      · refine .bind (phrases.starNamedItems within) fun _ _ within => ?_
        exact .bindRest (leavesRest_expect within) fun _ _ => .some trivial
      · exact .none
      · exact .bindRest (leavesRest_expect within) fun _ _ => .some known

omit ih in
/-- A list is no bare name. -/
theorem finds_square : Finds whole (square (fuel + 1) tokens) := by
  have phrases := phrasesLeave whole fuel
  unfold square
  split
  · exact .some trivial
  · refine .bind (phrases.starNamed within) fun _ _ within => ?_
    dsimp only
    split
    · exact .none
    · refine .bindRest (phrases.comprehension within) fun _ within => ?_
      exact .bindRest (leavesRest_expect within) fun _ _ => .some trivial
    · refine .bind (phrases.starNamedItems within) fun _ _ within => ?_
      exact .bindRest (leavesRest_expect within) fun _ _ => .some trivial

omit ih in
/-- Neither is a set or a mapping. -/
theorem finds_curly : Finds whole (curly (fuel + 1) tokens) := by
  have phrases := phrasesLeave whole fuel
  unfold curly
  split
  · exact .some trivial
  · refine .bind (phrases.operation (suffix_behind within)) fun _ _ within => ?_
    exact .bindRest (phrases.entries within) fun _ _ => .some trivial
  · refine .bind (phrases.starNamed within) fun _ _ within => ?_
    refine .bind (phrases.starNamedItems within) fun _ _ within => ?_
    exact .bindRest (leavesRest_expect within) fun _ _ => .some trivial
  · refine .bind (phrases.named within) fun _ _ within => ?_
    exact .bindRest (phrases.elements within) fun _ _ => .some trivial
  · refine .bind (phrases.expression within) fun _ _ within => ?_
    dsimp only
    split
    · exact .bindRest (phrases.elements within) fun _ _ => .some trivial
    case h_2 sign =>
      refine .bind (phrases.expression (leavesRest_expect within _ sign)) fun _ _ within => ?_
      dsimp only
      split
      · refine .bindRest (phrases.comprehension within) fun _ within => ?_
        exact .bindRest (leavesRest_expect within) fun _ _ => .some trivial
      · exact .bindRest (phrases.entries within) fun _ _ => .some trivial

/-- An expression with a name given to its value, or without. -/
theorem finds_named : Finds whole (named (fuel + 1) tokens) := by
  unfold named
  split
  · exact .bind ((phrasesLeave whole fuel).expression (suffix_behind (suffix_behind within)))
      fun _ _ _ => .some trivial
  · exact ih.expression within

theorem finds_starNamed : Finds whole (starNamed (fuel + 1) tokens) := by
  unfold starNamed
  split
  case h_1 sign =>
    exact .bind ((phrasesLeave whole fuel).operation (leavesRest_expect within _ sign))
      fun _ _ _ => .some trivial
  case h_2 => exact ih.named within

theorem finds_starExpression : Finds whole (starExpression (fuel + 1) tokens) := by
  unfold starExpression
  split
  case h_1 sign =>
    exact .bind ((phrasesLeave whole fuel).operation (leavesRest_expect within _ sign))
      fun _ _ _ => .some trivial
  case h_2 => exact ih.expression within

/-- One expression, or a tuple without parentheses. -/
theorem finds_starExpressions : Finds whole (starExpressions (fuel + 1) tokens) := by
  have phrases := phrasesLeave whole fuel
  unfold starExpressions
  refine .carry (ih.starExpression within) (phrases.starExpression within)
    fun _ _ known within => ?_
  dsimp only
  split
  · exact .some known
  · exact .bind (phrases.starItems within) fun _ _ _ => .some trivial

theorem finds_produced : Finds whole (produced (fuel + 1) tokens) := by
  have phrases := phrasesLeave whole fuel
  unfold produced
  split
  · exact ih.starExpressions within
  case h_2 word =>
    have behind := leavesRest_expect within _ word
    split
    case h_1 word =>
      exact .bind (phrases.expression (leavesRest_expect behind _ word)) fun _ _ _ => .some trivial
    case h_2 => split <;> exact .some trivial

end Steps

/-- **A bare name stands among the tokens** that it is read from. -/
theorem phrasesFind (whole : List Token) : ∀ fuel, PhrasesFind whole fuel
  | 0 => by constructor <;> intros <;> exact .none
  | fuel + 1 => by
    have ih := phrasesFind whole fuel
    exact {
      expression := finds_expression ih
      operation := fun within => finds_operation ih within
      operands := fun known within => finds_operands ih within known
      factor := finds_factor ih
      awaited := finds_awaited ih
      primary := finds_primary ih
      trailers := fun known within => finds_trailers ih within known
      atom := finds_atom ih
      round := finds_round ih
      square := finds_square
      curly := finds_curly
      named := finds_named ih
      starNamed := finds_starNamed ih
      starExpression := finds_starExpression ih
      starExpressions := finds_starExpressions ih
      produced := finds_produced ih }

/-! ## Declarations -/

/-- A small statement that, if it declares a bare name, declares one of some tokens. -/
def Form.DeclaresIn (whole : List Token) : Form → Prop
  | .declaration target _ _ => target.NamedIn whole
  | _ => True

/-- Only statements that begin with a value are declarations, and they declare what they begin
with. -/
theorem declaresIn_of_valueStatement {whole tokens rest : List Token} {fuel : Nat} {form : Form}
    (within : tokens <:+ whole) (read : valueStatement fuel tokens = some (form, rest)) :
    form.DeclaresIn whole := by
  unfold valueStatement at read
  rcases Option.bind_eq_some_iff.1 read with ⟨⟨value, behind⟩, found, read⟩
  have known := (phrasesFind whole fuel).produced within _ _ found
  dsimp only at read
  split at read
  · split at read
    · rcases Option.bind_eq_some_iff.1 read with ⟨⟨type, after⟩, -, read⟩
      dsimp only at read
      split at read
      · cases read
        exact known
      · rcases Option.bind_eq_some_iff.1 read with ⟨_, -, same⟩
        cases same
        exact known
    · cases read
  · split at read
    · rcases Option.bind_eq_some_iff.1 read with ⟨_, -, same⟩
      cases same
      trivial
    · cases read
  · split at read
    · rcases Option.bind_eq_some_iff.1 read with ⟨_, -, same⟩
      cases same
      trivial
    · cases read
  · cases read
    trivial

def Form.IsDeclaration : Form → Prop
  | .declaration _ _ _ => True
  | _ => False

theorem not_isDeclaration_of_namesFrom {rest : List Token} {fuel : Nat} {form : Form}
    {origin : Option Text} {result : Option (List Token)}
    (read : (do
      let rest ← result
      match rest with
      | ⟨_, .symbol .star, _⟩ :: rest => some (Form.importsFrom origin none, rest)
      | ⟨_, .symbol .openRound, _⟩ :: rest => do
        let (aliases, rest) ← importedNameList true fuel rest
        let rest ← expectSymbol .closeRound rest
        some (.importsFrom origin (some aliases), rest)
      | _ => do
        let (aliases, rest) ← importedNameList false fuel rest
        some (.importsFrom origin (some aliases), rest)) = some (form, rest)) :
    ¬form.IsDeclaration := by
  rcases Option.bind_eq_some_iff.1 read with ⟨behind, -, read⟩
  split at read
  · cases read
    nofun
  · rcases Option.bind_eq_some_iff.1 read with ⟨_, -, read⟩
    rcases Option.bind_eq_some_iff.1 read with ⟨_, -, same⟩
    cases same
    nofun
  · rcases Option.bind_eq_some_iff.1 read with ⟨_, -, same⟩
    cases same
    nofun

theorem not_isDeclaration_of_importFrom {tokens rest : List Token} {fuel : Nat} {form : Form}
    (read : importFrom fuel tokens = some (form, rest)) : ¬form.IsDeclaration := by
  unfold importFrom at read
  dsimp only at read
  split at read
  · exact not_isDeclaration_of_namesFrom read
  · split at read
    · exact not_isDeclaration_of_namesFrom read
    · cases read

theorem valueStatement_of_isDeclaration {tokens rest : List Token} {fuel : Nat} {form : Form}
    (read : smallStatement fuel tokens = some (form, rest)) (declares : form.IsDeclaration) :
    valueStatement fuel tokens = some (form, rest) := by
  have formed : ∀ {α : Type} {result : Option α} {make : α → Form × List Token},
      result.map make = some (form, rest) → (∀ found, ¬(make found).1.IsDeclaration) → False := by
    intro α result make read other
    rcases Option.map_eq_some_iff.1 read with ⟨found, -, same⟩
    have own := other found
    rw [same] at own
    exact own declares
  unfold smallStatement at read
  split at read
  case h_1 => cases read
  case h_5 => split at read <;> cases read <;> cases declares
  case h_6 =>
    split at read
    · cases read
      cases declares
    · split at read
      · cases read
        cases declares
      · exact (formed read fun _ => nofun).elim
  case h_7 =>
    rcases Option.bind_eq_some_iff.1 read with ⟨_, -, read⟩
    dsimp only at read
    split at read
    · cases read
      cases declares
    · exact (formed read fun _ => nofun).elim
  case h_8 =>
    rcases Option.bind_eq_some_iff.1 read with ⟨_, -, read⟩
    dsimp only at read
    split at read <;> cases read
    cases declares
  case h_9 => exact (formed read fun _ => nofun).elim
  case h_10 => exact (formed read fun _ => nofun).elim
  case h_11 => exact (formed read fun _ => nofun).elim
  case h_12 => exact absurd declares (not_isDeclaration_of_importFrom read)
  case h_13 =>
    rcases Option.bind_eq_some_iff.1 read with ⟨_, -, read⟩
    rcases Option.bind_eq_some_iff.1 read with ⟨_, -, read⟩
    rcases Option.bind_eq_some_iff.1 read with ⟨_, -, same⟩
    cases same
    cases declares
  case h_14 => exact read
  all_goals
    cases read
    cases declares

/-- No small statement declares a bare name that is not among its tokens. -/
theorem declaresIn_of_smallStatement {whole tokens rest : List Token} {fuel : Nat} {form : Form}
    (within : tokens <:+ whole) (read : smallStatement fuel tokens = some (form, rest)) :
    form.DeclaresIn whole := by
  cases form with
  | declaration target type typeTokens =>
    exact declaresIn_of_valueStatement within (valueStatement_of_isDeclaration read trivial)
  | _ => trivial

/-! ## Files -/

/-- Declarations of bare names declare identifiers that are no reserved words. -/
def Form.DeclaresNames : Form → Prop
  | .declaration (.name identifier) _ _ =>
    Text.isIdentifier identifier = true ∧ Keyword.ofText? identifier = none
  | _ => True

/-- So it is in every small statement. -/
def declarationLaw : TreeLaw :=
  ⟨fun _ => True, fun _ => True, fun items => ∀ item ∈ items, item.form.DeclaresNames⟩

theorem Form.DeclaresIn.declaresNames {tokens : List Token} {form : Form}
    (declares : form.DeclaresIn tokens) (spelled : ∀ token ∈ tokens, token.Spelled) :
    form.DeclaresNames := by
  cases form with
  | declaration target type typeTokens =>
    cases target with
    | name identifier =>
      rcases declares with ⟨gap, member⟩
      exact spelled _ member rfl
    | _ => trivial
  | _ => trivial

theorem declarationLaw_allowsLines : declarationLaw.AllowsLines := by
  intro tokens spelled amongCases read readable
  have declared : ∀ item ∈ read.smallStatements, item.form.DeclaresNames := by
    intro item member
    rcases readFrom_of_readLine readable item member with ⟨fuel, behind, rest, within, found⟩
    exact (declaresIn_of_smallStatement within found).declaresNames spelled
  cases read with
  | items found => exact declared
  | header head front found =>
    cases head with
    | decorator value => exact ⟨trivial, declared⟩
    | definition role => exact ⟨trivial, declared⟩
    | clause kind => exact declared

end Source
end OpenRecord
