import OpenRecord.Source.Grammar

namespace OpenRecord
namespace Source

/-!
# What a phrase leaves

Every phrase of the grammar of expressions takes tokens off the front of a list and leaves the end of
the list.  There is one lemma for each kind of phrase, which relies on all kinds being so with less
fuel; the induction on the fuel puts them together.
-/

/-! ## Results that leave the end of some tokens -/

/-- If something was read, the end of some tokens is left. -/
def Leaves {α : Type} (whole : List Token) (result : Option (α × List Token)) : Prop :=
  ∀ found rest, result = some (found, rest) → rest <:+ whole

def LeavesRest (whole : List Token) (result : Option (List Token)) : Prop :=
  ∀ rest, result = some rest → rest <:+ whole

theorem suffix_behind {token : Token} {rest whole : List Token} (within : token :: rest <:+ whole) :
    rest <:+ whole :=
  (List.suffix_cons token rest).trans within

/-- What was read to get to the end of some tokens, and that end. -/
theorem tokensRead_append {before after : List Token} (within : after <:+ before) :
    tokensRead before after ++ after = before := by
  rcases within with ⟨front, rfl⟩
  simp [tokensRead]

namespace Leaves

variable {α β : Type} {whole : List Token}

theorem none : Leaves (α := α) whole none :=
  nofun

/-- Something was read. -/
theorem some {found : α} {rest : List Token} (within : rest <:+ whole) :
    Leaves whole (some (found, rest)) := by
  rintro _ _ same
  cases same
  exact within

theorem bind {result : Option (α × List Token)} {next : α × List Token → Option (β × List Token)}
    (first : Leaves whole result)
    (others : ∀ found rest, rest <:+ whole → Leaves whole (next (found, rest))) :
    Leaves whole (result >>= next) := by
  cases result with
  | none => exact none
  | some pair => exact others pair.1 pair.2 (first _ _ rfl)

theorem bindRest {result : Option (List Token)} {next : List Token → Option (α × List Token)}
    (first : LeavesRest whole result) (others : ∀ rest, rest <:+ whole → Leaves whole (next rest)) :
    Leaves whole (result >>= next) := by
  cases result with
  | none => exact none
  | some rest => exact others rest (first _ rfl)

/-- What was read may be given another form. -/
theorem map {result : Option (α × List Token)} {form : α × List Token → β × List Token}
    (leaves : Leaves whole result) (same : ∀ found, (form found).2 = found.2) :
    Leaves whole (result.map form) := by
  cases result with
  | none => exact none
  | some pair =>
    rintro _ _ formed
    rcases Prod.ext_iff.1 (Option.some.inj formed) with ⟨-, rfl⟩
    rw [same]
    exact leaves _ _ rfl

theorem mapRest {result : Option (List Token)} {found : α} (leaves : LeavesRest whole result) :
    Leaves whole (result.map fun rest => (found, rest)) := by
  cases result with
  | none => exact none
  | some rest => exact some (leaves _ rfl)

end Leaves

namespace LeavesRest

variable {α : Type} {whole : List Token}

theorem none : LeavesRest whole none :=
  nofun

/-- Something was read. -/
theorem some {rest : List Token} (within : rest <:+ whole) : LeavesRest whole (some rest) := by
  rintro _ same
  cases same
  exact within

theorem bind {result : Option (α × List Token)} {next : α × List Token → Option (List Token)}
    (first : Leaves whole result)
    (others : ∀ found rest, rest <:+ whole → LeavesRest whole (next (found, rest))) :
    LeavesRest whole (result >>= next) := by
  cases result with
  | none => exact none
  | some pair => exact others pair.1 pair.2 (first _ _ rfl)

theorem bindRest {result : Option (List Token)} {next : List Token → Option (List Token)}
    (first : LeavesRest whole result)
    (others : ∀ rest, rest <:+ whole → LeavesRest whole (next rest)) :
    LeavesRest whole (result >>= next) := by
  cases result with
  | none => exact none
  | some rest => exact others rest (first _ rfl)

theorem map {result : Option (α × List Token)} (leaves : Leaves whole result) :
    LeavesRest whole (result.map (·.2)) := by
  cases result with
  | none => exact none
  | some pair => exact some (leaves _ _ rfl)

theorem getD {result : Option (List Token)} {tokens : List Token}
    (leaves : LeavesRest whole result) (within : tokens <:+ whole) :
    result.getD tokens <:+ whole := by
  cases result with
  | none => exact within
  | some rest => exact leaves _ rfl

end LeavesRest

section Tokens

variable {whole tokens : List Token}

theorem leavesRest_expect {kind : TokenKind} (within : tokens <:+ whole) :
    LeavesRest whole (expect kind tokens) := by
  unfold expect
  split
  · split
    · exact .some (suffix_behind within)
    · exact .none
  · exact .none

theorem leavesRest_afterOperator {level : Nat} (within : tokens <:+ whole) :
    LeavesRest whole (afterOperator level tokens) := by
  unfold afterOperator
  split
  · exact .none
  · have behind := suffix_behind within
    split
    case h_5 => exact leavesRest_expect behind
    case h_6 => exact .some ((leavesRest_expect behind).getD behind)
    case h_16 => exact .none
    all_goals exact .some behind

theorem leavesRest_afterFor (within : tokens <:+ whole) : LeavesRest whole (afterFor tokens) :=
  leavesRest_expect ((leavesRest_expect within).getD within)

end Tokens

/-! ## Phrases -/

/-- Every phrase that is read with some fuel from the end of some tokens leaves the end of them. -/
structure PhrasesLeave (whole : List Token) (fuel : Nat) : Prop where
  expression : ∀ {tokens}, tokens <:+ whole → Leaves whole (expression fuel tokens)
  operation : ∀ {level tokens}, tokens <:+ whole → Leaves whole (operation fuel level tokens)
  operands : ∀ {level value tokens}, tokens <:+ whole →
    Leaves whole (operands fuel level value tokens)
  factor : ∀ {tokens}, tokens <:+ whole → Leaves whole (factor fuel tokens)
  awaited : ∀ {tokens}, tokens <:+ whole → Leaves whole (awaited fuel tokens)
  primary : ∀ {tokens}, tokens <:+ whole → Leaves whole (primary fuel tokens)
  trailers : ∀ {value tokens}, tokens <:+ whole → Leaves whole (trailers fuel value tokens)
  atom : ∀ {tokens}, tokens <:+ whole → Leaves whole (atom fuel tokens)
  literals : ∀ {tokens}, tokens <:+ whole → LeavesRest whole (literals fuel tokens)
  template : ∀ {tokens}, tokens <:+ whole → LeavesRest whole (template fuel tokens)
  round : ∀ {tokens}, tokens <:+ whole → Leaves whole (round fuel tokens)
  square : ∀ {tokens}, tokens <:+ whole → Leaves whole (square fuel tokens)
  curly : ∀ {tokens}, tokens <:+ whole → Leaves whole (curly fuel tokens)
  elements : ∀ {tokens}, tokens <:+ whole → LeavesRest whole (elements fuel tokens)
  entries : ∀ {tokens}, tokens <:+ whole → LeavesRest whole (entries fuel tokens)
  named : ∀ {tokens}, tokens <:+ whole → Leaves whole (named fuel tokens)
  starNamed : ∀ {tokens}, tokens <:+ whole → Leaves whole (starNamed fuel tokens)
  starNamedItems : ∀ {tokens}, tokens <:+ whole → Leaves whole (starNamedItems fuel tokens)
  starExpression : ∀ {tokens}, tokens <:+ whole → Leaves whole (starExpression fuel tokens)
  starExpressions : ∀ {tokens}, tokens <:+ whole → Leaves whole (starExpressions fuel tokens)
  starItems : ∀ {tokens}, tokens <:+ whole → Leaves whole (starItems fuel tokens)
  produced : ∀ {tokens}, tokens <:+ whole → Leaves whole (produced fuel tokens)
  comprehension : ∀ {tokens}, tokens <:+ whole → LeavesRest whole (comprehension fuel tokens)
  conditions : ∀ {tokens}, tokens <:+ whole → LeavesRest whole (conditions fuel tokens)
  targets : ∀ {tokens}, tokens <:+ whole → Leaves whole (targets fuel tokens)
  targetItems : ∀ {tokens}, tokens <:+ whole → Leaves whole (targetItems fuel tokens)
  target : ∀ {tokens}, tokens <:+ whole → Leaves whole (target fuel tokens)
  arguments : ∀ {lone phase tokens}, tokens <:+ whole →
    Leaves whole (arguments fuel lone phase tokens)
  moreArguments : ∀ {phase tokens}, tokens <:+ whole →
    Leaves whole (moreArguments fuel phase tokens)
  subscripts : ∀ {tokens}, tokens <:+ whole → Leaves whole (subscripts fuel tokens)
  subscriptElement : ∀ {tokens}, tokens <:+ whole → Leaves whole (subscriptElement fuel tokens)
  sliceBound : ∀ {tokens}, tokens <:+ whole → LeavesRest whole (sliceBound fuel tokens)
  parameters : ∀ {typed phase tokens}, tokens <:+ whole →
    Leaves whole (parameters fuel typed phase tokens)
  moreParameters : ∀ {typed phase tokens}, tokens <:+ whole →
    Leaves whole (moreParameters fuel typed phase tokens)
  parameterType : ∀ {typed unpacked tokens}, tokens <:+ whole →
    LeavesRest whole (parameterType fuel typed unpacked tokens)

section Steps

variable {whole tokens : List Token} {fuel : Nat} (ih : PhrasesLeave whole fuel)
  (within : tokens <:+ whole)

include ih within

/-! ### Operations -/

/-- A conditional expression, a lambda, or an operation. -/
theorem leaves_expression : Leaves whole (expression (fuel + 1) tokens) := by
  unfold expression
  split
  case h_1 word =>
    refine .bind (ih.parameters (leavesRest_expect within _ word)) fun _ _ within => ?_
    refine .bindRest (leavesRest_expect within) fun _ within => ?_
    exact .bind (ih.expression within) fun _ _ within => .some within
  case h_2 =>
    refine .bind (ih.operation within) fun _ _ within => ?_
    dsimp only
    split
    · exact .some within
    case h_2 word =>
      refine .bind (ih.operation (leavesRest_expect within _ word)) fun _ _ within => ?_
      refine .bindRest (leavesRest_expect within) fun _ within => ?_
      exact .bind (ih.expression within) fun _ _ within => .some within

theorem leaves_operation {level : Nat} : Leaves whole (operation (fuel + 1) level tokens) := by
  unfold operation
  split
  · split
    case h_1 word =>
      exact .bind (ih.operation (leavesRest_expect within _ word)) fun _ _ within => .some within
    case h_2 => exact ih.operation within
  · split
    · exact ih.factor within
    · exact .bind (ih.operation within) fun _ _ within => ih.operands within

theorem leaves_operands {level : Nat} {value : Expression} :
    Leaves whole (operands (fuel + 1) level value tokens) := by
  unfold operands
  split
  · exact .some within
  case h_2 sign =>
    exact .bind (ih.operation (leavesRest_afterOperator within _ sign)) fun _ _ within =>
      ih.operands within

/-- A signed value or a power. -/
theorem leaves_factor : Leaves whole (factor (fuel + 1) tokens) := by
  unfold factor
  split
  · exact .bind (ih.factor (suffix_behind within)) fun _ _ within => .some within
  · exact .bind (ih.factor (suffix_behind within)) fun _ _ within => .some within
  · refine .bind (ih.awaited within) fun _ _ within => ?_
    dsimp only
    split
    · exact .some within
    case h_2 sign =>
      exact .bind (ih.factor (leavesRest_expect within _ sign)) fun _ _ within => .some within

theorem leaves_awaited : Leaves whole (awaited (fuel + 1) tokens) := by
  unfold awaited
  split
  case h_1 word =>
    exact .bind (ih.primary (leavesRest_expect within _ word)) fun _ _ within => .some within
  case h_2 => exact ih.primary within

theorem leaves_primary : Leaves whole (primary (fuel + 1) tokens) := by
  unfold primary
  exact .bind (ih.atom within) fun _ _ within => ih.trailers within

/-- Attributes, calls and subscripts. -/
theorem leaves_trailers {value : Expression} :
    Leaves whole (trailers (fuel + 1) value tokens) := by
  unfold trailers
  split
  · exact ih.trailers (suffix_behind (suffix_behind within))
  · exact .none
  · refine .bind (ih.arguments (suffix_behind within)) fun _ _ within => ?_
    exact .bindRest (leavesRest_expect within) fun _ within => ih.trailers within
  · refine .bind (ih.subscripts (suffix_behind within)) fun _ _ within => ?_
    exact .bindRest (leavesRest_expect within) fun _ within => ih.trailers within
  · exact .some within

/-! ### Atoms -/

/-- A name, a literal, or a bracketed expression. -/
theorem leaves_atom : Leaves whole (atom (fuel + 1) tokens) := by
  unfold atom
  split
  case h_7 =>
    split
    · exact .bindRest (ih.literals (suffix_behind within)) fun _ within => .some within
    · exact .some (suffix_behind within)
  case h_8 => exact .bindRest (ih.literals within) fun _ within => .some within
  case h_9 => exact ih.round (suffix_behind within)
  case h_10 => exact ih.square (suffix_behind within)
  case h_11 => exact ih.curly (suffix_behind within)
  case h_12 => exact .none
  all_goals exact .some (suffix_behind within)

theorem leaves_literals : LeavesRest whole (literals (fuel + 1) tokens) := by
  unfold literals
  split
  · exact ih.literals (suffix_behind within)
  · refine .bindRest (ih.template (suffix_behind within)) fun _ within => ?_
    exact .bindRest (leavesRest_expect within) fun _ within => ih.literals within
  · exact .some within

/-- The text and the replacement fields of a template. -/
theorem leaves_template : LeavesRest whole (template (fuel + 1) tokens) := by
  unfold template
  split
  · exact ih.template (suffix_behind within)
  · refine .bind (ih.produced (suffix_behind within)) fun _ _ within => ?_
    have sign : LeavesRest whole (expectSymbol .equal _) := leavesRest_expect within
    have debugged := sign.getD within
    have closed : ∀ {rest}, rest <:+ whole → LeavesRest whole (do
        let rest ← expectSymbol .closeCurly rest
        template fuel rest) :=
      fun within => .bindRest (leavesRest_expect within) fun _ within => ih.template within
    dsimp only
    split
    case h_1 sign =>
      refine .bindRest (leavesRest_expect (leavesRest_expect debugged _ sign)) fun _ within => ?_
      split
      case h_1 sign =>
        exact .bindRest (ih.template (leavesRest_expect within _ sign)) fun _ within =>
          closed within
      case h_2 => exact closed within
    case h_2 =>
      refine .bindRest (.some debugged) fun _ within => ?_
      split
      case h_1 sign =>
        exact .bindRest (ih.template (leavesRest_expect within _ sign)) fun _ within =>
          closed within
      case h_2 => exact closed within
  · exact .some within

/-- What stands behind an opening parenthesis. -/
theorem leaves_round : Leaves whole (round (fuel + 1) tokens) := by
  unfold round
  split
  · exact .some (suffix_behind within)
  · refine .bind (ih.produced within) fun _ _ within => ?_
    exact .bindRest (leavesRest_expect within) fun _ within => .some within
  · refine .bind (ih.starNamed within) fun _ _ within => ?_
    dsimp only
    split
    · exact .none
    · refine .bindRest (ih.comprehension within) fun _ within => ?_
      exact .bindRest (leavesRest_expect within) fun _ within => .some within
    · split
      · refine .bind (ih.starNamedItems within) fun _ _ within => ?_
        exact .bindRest (leavesRest_expect within) fun _ within => .some within
      · exact .none
      · exact .bindRest (leavesRest_expect within) fun _ within => .some within

/-- What stands behind the opening bracket of a list. -/
theorem leaves_square : Leaves whole (square (fuel + 1) tokens) := by
  unfold square
  split
  · exact .some (suffix_behind within)
  · refine .bind (ih.starNamed within) fun _ _ within => ?_
    dsimp only
    split
    · exact .none
    · refine .bindRest (ih.comprehension within) fun _ within => ?_
      exact .bindRest (leavesRest_expect within) fun _ within => .some within
    · refine .bind (ih.starNamedItems within) fun _ _ within => ?_
      exact .bindRest (leavesRest_expect within) fun _ within => .some within

/-- What stands behind an opening brace. -/
theorem leaves_curly : Leaves whole (curly (fuel + 1) tokens) := by
  unfold curly
  split
  · exact .some (suffix_behind within)
  · refine .bind (ih.operation (suffix_behind within)) fun _ _ within => ?_
    exact .bindRest (ih.entries within) fun _ within => .some within
  · refine .bind (ih.starNamed within) fun _ _ within => ?_
    refine .bind (ih.starNamedItems within) fun _ _ within => ?_
    exact .bindRest (leavesRest_expect within) fun _ within => .some within
  · refine .bind (ih.named within) fun _ _ within => ?_
    exact .bindRest (ih.elements within) fun _ within => .some within
  · refine .bind (ih.expression within) fun _ _ within => ?_
    dsimp only
    split
    · exact .bindRest (ih.elements within) fun _ within => .some within
    case h_2 sign =>
      refine .bind (ih.expression (leavesRest_expect within _ sign)) fun _ _ within => ?_
      dsimp only
      split
      · refine .bindRest (ih.comprehension within) fun _ within => ?_
        exact .bindRest (leavesRest_expect within) fun _ within => .some within
      · exact .bindRest (ih.entries within) fun _ within => .some within

theorem leaves_elements : LeavesRest whole (elements (fuel + 1) tokens) := by
  unfold elements
  split
  · exact .bindRest (ih.comprehension within) fun _ within => leavesRest_expect within
  · exact .bind (ih.starNamedItems within) fun _ _ within => leavesRest_expect within

theorem leaves_entries : LeavesRest whole (entries (fuel + 1) tokens) := by
  unfold entries
  split
  · exact .some (suffix_behind within)
  · exact .some (suffix_behind (suffix_behind within))
  · exact .bind (ih.operation (suffix_behind (suffix_behind within))) fun _ _ within =>
      ih.entries within
  · refine .bind (ih.expression (suffix_behind within)) fun _ _ within => ?_
    refine .bindRest (leavesRest_expect within) fun _ within => ?_
    exact .bind (ih.expression within) fun _ _ within => ih.entries within
  · exact .none

/-! ### Lists of expressions -/

/-- An expression with a name given to its value, or without. -/
theorem leaves_named : Leaves whole (named (fuel + 1) tokens) := by
  unfold named
  split
  · exact .bind (ih.expression (suffix_behind (suffix_behind within))) fun _ _ within =>
      .some within
  · exact ih.expression within

theorem leaves_starNamed : Leaves whole (starNamed (fuel + 1) tokens) := by
  unfold starNamed
  split
  case h_1 sign =>
    exact .bind (ih.operation (leavesRest_expect within _ sign)) fun _ _ within => .some within
  case h_2 => exact ih.named within

/-- Further starred or named expressions. -/
theorem leaves_starNamedItems : Leaves whole (starNamedItems (fuel + 1) tokens) := by
  unfold starNamedItems
  split
  · exact .some within
  case h_2 sign =>
    have behind := leavesRest_expect within _ sign
    split
    · exact .some behind
    case h_2 item =>
      exact .bind (ih.starNamedItems (ih.starNamed behind _ _ item)) fun _ _ within =>
        .some within

theorem leaves_starExpression : Leaves whole (starExpression (fuel + 1) tokens) := by
  unfold starExpression
  split
  case h_1 sign =>
    exact .bind (ih.operation (leavesRest_expect within _ sign)) fun _ _ within => .some within
  case h_2 => exact ih.expression within

/-- One expression, or a tuple without parentheses. -/
theorem leaves_starExpressions : Leaves whole (starExpressions (fuel + 1) tokens) := by
  unfold starExpressions
  refine .bind (ih.starExpression within) fun _ _ within => ?_
  dsimp only
  split
  · exact .some within
  · exact .bind (ih.starItems within) fun _ _ within => .some within

/-- Further items of a tuple without parentheses. -/
theorem leaves_starItems : Leaves whole (starItems (fuel + 1) tokens) := by
  unfold starItems
  split
  · exact .some within
  case h_2 sign =>
    have behind := leavesRest_expect within _ sign
    split
    · exact .some behind
    case h_2 item =>
      exact .bind (ih.starItems (ih.starExpression behind _ _ item)) fun _ _ within =>
        .some within

theorem leaves_produced : Leaves whole (produced (fuel + 1) tokens) := by
  unfold produced
  split
  · exact ih.starExpressions within
  case h_2 word =>
    have behind := leavesRest_expect within _ word
    split
    case h_1 word =>
      exact .bind (ih.expression (leavesRest_expect behind _ word)) fun _ _ within =>
        .some within
    case h_2 =>
      split
      case h_1 values => exact .some (ih.starExpressions behind _ _ values)
      case h_2 => exact .some behind

/-! ### Comprehensions and targets -/

theorem leaves_comprehension : LeavesRest whole (comprehension (fuel + 1) tokens) := by
  unfold comprehension
  refine .bindRest (leavesRest_afterFor within) fun _ within => ?_
  refine .bind (ih.targets within) fun _ _ within => ?_
  refine .bindRest (leavesRest_expect within) fun _ within => ?_
  refine .bind (ih.operation within) fun _ _ within => ?_
  refine .bindRest (ih.conditions within) fun _ within => ?_
  split
  · exact ih.comprehension within
  · exact .some within

theorem leaves_conditions : LeavesRest whole (conditions (fuel + 1) tokens) := by
  unfold conditions
  split
  · exact .some within
  case h_2 word =>
    exact .bind (ih.operation (leavesRest_expect within _ word)) fun _ _ within =>
      ih.conditions within

theorem leaves_targets : Leaves whole (targets (fuel + 1) tokens) := by
  unfold targets
  refine .bind (ih.target within) fun _ _ within => ?_
  dsimp only
  split
  · exact .some within
  · exact .bind (ih.targetItems within) fun _ _ within => .some within

theorem leaves_targetItems : Leaves whole (targetItems (fuel + 1) tokens) := by
  unfold targetItems
  split
  · exact .some within
  case h_2 sign =>
    have behind := leavesRest_expect within _ sign
    split
    · exact .some behind
    case h_2 item =>
      exact .bind (ih.targetItems (ih.target behind _ _ item)) fun _ _ within => .some within

theorem leaves_target : Leaves whole (target (fuel + 1) tokens) := by
  unfold target
  split
  case h_1 sign =>
    refine .bind (ih.primary (leavesRest_expect within _ sign)) fun _ _ within => ?_
    dsimp only
    split
    · exact .some within
    · exact .none
  case h_2 =>
    refine .bind (ih.primary within) fun _ _ within => ?_
    dsimp only
    split
    · exact .some within
    · exact .none

/-! ### Arguments and subscripts -/

theorem leaves_arguments {lone : Bool} {phase : ArgumentPhase} :
    Leaves whole (arguments (fuel + 1) lone phase tokens) := by
  unfold arguments
  split
  · exact .some within
  · dsimp only
    split
    · exact .none
    · refine .bind (ih.expression (suffix_behind within)) fun _ _ within => ?_
      exact .bind (ih.moreArguments within) fun _ _ within => .some within
  · refine .bind (ih.expression (suffix_behind within)) fun _ _ within => ?_
    exact .bind (ih.moreArguments within) fun _ _ within => .some within
  · refine .bind (ih.expression (suffix_behind (suffix_behind within))) fun _ _ within => ?_
    exact .bind (ih.moreArguments within) fun _ _ within => .some within
  · dsimp only
    split
    · exact .none
    · refine .bind (ih.named within) fun _ _ within => ?_
      dsimp only
      split
      · refine .bindRest (ih.comprehension within) fun _ within => ?_
        split
        · exact .some within
        · exact .none
      · exact .bind (ih.moreArguments within) fun _ _ within => .some within

theorem leaves_moreArguments {phase : ArgumentPhase} :
    Leaves whole (moreArguments (fuel + 1) phase tokens) := by
  unfold moreArguments
  split
  · exact .some within
  case h_2 sign => exact ih.arguments (leavesRest_expect within _ sign)

theorem leaves_subscripts : Leaves whole (subscripts (fuel + 1) tokens) := by
  unfold subscripts
  refine .bind (ih.subscriptElement within) fun _ _ within => ?_
  dsimp only
  split
  · exact .some within
  case h_2 sign =>
    have behind := leavesRest_expect within _ sign
    split
    · exact .some behind
    · exact .bind (ih.subscripts behind) fun _ _ within => .some within

theorem leaves_sliceBound : LeavesRest whole (sliceBound (fuel + 1) tokens) := by
  unfold sliceBound
  split
  case h_4 => exact .bind (ih.expression within) fun _ _ within => .some within
  all_goals exact .some within

/-- Behind the first bound of a slice may stand two more. -/
theorem leaves_bounds : Leaves (α := Option Expression) whole (do
    let rest ← sliceBound fuel tokens
    let rest ←
      match expectSymbol .colon rest with
      | some rest => sliceBound fuel rest
      | none => some rest
    some (none, rest)) := by
  refine .bindRest (ih.sliceBound within) fun _ within => ?_
  split
  case h_1 sign =>
    exact .bindRest (ih.sliceBound (leavesRest_expect within _ sign)) fun _ within =>
      .some within
  case h_2 => exact .some within

theorem leaves_subscriptElement : Leaves whole (subscriptElement (fuel + 1) tokens) := by
  unfold subscriptElement
  split
  · exact .bind (ih.expression (suffix_behind within)) fun _ _ within => .some within
  · exact leaves_bounds ih (suffix_behind within)
  · exact .bind (ih.named within) fun _ _ within => .some within
  · refine .bind (ih.expression within) fun _ _ within => ?_
    dsimp only
    split
    · exact .some within
    case h_2 sign => exact leaves_bounds ih (leavesRest_expect within _ sign)

/-! ### Parameters -/

theorem leaves_parameters {typed : Bool} {phase : ParameterPhase} :
    Leaves whole (parameters (fuel + 1) typed phase tokens) := by
  unfold parameters
  split
  · split
    · exact ih.moreParameters (suffix_behind within)
    · exact .none
  · split
    · exact .none
    · exact ih.parameters (suffix_behind (suffix_behind within))
  · dsimp only
    split
    · exact .none
    · refine .bindRest (ih.parameterType (suffix_behind (suffix_behind within))) fun _ within => ?_
      exact .bind (ih.moreParameters within) fun _ _ within => .some within
  · dsimp only
    split
    · exact .none
    · refine .bindRest (ih.parameterType (suffix_behind (suffix_behind within))) fun _ within => ?_
      exact .some ((leavesRest_expect within).getD within)
  · refine .bindRest (ih.parameterType (suffix_behind within)) fun _ within => ?_
    split
    case h_1 sign =>
      refine .bind (ih.expression (leavesRest_expect within _ sign)) fun _ _ within => ?_
      exact .bind (ih.moreParameters within) fun _ _ within => .some within
    case h_2 =>
      dsimp only
      split
      · exact .none
      · exact .bind (ih.moreParameters within) fun _ _ within => .some within
  · split
    · exact .none
    · exact .some within

theorem leaves_moreParameters {typed : Bool} {phase : ParameterPhase} :
    Leaves whole (moreParameters (fuel + 1) typed phase tokens) := by
  unfold moreParameters
  split
  · split
    · exact .none
    · exact .some within
  case h_2 sign => exact ih.parameters (leavesRest_expect within _ sign)

theorem leaves_parameterType {typed unpacked : Bool} :
    LeavesRest whole (parameterType (fuel + 1) typed unpacked tokens) := by
  unfold parameterType
  split
  · exact .some within
  · split
    · exact .some within
    case h_2 sign =>
      have behind := leavesRest_expect within _ sign
      split
      · exact .bind (ih.starExpression behind) fun _ _ within => .some within
      · exact .bind (ih.expression behind) fun _ _ within => .some within

end Steps

/-- **Every phrase takes tokens off the front.**  With any fuel, what a phrase leaves is the end of
the tokens that it was read from. -/
theorem phrasesLeave (whole : List Token) : ∀ fuel, PhrasesLeave whole fuel
  | 0 => by
    constructor <;> intros <;> exact .none
  | fuel + 1 => by
    have ih := phrasesLeave whole fuel
    exact {
      expression := leaves_expression ih
      operation := fun within => leaves_operation ih within
      operands := fun within => leaves_operands ih within
      factor := leaves_factor ih
      awaited := leaves_awaited ih
      primary := leaves_primary ih
      trailers := fun within => leaves_trailers ih within
      atom := leaves_atom ih
      literals := leaves_literals ih
      template := leaves_template ih
      round := leaves_round ih
      square := leaves_square ih
      curly := leaves_curly ih
      elements := leaves_elements ih
      entries := leaves_entries ih
      named := leaves_named ih
      starNamed := leaves_starNamed ih
      starNamedItems := leaves_starNamedItems ih
      starExpression := leaves_starExpression ih
      starExpressions := leaves_starExpressions ih
      starItems := leaves_starItems ih
      produced := leaves_produced ih
      comprehension := leaves_comprehension ih
      conditions := leaves_conditions ih
      targets := leaves_targets ih
      targetItems := leaves_targetItems ih
      target := leaves_target ih
      arguments := fun within => leaves_arguments ih within
      moreArguments := fun within => leaves_moreArguments ih within
      subscripts := leaves_subscripts ih
      subscriptElement := leaves_subscriptElement ih
      sliceBound := leaves_sliceBound ih
      parameters := fun within => leaves_parameters ih within
      moreParameters := fun within => leaves_moreParameters ih within
      parameterType := fun within => leaves_parameterType ih within }

end Source
end OpenRecord
