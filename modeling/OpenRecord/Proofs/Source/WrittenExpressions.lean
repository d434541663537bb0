import OpenRecord.Source.Item

namespace OpenRecord
namespace Source

/-!
# Reading what was written

Some tokens are read as a value whatever stands behind them, as long as it does not go on with the
value.  This is said of a primary, which may still be followed by an attribute or a call, and of an
expression, behind which a bracket, a comma, a colon or an equals sign has to stand, or nothing.

The fuel only has to be thirty-two times the number of tokens, as it is when a line is read.
-/

/-! ## What stands behind -/

theorem expect_of_kind {token : Token} {kind : TokenKind} (same : token.kind = kind)
    (rest : List Token) : expect kind (token :: rest) = some rest :=
  if_pos same

theorem expect_of_other {token : Token} {kind : TokenKind} (other : token.kind ≠ kind)
    (rest : List Token) : expect kind (token :: rest) = none :=
  if_neg other

/-- No expression goes on with what stands here. -/
def Ends (rest : List Token) : Prop :=
  ∀ token ∈ rest.head?, token.kind ∈ [.symbol .comma, .symbol .colon, .symbol .equal,
    .symbol .closeRound, .symbol .closeSquare]

/-- No operator of a level, or of a tighter one, stands here, nor anything else that goes on with a
value. -/
structure EndsValue (level : Nat) (rest : List Token) : Prop where
  operator : ∀ tighter, level ≤ tighter → afterOperator tighter rest = none
  power : expectSymbol .doubleStar rest = none
  trailer : ∀ fuel value, trailers (fuel + 1) value rest = some (value, rest)
  literal : startsWith .literal rest = false ∧ startsWith .templateOpen rest = false

theorem ends_nil : Ends [] :=
  nofun

theorem ends_cons {token : Token} (known : token.kind ∈ [.symbol .comma, .symbol .colon,
    .symbol .equal, .symbol .closeRound, .symbol .closeSquare]) (rest : List Token) :
    Ends (token :: rest) := by
  rintro _ ⟨⟩
  exact known

theorem Ends.endsValue {rest : List Token} (ends : Ends rest) : EndsValue 0 rest := by
  cases rest with
  | nil => exact ⟨fun _ _ => rfl, rfl, fun _ _ => rfl, rfl, rfl⟩
  | cons token rest =>
    rcases token with ⟨gap, kind, text⟩
    have known := ends _ rfl
    have none_left : ∀ tighter, afterOperator tighter (⟨gap, kind, text⟩ :: rest) = none := by
      intro tighter
      simp only [List.mem_cons, List.not_mem_nil, or_false] at known
      unfold afterOperator
      dsimp only
      rcases known with rfl | rfl | rfl | rfl | rfl <;> split <;> first | rfl | contradiction | simp_all
    simp only [List.mem_cons, List.not_mem_nil, or_false] at known
    rcases known with rfl | rfl | rfl | rfl | rfl <;>
      exact ⟨fun tighter _ => none_left tighter, rfl, fun _ _ => rfl, rfl, rfl⟩

theorem EndsValue.mono {level tighter : Nat} {rest : List Token} (halts : EndsValue level rest)
    (above : level ≤ tighter) : EndsValue tighter rest :=
  ⟨fun other more => halts.operator other (Nat.le_trans above more), halts.power, halts.trailer,
    halts.literal⟩

/-! ## Primaries -/

/-- The kinds of tokens that values start with here. -/
def StartsValue (kind : TokenKind) : Prop :=
  kind ∈ [.name, .literal, .keyword .noneWord, .keyword .trueWord, .keyword .falseWord,
    .symbol .openRound]

/-- A token that goes on with a name. -/
def Continues (kind : TokenKind) : Prop :=
  kind ∈ [.symbol .dot, .symbol .openRound, .symbol .openSquare]

/-- Tokens that are read as a certain value; what stands behind them may go on with it. -/
structure IsPrimary (value : Expression) (tokens : List Token) : Prop where
  starts : ∃ first later, tokens = first :: later ∧ StartsValue first.kind ∧
    (first.kind = .name → ∀ second ∈ later.head?, Continues second.kind)
  reads : ∀ (rest : List Token) (fuel : Nat),
    startsWith .literal rest = false → startsWith .templateOpen rest = false →
    32 * tokens.length ≤ fuel + 16 →
      ∃ left, primary fuel (tokens ++ rest) = trailers left value rest ∧
        fuel + 31 ≤ left + 32 * tokens.length

namespace IsPrimary

variable {value : Expression} {tokens : List Token}

theorem of_atom {token : Token} (starts : StartsValue token.kind)
    (reads : ∀ fuel rest, startsWith .literal rest = false → startsWith .templateOpen rest = false →
      atom (fuel + 1) (token :: rest) = some (value, rest)) : IsPrimary value [token] where
  starts := ⟨token, [], rfl, starts, fun _ => nofun⟩
  reads rest fuel plain closed enough := by
    rcases Nat.exists_eq_add_of_le (show 2 ≤ fuel by simp at enough; omega) with ⟨fuel, rfl⟩
    refine ⟨fuel + 1, ?_, by simp; omega⟩
    rw [show 2 + fuel = fuel + 1 + 1 by omega, List.singleton_append, primary,
      reads fuel rest plain closed]
    rfl

theorem name (gap : List Piece) (identifier : Text) :
    IsPrimary (.name identifier) [⟨gap, .name, identifier⟩] :=
  of_atom (by simp [StartsValue]) fun _ _ _ _ => rfl

theorem literal (gap : List Piece) (text : Text) : IsPrimary .literal [⟨gap, .literal, text⟩] :=
  of_atom (by simp [StartsValue]) fun fuel rest plain closed => by
    rw [atom, plain, closed]
    rfl

theorem constant (gap : List Piece) {word : Keyword} (text : Text)
    (known : word ∈ [.noneWord, .trueWord, .falseWord]) :
    IsPrimary (.constant text) [⟨gap, .keyword word, text⟩] := by
  simp only [List.mem_cons, List.not_mem_nil, or_false] at known
  rcases known with rfl | rfl | rfl <;>
    exact of_atom (by simp [StartsValue]) fun _ _ _ _ => rfl

theorem length_pos (primary : IsPrimary value tokens) : 0 < tokens.length := by
  rcases primary.starts with ⟨first, later, rfl, -⟩
  exact Nat.succ_pos _

theorem starts_append (primary : IsPrimary value tokens) {next : Token} (more : List Token)
    (follows : Continues next.kind) :
    ∃ first later, tokens ++ next :: more = first :: later ∧ StartsValue first.kind ∧
      (first.kind = .name → ∀ second ∈ later.head?, Continues second.kind) := by
  rcases primary.starts with ⟨first, later, rfl, starts, second⟩
  refine ⟨first, later ++ next :: more, rfl, starts, ?_⟩
  cases later with
  | nil =>
    rintro _ _ ⟨⟩
    exact follows
  | cons x later => exact second

theorem withAttribute (primary : IsPrimary value tokens) (dotGap gap : List Piece) (dot : Text)
    (identifier : Text) :
    IsPrimary (.attribute value identifier)
      (tokens ++ [⟨dotGap, .symbol .dot, dot⟩, ⟨gap, .name, identifier⟩]) where
  starts := primary.starts_append _ (by simp [Continues])
  reads rest fuel _ _ enough := by
    simp only [List.length_append, List.length_cons, List.length_nil] at enough
    rcases primary.reads (⟨dotGap, .symbol .dot, dot⟩ :: ⟨gap, .name, identifier⟩ :: rest) fuel rfl
      rfl (by omega) with ⟨left, same, more⟩
    rcases Nat.exists_eq_succ_of_ne_zero (show left ≠ 0 by omega) with ⟨left, rfl⟩
    refine ⟨left, ?_, by simp; omega⟩
    rw [List.append_assoc]
    exact same

end IsPrimary

/-! ## Expressions -/

/-- Tokens that are read as an expression of a certain value. -/
def IsExpression (value : Expression) (tokens : List Token) : Prop :=
  ∀ (rest : List Token) (fuel : Nat), Ends rest → 32 * tokens.length ≤ fuel + 2 →
    expression fuel (tokens ++ rest) = some (value, rest)

theorem expectKeyword_of_startsValue {first : Token} (starts : StartsValue first.kind)
    {word : Keyword} (other : word ∉ [.noneWord, .trueWord, .falseWord]) (rest : List Token) :
    expectKeyword word (first :: rest) = none := by
  refine if_neg fun same => other ?_
  rw [StartsValue, same] at starts
  simpa using starts

theorem factor_of_startsValue {first : Token} (starts : StartsValue first.kind) (fuel : Nat)
    (rest : List Token) :
    factor (fuel + 1) (first :: rest) =
      (awaited fuel (first :: rest)).bind fun (value, rest) =>
        match expectSymbol .doubleStar rest with
        | none => some (value, rest)
        | some rest => (factor fuel rest).bind fun (_, rest) => some (.other, rest) := by
  rcases first with ⟨gap, kind, text⟩
  simp only [StartsValue, List.mem_cons, List.not_mem_nil, or_false] at starts
  rcases starts with rfl | rfl | rfl | rfl | rfl | rfl <;> rfl

/-- A value that was read at a level is read at the next looser one if nothing goes on with it. -/
theorem operation_outward {level fuel : Nat} {value : Expression} {tokens rest : List Token}
    (inner : operation (fuel + 1) (level + 1) tokens = some (value, rest)) (halts : EndsValue level rest)
    (loose : level ≠ 10) (plain : expectKeyword .notWord tokens = none) :
    operation (fuel + 2) level tokens = some (value, rest) := by
  rw [operation]
  by_cases negation : level = 2
  · subst negation
    rw [if_pos rfl, plain]
    exact inner
  · rw [if_neg negation, if_neg loose, inner, Option.bind_eq_bind, Option.bind_some]
    dsimp only
    rw [operands, halts.operator level (Nat.le_refl level)]

theorem expression_of_operation {fuel : Nat} {value : Expression} {tokens rest : List Token}
    (inner : operation fuel 0 tokens = some (value, rest)) (ends : Ends rest)
    (plain : expectKeyword .lambdaWord tokens = none) :
    expression (fuel + 1) tokens = some (value, rest) := by
  have unconditional : expectKeyword .ifWord rest = none := by
    cases rest with
    | nil => rfl
    | cons token rest =>
      refine if_neg fun same => ?_
      have known := ends _ rfl
      rw [same] at known
      simp at known
  rw [expression, plain]
  dsimp only
  rw [inner, Option.bind_eq_bind, Option.bind_some]
  dsimp only
  rw [unconditional]

namespace IsPrimary

variable {value : Expression} {tokens rest : List Token}

theorem expectKeyword_eq_none (primary : IsPrimary value tokens) {word : Keyword}
    (other : word ∉ [.noneWord, .trueWord, .falseWord]) (rest : List Token) :
    expectKeyword word (tokens ++ rest) = none := by
  rcases primary.starts with ⟨first, later, rfl, starts, -⟩
  exact expectKeyword_of_startsValue starts other _

theorem awaited_eq {level : Nat} (primary : IsPrimary value tokens) (halts : EndsValue level rest)
    {fuel : Nat} (enough : 32 * tokens.length ≤ fuel + 15) :
    awaited fuel (tokens ++ rest) = some (value, rest) := by
  have positive := primary.length_pos
  rcases Nat.exists_eq_succ_of_ne_zero (show fuel ≠ 0 by omega) with ⟨fuel, rfl⟩
  rcases primary.reads rest fuel halts.literal.1 halts.literal.2 (by omega) with ⟨left, same, more⟩
  rcases Nat.exists_eq_succ_of_ne_zero (show left ≠ 0 by omega) with ⟨left, rfl⟩
  rcases primary.starts with ⟨first, later, rfl, starts, -⟩
  rw [List.cons_append] at same ⊢
  rw [awaited, expectKeyword_of_startsValue starts (by decide)]
  exact same.trans (halts.trailer left value)

theorem factor_eq {level : Nat} (primary : IsPrimary value tokens) (halts : EndsValue level rest)
    {fuel : Nat} (enough : 32 * tokens.length ≤ fuel + 14) :
    factor fuel (tokens ++ rest) = some (value, rest) := by
  have positive := primary.length_pos
  rcases Nat.exists_eq_succ_of_ne_zero (show fuel ≠ 0 by omega) with ⟨fuel, rfl⟩
  have inner := primary.awaited_eq halts (show 32 * tokens.length ≤ fuel + 15 by omega)
  rcases primary.starts with ⟨first, later, rfl, starts, -⟩
  rw [List.cons_append] at inner ⊢
  rw [factor_of_startsValue starts, inner, Option.bind_some]
  dsimp only
  rw [halts.power]

/-- Reading an operation goes through all tighter levels before the value is met. -/
theorem operation_eq {level : Nat} (primary : IsPrimary value tokens) (halts : EndsValue level rest)
    {fuel : Nat} (low : level ≤ 10) (enough : 32 * tokens.length + 10 ≤ fuel + level + 13) :
    operation fuel level (tokens ++ rest) = some (value, rest) := by
  have positive := primary.length_pos
  rcases Nat.exists_eq_add_of_le' (show 2 ≤ fuel by omega) with ⟨fuel, rfl⟩
  by_cases tightest : level = 10
  · subst tightest
    rw [operation, if_neg (by decide), if_pos rfl]
    exact primary.factor_eq halts (by omega)
  · have inner := primary.operation_eq (halts.mono (Nat.le_succ level)) (by omega)
      (show 32 * tokens.length + 10 ≤ fuel + 1 + (level + 1) + 13 by omega)
    exact operation_outward inner halts tightest (primary.expectKeyword_eq_none (by decide) rest)
termination_by 10 - level

theorem isExpression (primary : IsPrimary value tokens) : IsExpression value tokens := by
  intro rest fuel ends enough
  have positive := primary.length_pos
  rcases Nat.exists_eq_succ_of_ne_zero (show fuel ≠ 0 by omega) with ⟨fuel, rfl⟩
  exact expression_of_operation (primary.operation_eq ends.endsValue (Nat.zero_le 10) (by omega)) ends
    (primary.expectKeyword_eq_none (by decide) rest)

/-- Whether a value is absent. -/
theorem isAbsent (primary : IsPrimary value tokens) (isGap gap : List Piece) (isText text : Text) :
    IsExpression .other
      (tokens ++ [⟨isGap, .keyword .isWord, isText⟩, ⟨gap, .keyword .noneWord, text⟩]) := by
  intro rest fuel ends enough
  have positive := primary.length_pos
  simp only [List.length_append, List.length_cons, List.length_nil] at enough
  rcases Nat.exists_eq_add_of_le' (show 24 ≤ fuel by omega) with ⟨fuel, rfl⟩
  let test : List Token := ⟨isGap, .keyword .isWord, isText⟩ :: ⟨gap, .keyword .noneWord, text⟩ :: rest
  have halts : EndsValue 4 test := by
    refine ⟨fun tighter above => ?_, rfl, fun _ _ => rfl, rfl, rfl⟩
    unfold afterOperator
    dsimp only [test]
    split <;> first | rfl | contradiction | omega
  have left := primary.operation_eq halts (by decide)
    (show 32 * tokens.length + 10 ≤ fuel + 19 + 4 + 13 by omega)
  have absent := @IsPrimary.constant gap .noneWord text (by decide)
  have right := absent.operation_eq (ends.endsValue.mono (Nat.zero_le 4)) (by decide)
    (show 32 * 1 + 10 ≤ fuel + 18 + 4 + 13 by omega)
  have behind : operands (fuel + 18) 3 .other rest = some (.other, rest) := by
    rw [operands, ends.endsValue.operator 3 (Nat.zero_le 3)]
  have operator : operands (fuel + 19) 3 value test = some (.other, rest) := by
    have follows : afterOperator 3 test = some (⟨gap, .keyword .noneWord, text⟩ :: rest) := rfl
    rw [List.singleton_append] at right
    rw [operands, follows]
    dsimp only
    rw [right, Option.bind_eq_bind, Option.bind_some]
    exact behind
  have compared : operation (fuel + 20) 3 (tokens ++ test) = some (.other, rest) := by
    rw [operation, if_neg (by decide), if_neg (by decide), left, Option.bind_eq_bind,
      Option.bind_some]
    exact operator
  have outward := fun level (low : level ≠ 10) {fuel}
      (inner : operation (fuel + 1) (level + 1) (tokens ++ test) = some (.other, rest)) =>
    operation_outward inner (ends.endsValue.mono (Nat.zero_le level)) low
      (primary.expectKeyword_eq_none (by decide) test)
  have loosest := outward 0 (by decide) (outward 1 (by decide) (outward 2 (by decide) compared))
  rw [List.append_assoc]
  exact expression_of_operation loosest ends (primary.expectKeyword_eq_none (by decide) test)

end IsPrimary

/-! ## Arguments -/

theorem arguments_of_startsValue {first : Token} (starts : StartsValue first.kind)
    {later : List Token}
    (second : first.kind = .name → ∀ token ∈ later.head?, token.kind ≠ .symbol .equal)
    (fuel : Nat) (lone : Bool) (phase : ArgumentPhase) :
    arguments (fuel + 1) lone phase (first :: later) =
      if phase ≠ .positional then none
      else (named fuel (first :: later)).bind fun (value, after) =>
        let argument : Argument := ⟨none, 0, value, tokensRead (first :: later) after⟩
        if lone && (afterFor after).isSome then
          (comprehension fuel after).bind fun after =>
            if startsWith (.symbol .closeRound) after then some ([argument], after) else none
        else
          (moreArguments fuel phase after).bind fun (later, after') =>
            some (argument :: later, after') := by
  rcases first with ⟨gap, kind, text⟩
  simp only [StartsValue, List.mem_cons, List.not_mem_nil, or_false] at starts
  rcases starts with rfl | rfl | rfl | rfl | rfl | rfl
  case inl =>
    cases later with
    | nil => cases phase <;> rfl
    | cons token later =>
      have other := second rfl token rfl
      rcases token with ⟨gap', kind, text'⟩
      cases kind with
      | symbol which =>
        cases which
        case equal => exact absurd rfl other
        all_goals (cases phase <;> rfl)
      | _ => cases phase <;> rfl
  all_goals (cases phase <;> rfl)

/-- The second token behind the first one of a value. -/
theorem IsPrimary.exists_append {value : Expression} {tokens : List Token}
    (primary : IsPrimary value tokens) (next : Token) (more : List Token) (kind : TokenKind)
    (other : next.kind ≠ kind) (known : ¬Continues kind) :
    ∃ first later, tokens ++ next :: more = first :: later ∧ StartsValue first.kind ∧
      (first.kind = .name → ∀ second ∈ later.head?, second.kind ≠ kind) := by
  rcases primary.starts with ⟨first, later, rfl, starts, second⟩
  refine ⟨first, later ++ next :: more, rfl, starts, ?_⟩
  cases later with
  | nil =>
    rintro _ _ ⟨⟩
    exact other
  | cons x later =>
    rintro called _ ⟨⟩ same
    exact known (same ▸ second called x rfl)

theorem named_of_startsValue {first : Token} (starts : StartsValue first.kind) {later : List Token}
    (second : first.kind = .name → ∀ token ∈ later.head?, token.kind ≠ .symbol .walrus)
    (fuel : Nat) :
    named (fuel + 1) (first :: later) = expression fuel (first :: later) := by
  rcases first with ⟨gap, kind, text⟩
  simp only [StartsValue, List.mem_cons, List.not_mem_nil, or_false] at starts
  rcases starts with rfl | rfl | rfl | rfl | rfl | rfl
  case inl =>
    cases later with
    | nil => rfl
    | cons token later =>
      have other := second rfl token rfl
      rcases token with ⟨gap', kind, text'⟩
      cases kind with
      | symbol which =>
        cases which
        case walrus => exact absurd rfl other
        all_goals rfl
      | _ => rfl
  all_goals rfl

/-- The arguments of a call: values, and values with names in front of them, with commas between
them and perhaps behind the last one. -/
inductive ArgumentList : ArgumentPhase → List Token → Prop
  | none (phase : ArgumentPhase) : ArgumentList phase []
  | last {value : Expression} {tokens : List Token} :
    IsPrimary value tokens → ArgumentList .positional tokens
  | more {value : Expression} {tokens later : List Token} {comma : Token} :
    IsPrimary value tokens → comma.kind = .symbol .comma → ArgumentList .positional later →
      ArgumentList .positional (tokens ++ comma :: later)
  | lastNamed {phase : ArgumentPhase} {name equal : Token} {value : Expression}
    {tokens : List Token} : phase ≠ .mapping → name.kind = .name → equal.kind = .symbol .equal →
      IsPrimary value tokens → ArgumentList phase (name :: equal :: tokens)
  | moreNamed {phase : ArgumentPhase} {name equal comma : Token} {value : Expression}
    {tokens later : List Token} : phase ≠ .mapping → name.kind = .name →
      equal.kind = .symbol .equal → IsPrimary value tokens → comma.kind = .symbol .comma →
      ArgumentList .keyword later → ArgumentList phase (name :: equal :: tokens ++ comma :: later)

section Arguments

variable {close : Token} {behind : List Token}

theorem moreArguments_close (closes : close.kind = .symbol .closeRound) (fuel : Nat)
    (phase : ArgumentPhase) :
    moreArguments (fuel + 1) phase (close :: behind) = some ([], close :: behind) := by
  have other : expectSymbol .comma (close :: behind) = Option.none := if_neg (by simp [closes])
  rw [moreArguments, other]

theorem moreArguments_comma {comma : Token} (separates : comma.kind = .symbol .comma) (fuel : Nat)
    (phase : ArgumentPhase) (rest : List Token) :
    moreArguments (fuel + 1) phase (comma :: rest) = arguments fuel false phase rest := by
  have found : expectSymbol .comma (comma :: rest) = some rest := expect_of_kind separates rest
  rw [moreArguments, found]

/-- A value as an argument, and what is read behind it. -/
theorem arguments_value {value : Expression} {tokens : List Token} {next : Token}
    (primary : IsPrimary value tokens)
    (follows : next.kind = .symbol .comma ∨ next.kind = .symbol .closeRound) {fuel : Nat}
    (enough : 32 * tokens.length ≤ fuel + 1) (lone : Bool) {found : List Argument}
    {after more : List Token}
    (others : moreArguments (fuel + 1) .positional (next :: more) = some (found, after)) :
    ∃ found, arguments (fuel + 2) lone .positional (tokens ++ next :: more) = some (found, after) := by
  have ends : Ends (next :: more) := ends_cons (by rcases follows with same | same <;> simp [same]) more
  have plain : afterFor (next :: more) = Option.none := by
    rcases next with ⟨gap, kind, text⟩
    rcases follows with rfl | rfl <;> rfl
  have own := primary.isExpression (next :: more) fuel ends (by omega)
  rcases primary.exists_append next more (.symbol .equal)
    (by rcases follows with same | same <;> simp [same]) (by simp [Continues]) with
    ⟨first, later, parts, starts, second⟩
  rcases primary.exists_append next more (.symbol .walrus)
    (by rcases follows with same | same <;> simp [same]) (by simp [Continues]) with
    ⟨_, _, again, _, other⟩
  cases parts.symm.trans again
  rw [parts] at own ⊢
  rw [arguments_of_startsValue starts second, if_neg (by simp), named_of_startsValue starts other, own,
    Option.bind_some]
  dsimp only
  rw [plain, if_neg (by simp), others]
  exact ⟨_, rfl⟩

/-- A value with a name in front of it, and what is read behind it. -/
theorem arguments_named {phase : ArgumentPhase} {name equal next : Token} {value : Expression}
    {tokens : List Token} (open_ : phase ≠ .mapping) (called : name.kind = .name)
    (assigns : equal.kind = .symbol .equal) (primary : IsPrimary value tokens)
    (follows : next.kind = .symbol .comma ∨ next.kind = .symbol .closeRound) {fuel : Nat}
    (enough : 32 * tokens.length ≤ fuel + 1) (lone : Bool) {found : List Argument}
    {after more : List Token}
    (others : moreArguments fuel .keyword (next :: more) = some (found, after)) :
    ∃ found, arguments (fuel + 1) lone phase (name :: equal :: (tokens ++ next :: more)) =
      some (found, after) := by
  have ends : Ends (next :: more) := ends_cons (by rcases follows with same | same <;> simp [same]) more
  have own := primary.isExpression (next :: more) fuel ends (by omega)
  rcases name with ⟨gap, kind, text⟩
  rcases equal with ⟨gap', kind', text'⟩
  cases called
  cases assigns
  rw [arguments, own, Option.bind_eq_bind, Option.bind_some]
  dsimp only
  rw [if_neg open_, others]
  exact ⟨_, rfl⟩

/-- The arguments are read up to the closing parenthesis. -/
theorem ArgumentList.reads {phase : ArgumentPhase} {tokens : List Token}
    (list : ArgumentList phase tokens) (closes : close.kind = .symbol .closeRound) (lone : Bool)
    {fuel : Nat} (enough : 32 * tokens.length + 4 ≤ fuel) :
    ∃ found, arguments fuel lone phase (tokens ++ close :: behind) =
      some (found, close :: behind) := by
  induction list generalizing fuel lone with
  | none phase =>
    rcases Nat.exists_eq_succ_of_ne_zero (show fuel ≠ 0 by omega) with ⟨fuel, rfl⟩
    rcases close with ⟨gap, kind, text⟩
    cases closes
    exact ⟨[], rfl⟩
  | last primary =>
    rcases Nat.exists_eq_add_of_le' (show 2 ≤ fuel by omega) with ⟨fuel, rfl⟩
    exact arguments_value primary (.inr closes) (by omega) lone
      (moreArguments_close closes fuel .positional)
  | @more _ _ later _ primary separates _ ih =>
    simp only [List.length_append, List.length_cons] at enough
    rcases Nat.exists_eq_add_of_le' (show 2 ≤ fuel by omega) with ⟨fuel, rfl⟩
    rcases ih false (show 32 * later.length + 4 ≤ fuel by omega) with ⟨found, same⟩
    rw [List.append_assoc, List.cons_append]
    refine arguments_value primary (.inl separates) (by omega) lone
      ((moreArguments_comma separates _ _ _).trans same)
  | lastNamed open_ called assigns primary =>
    simp only [List.length_cons] at enough
    rcases Nat.exists_eq_add_of_le' (show 2 ≤ fuel by omega) with ⟨fuel, rfl⟩
    exact arguments_named open_ called assigns primary (.inr closes) (by omega) lone
      (moreArguments_close closes fuel .keyword)
  | @moreNamed _ _ _ _ _ _ later open_ called assigns primary separates _ ih =>
    simp only [List.length_append, List.length_cons] at enough
    rcases Nat.exists_eq_add_of_le' (show 2 ≤ fuel by omega) with ⟨fuel, rfl⟩
    rcases ih false (show 32 * later.length + 4 ≤ fuel by omega) with ⟨found, same⟩
    rw [List.append_assoc, List.cons_append, List.cons_append, List.cons_append]
    exact arguments_named open_ called assigns primary (.inl separates) (by omega) lone
      ((moreArguments_comma separates _ _ _).trans same)

end Arguments

/-- A call of a value. -/
theorem IsPrimary.withCall {value : Expression} {tokens arguments : List Token}
    (primary : IsPrimary value tokens) (list : ArgumentList .positional arguments)
    (openGap closeGap : List Piece) (openText closeText : Text) :
    IsPrimary (.call value) (tokens ++ ⟨openGap, .symbol .openRound, openText⟩ :: (arguments ++
      [⟨closeGap, .symbol .closeRound, closeText⟩])) where
  starts := primary.starts_append _ (by simp [Continues])
  reads rest fuel _ _ enough := by
    simp only [List.length_append, List.length_cons, List.length_nil] at enough ⊢
    let close : Token := ⟨closeGap, .symbol .closeRound, closeText⟩
    rcases primary.reads (⟨openGap, .symbol .openRound, openText⟩ :: (arguments ++ close :: rest))
      fuel rfl rfl (by omega) with ⟨left, same, more⟩
    rcases Nat.exists_eq_succ_of_ne_zero (show left ≠ 0 by omega) with ⟨left, rfl⟩
    rcases @ArgumentList.reads close rest _ _ list rfl true left (by omega) with ⟨found, read⟩
    refine ⟨left, ?_, by omega⟩
    rw [List.append_assoc, List.cons_append, List.append_assoc]
    refine same.trans ?_
    rw [trailers]
    change (Source.arguments left true .positional (arguments ++ close :: rest)).bind _ = _
    rw [read]
    rfl

/-! ## Where nothing is read -/

/-- The kinds of tokens that no value starts with, among those that stand behind one. -/
def StartsNothing (kind : TokenKind) : Prop :=
  kind ∈ [.symbol .dot, .symbol .comma, .symbol .colon, .symbol .equal, .symbol .closeRound]

section Nothing

variable {token : Token} (nothing : StartsNothing token.kind) (fuel : Nat) (rest : List Token)

include nothing

theorem expectKeyword_of_startsNothing (word : Keyword) :
    expectKeyword word (token :: rest) = none := by
  refine if_neg fun same => ?_
  rw [StartsNothing, same] at nothing
  simp at nothing

theorem primary_of_startsNothing : primary fuel (token :: rest) = none := by
  rcases token with ⟨gap, kind, text⟩
  simp only [StartsNothing, List.mem_cons, List.not_mem_nil, or_false] at nothing
  match fuel with
  | 0 => rfl
  | 1 => rfl
  | fuel + 2 => rcases nothing with rfl | rfl | rfl | rfl | rfl <;> rfl

theorem factor_of_startsNothing : factor fuel (token :: rest) = none := by
  have awaited_eq : ∀ fuel, awaited fuel (token :: rest) = none := fun
    | 0 => rfl
    | fuel + 1 => by
      rw [awaited, expectKeyword_of_startsNothing nothing rest]
      exact primary_of_startsNothing nothing fuel rest
  cases fuel with
  | zero => rfl
  | succ fuel =>
    have inner := awaited_eq fuel
    rcases token with ⟨gap, kind, text⟩
    simp only [StartsNothing, List.mem_cons, List.not_mem_nil, or_false] at nothing
    rcases nothing with rfl | rfl | rfl | rfl | rfl <;>
      (change (awaited fuel _).bind _ = none; rw [inner]; rfl)

theorem operation_of_startsNothing (level : Nat) : operation fuel level (token :: rest) = none := by
  induction fuel generalizing level with
  | zero => rfl
  | succ fuel ih =>
    rw [operation]
    split
    · rw [expectKeyword_of_startsNothing nothing rest]
      exact ih 3
    · split
      · exact factor_of_startsNothing nothing fuel rest
      · rw [ih (level + 1)]
        rfl

theorem expression_of_startsNothing : expression fuel (token :: rest) = none := by
  cases fuel with
  | zero => rfl
  | succ fuel =>
    rw [expression, expectKeyword_of_startsNothing nothing rest]
    dsimp only
    rw [operation_of_startsNothing nothing fuel rest 0]
    rfl

theorem starNamed_of_startsNothing : starNamed fuel (token :: rest) = none := by
  have named_eq : ∀ fuel, named fuel (token :: rest) = none := fun
    | 0 => rfl
    | fuel + 1 => by
      have inner := expression_of_startsNothing nothing fuel rest
      rcases token with ⟨gap, kind, text⟩
      simp only [StartsNothing, List.mem_cons, List.not_mem_nil, or_false] at nothing
      rcases nothing with rfl | rfl | rfl | rfl | rfl <;> exact inner
  cases fuel with
  | zero => rfl
  | succ fuel =>
    have plain : expectSymbol .star (token :: rest) = none := by
      refine if_neg fun same => ?_
      rw [StartsNothing, same] at nothing
      simp at nothing
    rw [starNamed, plain]
    exact named_eq fuel

end Nothing

/-! ## Tuples of one value -/

theorem starNamed_of_startsValue {first : Token} {later rest : List Token} {value : Expression}
    {fuel : Nat} (starts : StartsValue first.kind)
    (second : first.kind = .name → ∀ token ∈ later.head?, token.kind ≠ .symbol .walrus)
    (own : expression fuel (first :: later) = some (value, rest)) :
    starNamed (fuel + 2) (first :: later) = some (value, rest) := by
  have plain : expectSymbol .star (first :: later) = none := by
    refine if_neg fun same => ?_
    rw [StartsValue, same] at starts
    simp at starts
  rw [starNamed, plain]
  dsimp only
  rw [named_of_startsValue starts second, own]

/-- A value with a comma behind it is a tuple in its brackets. -/
theorem round_alone {first comma close : Token} {later rest : List Token} {value : Expression}
    {fuel : Nat} (starts : StartsValue first.kind) (separates : comma.kind = .symbol .comma)
    (closes : close.kind = .symbol .closeRound)
    (inner : starNamed (fuel + 2) (first :: later) = some (value, comma :: close :: rest)) :
    round (fuel + 3) (first :: later) = some (.tuple [value], rest) := by
  have separated : expectSymbol .comma (comma :: close :: rest) = some (close :: rest) :=
    expect_of_kind separates _
  have closed : expectSymbol .closeRound (close :: rest) = some rest := expect_of_kind closes rest
  have ended : starNamedItems (fuel + 2) (comma :: close :: rest) = some ([], close :: rest) := by
    rw [starNamedItems, separated]
    dsimp only
    rw [starNamed_of_startsNothing (by simp [StartsNothing, closes])]
  have single : afterFor (comma :: close :: rest) = none := by
    rcases comma with ⟨gap, kind, text⟩
    cases separates
    rfl
  rcases first with ⟨gap, kind, text⟩
  simp only [StartsValue, List.mem_cons, List.not_mem_nil, or_false] at starts
  -- no kind that a value starts with is one of those that are looked at first
  rcases starts with rfl | rfl | rfl | rfl | rfl | rfl
  all_goals
    change (starNamed (fuel + 2) _).bind _ = _
    rw [inner, Option.bind_some]
    dsimp only
    rw [single, separated]
    dsimp only
    rw [ended, Option.bind_eq_bind, Option.bind_some]
    dsimp only
    rw [closed]
    rfl

theorem IsPrimary.alone {value : Expression} {tokens : List Token} (primary : IsPrimary value tokens)
    (openGap commaGap closeGap : List Piece) (openText commaText closeText : Text) :
    IsPrimary (.tuple [value]) (⟨openGap, .symbol .openRound, openText⟩ :: (tokens ++
      [⟨commaGap, .symbol .comma, commaText⟩, ⟨closeGap, .symbol .closeRound, closeText⟩])) where
  starts := ⟨_, _, rfl, by simp [StartsValue], nofun⟩
  reads rest fuel _ _ enough := by
    have positive := primary.length_pos
    simp only [List.length_append, List.length_cons, List.length_nil] at enough ⊢
    rcases Nat.exists_eq_add_of_le' (show 8 ≤ fuel by omega) with ⟨fuel, rfl⟩
    let close : Token := ⟨closeGap, .symbol .closeRound, closeText⟩
    let comma : Token := ⟨commaGap, .symbol .comma, commaText⟩
    refine ⟨fuel + 7, ?_, by omega⟩
    have own := primary.isExpression (comma :: close :: rest) (fuel + 3) (ends_cons (by simp [comma]) _)
      (by omega)
    rcases primary.exists_append comma (close :: rest) (.symbol .walrus) (by simp [comma])
      (by simp [Continues]) with ⟨first, later, parts, starts, second⟩
    rw [parts] at own
    have enclosed : round (fuel + 6) (first :: later) = some (.tuple [value], rest) :=
      round_alone starts rfl rfl (starNamed_of_startsValue starts second own)
    have whole : (⟨openGap, .symbol .openRound, openText⟩ :: (tokens ++ [comma, close])) ++ rest =
        ⟨openGap, .symbol .openRound, openText⟩ :: (first :: later) := by
      rw [← parts]
      simp
    rw [whole, Source.primary]
    change (round (fuel + 6) (first :: later)).bind _ = _
    rw [enclosed]
    rfl

end Source
end OpenRecord
