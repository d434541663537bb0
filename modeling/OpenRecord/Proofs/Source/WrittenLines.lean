import OpenRecord.Proofs.Source.WrittenExpressions

namespace OpenRecord
namespace Source

/-!
# Reading the lines that were written

The lines of generated code are small statements, each alone on its line, or headers with nothing
behind the colon.  Here their tokens are read as what they were written for.
-/

/-! ## Small statements -/

/-- A line that holds one small statement of a form. -/
def IsItem (form : Form) (tokens : List Token) : Prop :=
  readLine false tokens = some (.items [⟨tokens, form, none⟩])

/-- A line that is a header with nothing behind its colon. -/
def IsHeader (head : Head) (tokens : List Token) : Prop :=
  readLine false tokens = some (.header head tokens [])

theorem tokensRead_nil (tokens : List Token) : tokensRead tokens [] = tokens := by
  simp [tokensRead]

theorem isItem_of_smallStatement {form : Form} {tokens : List Token}
    (plain : startsHeader tokens = false) (unmatched : ∀ fuel, matchHeader fuel tokens = none)
    (read : ∀ fuel, 32 * tokens.length + 16 ≤ fuel →
      smallStatement fuel tokens = some (form, [])) :
    IsItem form tokens := by
  have own := read (32 * tokens.length + 31) (by omega)
  have all : smallStatements (grammarFuel tokens) tokens = some [⟨tokens, form, none⟩] := by
    change smallStatements (32 * tokens.length + 31 + 1) tokens = _
    rw [smallStatements, own, Option.bind_eq_bind, Option.bind_some]
    dsimp only
    rw [tokensRead_nil]
  unfold IsItem readLine
  dsimp only
  rw [if_neg (by simp), if_neg (by simp [plain]), unmatched, all]
  rfl

theorem startsHeader_of_startsValue {first : Token} (starts : StartsValue first.kind)
    (later : List Token) : startsHeader (first :: later) = false := by
  rcases first with ⟨gap, kind, text⟩
  simp only [StartsValue, List.mem_cons, List.not_mem_nil, or_false] at starts
  rcases starts with rfl | rfl | rfl | rfl | rfl | rfl <;> rfl

/-- A line that starts with a value is no `match` header, unless it starts with that word and goes
on with a bracket. -/
theorem matchHeader_of_startsValue {first : Token} (starts : StartsValue first.kind)
    {later : List Token}
    (apart : first.kind = .name → first.text = "match".toList →
      ∃ second more, later = second :: more ∧ StartsNothing second.kind) (fuel : Nat) :
    matchHeader fuel (first :: later) = none := by
  unfold matchHeader
  split
  case h_1 same =>
    cases same
    rcases apart rfl rfl with ⟨second, more, rfl, nothing⟩
    rw [starNamed_of_startsNothing nothing]
    rfl
  case h_2 => rfl

theorem smallStatement_of_startsValue {first : Token} (starts : StartsValue first.kind)
    {later : List Token} (second : first.kind = .name → ∀ token ∈ later.head?, token.kind ≠ .name)
    (fuel : Nat) : smallStatement fuel (first :: later) = valueStatement fuel (first :: later) := by
  rw [smallStatement.eq_def]
  split
  case h_13 same =>
    cases same
    exact absurd rfl (second rfl _ rfl)
  case h_14 => rfl
  case h_1 same => cases same
  all_goals
    rename_i same
    cases same
    simp [StartsValue] at starts

namespace IsPrimary

variable {value : Expression} {tokens rest : List Token}

theorem starExpressions_eq (primary : IsPrimary value tokens) (ends : Ends rest)
    (single : expectSymbol .comma rest = none) {fuel : Nat} (enough : 32 * tokens.length ≤ fuel) :
    starExpressions fuel (tokens ++ rest) = some (value, rest) := by
  have positive := primary.length_pos
  rcases Nat.exists_eq_add_of_le' (show 2 ≤ fuel by omega) with ⟨fuel, rfl⟩
  have own := primary.isExpression rest fuel ends (by omega)
  have plain : expectSymbol .star (tokens ++ rest) = none := by
    rcases primary.starts with ⟨first, later, rfl, starts, -⟩
    refine expect_of_other (fun same => ?_) _
    rw [StartsValue, same] at starts
    simp at starts
  have inner : starExpression (fuel + 1) (tokens ++ rest) = some (value, rest) := by
    rw [starExpression, plain]
    exact own
  rw [starExpressions, inner, Option.bind_eq_bind, Option.bind_some]
  dsimp only
  rw [single]

theorem produced_eq (primary : IsPrimary value tokens) (ends : Ends rest)
    (single : expectSymbol .comma rest = none) {fuel : Nat}
    (enough : 32 * tokens.length + 1 ≤ fuel) :
    produced fuel (tokens ++ rest) = some (value, rest) := by
  rcases Nat.exists_eq_succ_of_ne_zero (show fuel ≠ 0 by omega) with ⟨fuel, rfl⟩
  rw [produced, primary.expectKeyword_eq_none (by decide) rest]
  exact primary.starExpressions_eq ends single (by omega)

theorem starExpressions_alone (primary : IsPrimary value tokens) {fuel : Nat}
    (enough : 32 * tokens.length ≤ fuel) : starExpressions fuel tokens = some (value, []) := by
  simpa using primary.starExpressions_eq ends_nil rfl enough

theorem produced_alone (primary : IsPrimary value tokens) {fuel : Nat}
    (enough : 32 * tokens.length + 1 ≤ fuel) : produced fuel tokens = some (value, []) := by
  simpa using primary.produced_eq ends_nil rfl enough

end IsPrimary

/-- How a line of a value, or of a target, is read on. -/
theorem isItem_of_valueStatement {form : Form} {value : Expression} {front rest : List Token}
    (primary : IsPrimary value front)
    (apart : ∀ first ∈ front.head?, first.kind = .name → first.text = "match".toList →
      ∃ second ∈ (front ++ rest).tail.head?, StartsNothing second.kind)
    (unnamed : ∀ token ∈ rest.head?, token.kind ≠ .name)
    (read : ∀ fuel, 32 * (front ++ rest).length + 16 ≤ fuel →
      valueStatement fuel (front ++ rest) = some (form, [])) :
    IsItem form (front ++ rest) := by
  rcases primary.starts with ⟨first, later, rfl, starts, continued⟩
  have second : first.kind = .name → ∀ token ∈ (later ++ rest).head?, token.kind ≠ .name := by
    cases later with
    | nil => exact fun _ => unnamed
    | cons x later =>
      rintro called _ ⟨⟩ same
      have known := continued called x rfl
      rw [Continues, same] at known
      simp at known
  refine isItem_of_smallStatement (startsHeader_of_startsValue starts _) (fun fuel => ?_)
    fun fuel enough => ?_
  · refine matchHeader_of_startsValue starts (fun called matched => ?_) fuel
    rcases apart first rfl called matched with ⟨second, member, nothing⟩
    rcases List.head?_eq_some_iff.1 member with ⟨more, parts⟩
    exact ⟨second, more, parts, nothing⟩
  · rw [List.cons_append, smallStatement_of_startsValue starts second]
    exact read fuel enough

/-- A value alone on a line. -/
theorem IsPrimary.isItem {value : Expression} {tokens : List Token} (primary : IsPrimary value tokens)
    (apart : ∀ first ∈ tokens.head?, first.kind = .name → first.text = "match".toList →
      ∃ second ∈ tokens.tail.head?, StartsNothing second.kind) :
    IsItem (.value value) tokens := by
  rw [← List.append_nil tokens]
  refine isItem_of_valueStatement primary (by simpa using apart) (by simp) fun fuel enough => ?_
  rw [valueStatement, primary.produced_eq ends_nil rfl (by simp at enough; omega)]
  rfl

/-- A value that is assigned to a target. -/
theorem isItem_assignment {target value : Expression} {front back : List Token} {equal : Token}
    (written : IsPrimary target front) (assignable : target.isTarget = true)
    (assigns : equal.kind = .symbol .equal) (primary : IsPrimary value back)
    (apart : ∀ first ∈ front.head?, first.kind = .name → first.text = "match".toList →
      ∀ second ∈ front.tail.head?, StartsNothing second.kind) :
    IsItem (.assignment [target]) (front ++ equal :: back) := by
  refine isItem_of_valueStatement written ?_ ?_ fun fuel enough => ?_
  · intro first member called matched
    have known := apart first member called matched
    rcases List.head?_eq_some_iff.1 member with ⟨later, rfl⟩
    cases later with
    | nil => exact ⟨equal, rfl, by simp [StartsNothing, assigns]⟩
    | cons second later => exact ⟨second, rfl, known second rfl⟩
  · rintro _ ⟨⟩
    simp [assigns]
  · simp only [List.length_append, List.length_cons] at enough
    rcases Nat.exists_eq_succ_of_ne_zero (show fuel ≠ 0 by omega) with ⟨fuel, rfl⟩
    have single : expectSymbol .comma (equal :: back) = none := expect_of_other (by simp [assigns]) _
    have first := written.produced_eq (ends_cons (by simp [assigns]) back) single
      (show 32 * front.length + 1 ≤ fuel + 1 by omega)
    have last : assigned (fuel + 1) back = some ([], []) := by
      rw [assigned, primary.produced_alone (by omega)]
      rfl
    rw [valueStatement, first, Option.bind_eq_bind, Option.bind_some]
    rcases equal with ⟨gap, kind, text⟩
    cases assigns
    dsimp only
    rw [if_pos assignable, last]
    rfl

/-- A name with a type, and perhaps a value. -/
theorem isItem_declaration {name colon : Token} {type : Expression} {typeTokens back : List Token}
    (called : name.kind = .name) (declares : colon.kind = .symbol .colon)
    (typed : IsExpression type typeTokens)
    (valued : back = [] ∨ ∃ equal value tokens, back = equal :: tokens ∧
      equal.kind = .symbol .equal ∧ IsPrimary value tokens) :
    IsItem (.declaration (.name name.text) type typeTokens) (name :: colon :: (typeTokens ++ back)) := by
  rcases name with ⟨gap, kind, text⟩
  cases called
  have written := IsPrimary.name gap text
  rw [← List.singleton_append]
  refine isItem_of_valueStatement written ?_ ?_ fun fuel enough => ?_
  · rintro _ ⟨⟩ _ _
    exact ⟨colon, rfl, by simp [StartsNothing, declares]⟩
  · rintro _ ⟨⟩
    simp [declares]
  · simp only [List.length_append, List.length_cons] at enough
    have single : expectSymbol .comma (colon :: (typeTokens ++ back)) = none :=
      expect_of_other (by simp [declares]) _
    have first := written.produced_eq (ends_cons (by simp [declares]) _) single
      (show 32 * 1 + 1 ≤ fuel by simp at enough; omega)
    have ends : Ends back := by
      rcases valued with rfl | ⟨equal, value, tokens, rfl, assigns, -⟩
      · exact ends_nil
      · exact ends_cons (by simp [assigns]) tokens
    have middle := typed back fuel ends (by omega)
    rw [valueStatement, first, Option.bind_eq_bind, Option.bind_some]
    rcases colon with ⟨gap', kind', text'⟩
    cases declares
    dsimp only
    rw [if_pos (show (Expression.name text).isSingleTarget = true from rfl), middle,
      Option.bind_some]
    dsimp only
    have read : tokensRead (typeTokens ++ back) back = typeTokens := by simp [tokensRead]
    rcases valued with rfl | ⟨equal, value, tokens, rfl, assigns, primary⟩
    · rw [read]
      rfl
    · have last := primary.produced_alone (show 32 * tokens.length + 1 ≤ fuel by simp at enough; omega)
      have found : expectSymbol .equal (equal :: tokens) = some tokens := expect_of_kind assigns tokens
      rw [read, found]
      dsimp only
      rw [last]
      rfl

theorem isItem_return {word : Token} {value : Expression} {tokens : List Token}
    (returns : word.kind = .keyword .returnWord) (primary : IsPrimary value tokens) :
    IsItem .plain (word :: tokens) := by
  rcases word with ⟨gap, kind, text⟩
  cases returns
  refine isItem_of_smallStatement rfl (fun _ => rfl) fun fuel enough => ?_
  rw [smallStatement, primary.starExpressions_alone (by simp at enough; omega)]

theorem isItem_raise {word : Token} {value : Expression} {tokens : List Token}
    (raises : word.kind = .keyword .raiseWord) (primary : IsPrimary value tokens) :
    IsItem .plain (word :: tokens) := by
  rcases word with ⟨gap, kind, text⟩
  cases raises
  refine isItem_of_smallStatement rfl (fun _ => rfl) fun fuel enough => ?_
  have own := primary.isExpression [] fuel ends_nil (by simp at enough; omega)
  rw [List.append_nil] at own
  rw [smallStatement, own]
  rfl

/-! ## Headers -/

theorem isHeader_of_header {head : Head} {tokens : List Token} (headed : startsHeader tokens = true)
    (read : header (grammarFuel tokens) tokens = some (head, [])) : IsHeader head tokens := by
  unfold IsHeader readLine
  dsimp only
  rw [if_neg (by simp), if_pos headed, read]
  rfl

theorem isHeader_decorator {sign : Token} {value : Expression} {tokens : List Token}
    (decorates : sign.kind = .symbol .at) (primary : IsPrimary value tokens) :
    IsHeader (.decorator value) (sign :: tokens) := by
  rcases sign with ⟨gap, kind, text⟩
  cases decorates
  refine isHeader_of_header rfl ?_
  have own := primary.isExpression [] (32 * tokens.length + 63) ends_nil (by omega)
  rw [List.append_nil] at own
  rcases primary.starts with ⟨first, later, rfl, starts, second⟩
  have plain : named (32 * (first :: later).length + 64) (first :: later) = some (value, []) := by
    rw [named_of_startsValue starts, own]
    intro called token member same
    have known := second called token member
    rw [Continues, same] at known
    simp at known
  have fuel : grammarFuel (⟨gap, .symbol .at, text⟩ :: first :: later) =
      32 * (first :: later).length + 64 := by
    simp only [grammarFuel, List.length_cons]
    omega
  rw [fuel]
  change (named _ (first :: later)).bind _ = _
  rw [plain]
  rfl

theorem isHeader_clause {kind : ClauseKind} {word : Keyword} {gap colonGap : List Piece}
    {text colonText : Text}
    (known : (kind, word) ∈ [(ClauseKind.tryClause, Keyword.tryWord), (.finallyClause, .finallyWord)]) :
    IsHeader (.clause kind) [⟨gap, .keyword word, text⟩, ⟨colonGap, .symbol .colon, colonText⟩] := by
  simp only [List.mem_cons, Prod.mk.injEq, List.not_mem_nil, or_false] at known
  rcases known with ⟨rfl, rfl⟩ | ⟨rfl, rfl⟩ <;> rfl

theorem isHeader_ifAbsent {value : Expression} {tokens : List Token}
    (primary : IsPrimary value tokens) (gap isGap noneGap colonGap : List Piece)
    (text isText noneText colonText : Text) :
    IsHeader (.clause .ifClause) (⟨gap, .keyword .ifWord, text⟩ :: (tokens ++
      [⟨isGap, .keyword .isWord, isText⟩, ⟨noneGap, .keyword .noneWord, noneText⟩,
        ⟨colonGap, .symbol .colon, colonText⟩])) := by
  let colon : Token := ⟨colonGap, .symbol .colon, colonText⟩
  refine isHeader_of_header rfl ?_
  have own := primary.isAbsent isGap noneGap isText noneText [colon]
    (32 * tokens.length + 32 * 5 - 1) (ends_cons (by simp [colon]) []) (by simp; omega)
  rcases primary.exists_append ⟨isGap, .keyword .isWord, isText⟩
    [⟨noneGap, .keyword .noneWord, noneText⟩, colon] (.symbol .walrus) (by simp)
    (by simp [Continues]) with ⟨first, later, parts, starts, second⟩
  have shape : (tokens ++ [⟨isGap, .keyword .isWord, isText⟩, ⟨noneGap, .keyword .noneWord, noneText⟩]) ++
      [colon] = first :: later := by
    rw [← parts]
    simp
  rw [shape] at own
  have plain : named (32 * tokens.length + 32 * 5) (first :: later) = some (.other, [colon]) := by
    rw [show 32 * tokens.length + 32 * 5 = 32 * tokens.length + 32 * 5 - 1 + 1 by omega,
      named_of_startsValue starts second, own]
  have fuel : grammarFuel (⟨gap, .keyword .ifWord, text⟩ :: (first :: later)) =
      32 * tokens.length + 32 * 5 := by
    rw [← parts]
    simp only [grammarFuel, List.length_cons, List.length_append, List.length_nil, colon]
    omega
  rw [parts, fuel]
  change clauseHeader .ifClause ((named _ (first :: later)).map _) = _
  rw [plain]
  rfl

/-! ## Headers of classes and functions -/

/-- What stands between the name of a class and the colon. -/
def IsClassTail (tokens : List Token) : Prop :=
  ∀ (gap : List Piece) (name : Text) (colon : Token) (fuel : Nat), colon.kind = .symbol .colon →
    32 * tokens.length + 32 ≤ fuel →
      ∃ head : ClassHead, head.name = name ∧
        classHeader fuel (⟨gap, .name, name⟩ :: (tokens ++ [colon])) =
          some (.definition (.classDefinition head), [])

theorem isClassTail_nil : IsClassTail [] := by
  intro gap name colon fuel colons _
  rcases colon with ⟨gap', kind, text⟩
  cases colons
  exact ⟨⟨name, [], []⟩, rfl, rfl⟩

theorem exists_isHeader_class (name : Text) {tail : List Token} (known : IsClassTail tail)
    (gap nameGap colonGap : List Piece) (text colonText : Text) :
    ∃ role : Role, role.name = name ∧ IsHeader (.definition role)
      (⟨gap, .keyword .classWord, text⟩ :: ⟨nameGap, .name, name⟩ ::
        (tail ++ [⟨colonGap, .symbol .colon, colonText⟩])) := by
  rcases known nameGap name ⟨colonGap, .symbol .colon, colonText⟩ (32 * (tail.length + 4)) rfl
    (by omega) with ⟨head, named, read⟩
  refine ⟨.classDefinition head, named, isHeader_of_header rfl ?_⟩
  have fuel : grammarFuel (⟨gap, .keyword .classWord, text⟩ :: ⟨nameGap, .name, name⟩ ::
      (tail ++ [⟨colonGap, .symbol .colon, colonText⟩])) = 32 * (tail.length + 4) := by
    simp only [grammarFuel, List.length_cons, List.length_append, List.length_nil]
  rw [fuel]
  exact read

/-- A parameter with its type, if it has one. -/
inductive IsParameter : List Token → Prop
  | plain {name : Token} : name.kind = .name → IsParameter [name]
  | typed {name colon : Token} {type : Expression} {tokens : List Token} : name.kind = .name →
    colon.kind = .symbol .colon → IsExpression type tokens → IsParameter (name :: colon :: tokens)

/-- Parameters with commas between them. -/
inductive ParameterList : List Token → Prop
  | none : ParameterList []
  | last {tokens : List Token} : IsParameter tokens → ParameterList tokens
  | more {tokens later : List Token} {comma : Token} : IsParameter tokens →
    comma.kind = .symbol .comma → ParameterList later → ParameterList (tokens ++ comma :: later)

/-- Nothing has been seen of a parameter list but plain parameters. -/
def ParameterPhase.IsPlain (phase : ParameterPhase) : Prop :=
  phase.withDefault = false ∧ phase.waiting = false

theorem parameters_parameter {phase : ParameterPhase} {tokens : List Token} {next : Token}
    (parameter : IsParameter tokens) (plain : phase.IsPlain)
    (follows : next.kind = .symbol .comma ∨ next.kind = .symbol .closeRound) {fuel : Nat}
    (enough : 32 * tokens.length ≤ fuel + 1) {found : List Text} {after more : List Token}
    (others : moreParameters (fuel + 1) true { phase with any := true, waiting := false }
      (next :: more) = some (found, after)) :
    ∃ found, parameters (fuel + 2) true phase (tokens ++ next :: more) = some (found, after) := by
  have ends : Ends (next :: more) := ends_cons (by rcases follows with same | same <;> simp [same]) more
  have undefaulted : expectSymbol .equal (next :: more) = Option.none :=
    expect_of_other (by rcases follows with same | same <;> simp [same]) more
  have undeclared : expectSymbol .colon (next :: more) = Option.none :=
    expect_of_other (by rcases follows with same | same <;> simp [same]) more
  cases parameter with
  | @plain name called =>
    rcases name with ⟨gap, kind, text⟩
    cases called
    have untyped : parameterType (fuel + 1) true false (next :: more) = some (next :: more) := by
      rw [parameterType, undeclared]
      rfl
    rw [List.singleton_append, parameters, untyped, Option.bind_eq_bind, Option.bind_some]
    dsimp only
    rw [undefaulted]
    dsimp only
    rw [if_neg (by simp [plain.1]), others]
    exact ⟨_, rfl⟩
  | @typed name colon type tokens called declares typed =>
    rcases name with ⟨gap, kind, text⟩
    cases called
    simp only [List.length_cons] at enough
    have own := typed (next :: more) fuel ends (by omega)
    have declared : parameterType (fuel + 1) true false (colon :: (tokens ++ next :: more)) =
        some (next :: more) := by
      have found : expectSymbol .colon (colon :: (tokens ++ next :: more)) =
          some (tokens ++ next :: more) := expect_of_kind declares _
      rw [parameterType, found]
      dsimp only
      rw [own]
      rfl
    rw [List.cons_append, List.cons_append, parameters, declared, Option.bind_eq_bind,
      Option.bind_some]
    · dsimp only
      rw [undefaulted]
      dsimp only
      rw [if_neg (by simp [plain.1]), others]
      exact ⟨_, rfl⟩

theorem ParameterList.reads {phase : ParameterPhase} {tokens : List Token}
    (list : ParameterList tokens) (plain : phase.IsPlain) {close : Token} {behind : List Token}
    (closes : close.kind = .symbol .closeRound) {fuel : Nat}
    (enough : 32 * tokens.length + 4 ≤ fuel) :
    ∃ found, parameters fuel true phase (tokens ++ close :: behind) =
      some (found, close :: behind) := by
  have last : ∀ fuel (phase : ParameterPhase), phase.IsPlain →
      moreParameters (fuel + 1) true phase (close :: behind) = some ([], close :: behind) := by
    intro fuel phase plain
    have other : expectSymbol .comma (close :: behind) = Option.none :=
      expect_of_other (by simp [closes]) behind
    rw [moreParameters, other]
    dsimp only
    rw [if_neg (by simp [plain.2])]
  induction list generalizing fuel phase with
  | none =>
    rcases Nat.exists_eq_succ_of_ne_zero (show fuel ≠ 0 by omega) with ⟨fuel, rfl⟩
    rcases close with ⟨gap, kind, text⟩
    cases closes
    refine ⟨[], ?_⟩
    rw [List.nil_append, parameters]
    · rw [if_neg (by simp [plain.2])]
    all_goals nofun
  | last parameter =>
    rcases Nat.exists_eq_add_of_le' (show 2 ≤ fuel by omega) with ⟨fuel, rfl⟩
    exact parameters_parameter parameter plain (.inr closes) (by omega) (last fuel _ ⟨plain.1, rfl⟩)
  | @more tokens later comma parameter separates _ ih =>
    simp only [List.length_append, List.length_cons] at enough
    rcases Nat.exists_eq_add_of_le' (show 2 ≤ fuel by omega) with ⟨fuel, rfl⟩
    have behind_plain : ParameterPhase.IsPlain { phase with any := true, waiting := false } :=
      ⟨plain.1, rfl⟩
    rcases ih behind_plain (show 32 * later.length + 4 ≤ fuel by omega) with ⟨found, same⟩
    rw [List.append_assoc, List.cons_append]
    refine parameters_parameter parameter plain (.inl separates) (by omega) (Eq.trans ?_ same)
    have separated : expectSymbol .comma (comma :: (later ++ close :: behind)) =
        some (later ++ close :: behind) := expect_of_kind separates _
    rw [moreParameters, separated]

/-- The header of a function with parameters and the type of its result. -/
theorem exists_isHeader_function (name : Text) {parameters resultTokens : List Token}
    {result : Expression} (list : ParameterList parameters) (typed : IsExpression result resultTokens)
    (gap nameGap openGap closeGap arrowGap colonGap : List Piece)
    (text openText closeText arrowText colonText : Text) :
    ∃ role : Role, role.name = name ∧ IsHeader (.definition role)
      (⟨gap, .keyword .defWord, text⟩ :: ⟨nameGap, .name, name⟩ ::
        ⟨openGap, .symbol .openRound, openText⟩ :: (parameters ++
          ⟨closeGap, .symbol .closeRound, closeText⟩ :: ⟨arrowGap, .symbol .arrow, arrowText⟩ ::
            (resultTokens ++ [⟨colonGap, .symbol .colon, colonText⟩]))) := by
  let colon : Token := ⟨colonGap, .symbol .colon, colonText⟩
  let fuel := 32 * (parameters.length + resultTokens.length + 7)
  rcases @ParameterList.reads .start parameters list ⟨rfl, rfl⟩
    ⟨closeGap, .symbol .closeRound, closeText⟩ (⟨arrowGap, .symbol .arrow, arrowText⟩ ::
      (resultTokens ++ [colon])) rfl fuel (by omega) with ⟨names, read⟩
  have own := typed [colon] fuel (ends_cons (by simp [colon]) []) (by omega)
  refine ⟨.functionDefinition ⟨name, names⟩, rfl, isHeader_of_header rfl ?_⟩
  have enough : grammarFuel (⟨gap, .keyword .defWord, text⟩ :: ⟨nameGap, .name, name⟩ ::
      ⟨openGap, .symbol .openRound, openText⟩ :: (parameters ++
        ⟨closeGap, .symbol .closeRound, closeText⟩ :: ⟨arrowGap, .symbol .arrow, arrowText⟩ ::
          (resultTokens ++ [colon]))) = fuel := by
    simp only [grammarFuel, List.length_cons, List.length_append, List.length_nil, fuel]
    omega
  rw [enough]
  change functionHeader fuel (⟨nameGap, .name, name⟩ :: ⟨openGap, .symbol .openRound, openText⟩ ::
    (parameters ++ _)) = _
  rw [functionHeader]
  change (Source.parameters fuel true .start (parameters ++ _)).bind _ = _
  rw [read, Option.bind_some]
  change ((Source.expression fuel (resultTokens ++ [colon])).map (·.2)).bind _ = _
  rw [own]
  rfl

end Source
end OpenRecord
