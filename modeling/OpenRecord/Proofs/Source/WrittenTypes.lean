import OpenRecord.Proofs.Source.WrittenLines

namespace OpenRecord
namespace Source

/-!
# Reading types that were written

Most types are values with subscripts, or several values with bars between them.  The elements of a
subscript are such types again.  In the header of a generic class stand such types in parentheses, or
names of type parameters in brackets.
-/

/-! ## Unions -/

/-- Values with bars in front of them. -/
inductive Bars : List Token → Prop
  | none : Bars []
  | more {bar : Token} {value : Expression} {tokens later : List Token} :
    bar.kind = .symbol .bar → IsPrimary value tokens → Bars later → Bars (bar :: (tokens ++ later))

section Unions

variable {rest bars : List Token}

theorem Bars.append {others : List Token} (first : Bars bars) (second : Bars others) :
    Bars (bars ++ others) := by
  induction first with
  | none => exact second
  | more divides primary _ ih =>
    rw [List.cons_append, List.append_assoc]
    exact .more divides primary ih

theorem Bars.endsValue (written : Bars bars) (ends : Ends rest) : EndsValue 5 (bars ++ rest) := by
  cases written with
  | none => exact ends.endsValue.mono (Nat.zero_le 5)
  | @more bar value tokens later divides primary others =>
    rcases bar with ⟨gap, kind, text⟩
    cases divides
    refine ⟨fun tighter above => ?_, rfl, fun _ _ => rfl, rfl, rfl⟩
    rw [List.cons_append]
    unfold afterOperator
    dsimp only
    split <;> first | rfl | contradiction | simp_all

/-- The operands behind a first one are read to the end. -/
theorem Bars.operands_eq (written : Bars bars) (ends : Ends rest) {fuel : Nat}
    (enough : 32 * bars.length + 1 ≤ fuel) :
    operands fuel 4 .other (bars ++ rest) = some (.other, rest) := by
  induction written generalizing fuel with
  | none =>
    rcases Nat.exists_eq_succ_of_ne_zero (show fuel ≠ 0 by omega) with ⟨fuel, rfl⟩
    rw [List.nil_append, operands, ends.endsValue.operator 4 (Nat.zero_le 4)]
  | @more bar value tokens later divides primary others ih =>
    simp only [List.length_cons, List.length_append] at enough
    rcases Nat.exists_eq_succ_of_ne_zero (show fuel ≠ 0 by omega) with ⟨fuel, rfl⟩
    have own := primary.operation_eq (others.endsValue ends) (by decide)
      (show 32 * tokens.length + 10 ≤ fuel + 5 + 13 by omega)
    have follows : afterOperator 4 (bar :: (tokens ++ (later ++ rest))) =
        some (tokens ++ (later ++ rest)) := by
      rcases bar with ⟨gap, kind, text⟩
      cases divides
      rfl
    rw [List.cons_append, List.append_assoc, operands, follows]
    dsimp only
    rw [own, Option.bind_eq_bind, Option.bind_some]
    exact ih (by omega)

/-- A value, and perhaps others behind it with bars between them. -/
inductive IsUnion : List Token → Prop
  | intro {value : Expression} {front bars : List Token} :
    IsPrimary value front → Bars bars → IsUnion (front ++ bars)

theorem IsPrimary.isUnion {value : Expression} {tokens : List Token}
    (primary : IsPrimary value tokens) : IsUnion tokens := by
  rw [← List.append_nil tokens]
  exact .intro primary .none

theorem IsUnion.more {tokens others : List Token} {bar : Token} {value : Expression}
    (union : IsUnion tokens) (divides : bar.kind = .symbol .bar) (primary : IsPrimary value others) :
    IsUnion (tokens ++ bar :: others) := by
  rcases union with ⟨first, written⟩
  rw [List.append_assoc]
  refine .intro first (written.append ?_)
  rw [← List.append_nil others]
  exact .more divides primary .none

/-- A first value and others are read as one expression. -/
theorem IsUnion.exists_isExpression {tokens : List Token} (union : IsUnion tokens) :
    ∃ value, IsExpression value tokens := by
  rcases union with @⟨value, front, bars, primary, written⟩
  cases written with
  | none =>
    rw [List.append_nil]
    exact ⟨value, primary.isExpression⟩
  | @more bar last tokens later divides second others =>
    refine ⟨.other, fun rest fuel ends enough => ?_⟩
    simp only [List.length_append, List.length_cons] at enough
    have positive := primary.length_pos
    rcases Nat.exists_eq_add_of_le' (show 32 ≤ fuel by omega) with ⟨fuel, rfl⟩
    have written : Bars (bar :: (tokens ++ later)) := .more divides second others
    have first := primary.operation_eq (written.endsValue ends) (by decide)
      (show 32 * front.length + 10 ≤ fuel + 26 + 5 + 13 by omega)
    have follows : afterOperator 4 (bar :: (tokens ++ later) ++ rest) =
        some (tokens ++ (later ++ rest)) := by
      rcases bar with ⟨gap, kind, text⟩
      cases divides
      rw [List.cons_append, List.append_assoc]
      rfl
    have own := second.operation_eq (others.endsValue ends) (by decide)
      (show 32 * tokens.length + 10 ≤ fuel + 25 + 5 + 13 by omega)
    have operators : operands (fuel + 26) 4 value (bar :: (tokens ++ later) ++ rest) =
        some (.other, rest) := by
      rw [operands, follows]
      dsimp only
      rw [own, Option.bind_eq_bind, Option.bind_some]
      exact others.operands_eq ends (by omega)
    have joined : operation (fuel + 27) 4 (front ++ (bar :: (tokens ++ later) ++ rest)) =
        some (.other, rest) := by
      rw [operation, if_neg (by decide), if_neg (by decide), first, Option.bind_eq_bind,
        Option.bind_some]
      exact operators
    have outward := fun level (low : level ≠ 10) {fuel} (inner : operation (fuel + 1) (level + 1)
        (front ++ (bar :: (tokens ++ later) ++ rest)) = some (.other, rest)) =>
      operation_outward inner (ends.endsValue.mono (Nat.zero_le level)) low
        (primary.expectKeyword_eq_none (by decide) _)
    have loosest := outward 0 (by decide) (outward 1 (by decide) (outward 2 (by decide)
      (outward 3 (by decide) joined)))
    rw [List.append_assoc]
    exact expression_of_operation loosest ends (primary.expectKeyword_eq_none (by decide) _)

/-- The second token behind the first one of a union. -/
theorem IsUnion.exists_append {tokens : List Token} (union : IsUnion tokens) (next : Token)
    (more : List Token) (other : next.kind ≠ .symbol .walrus) :
    ∃ first later, tokens ++ next :: more = first :: later ∧ StartsValue first.kind ∧
      (first.kind = .name → ∀ second ∈ later.head?, second.kind ≠ .symbol .walrus) := by
  rcases union with @⟨value, front, bars, primary, written⟩
  have known : ¬Continues (.symbol .walrus) := by simp [Continues]
  cases written with
  | none =>
    rw [List.append_nil]
    exact primary.exists_append next more _ other known
  | @more bar last tokens later divides =>
    rw [List.append_assoc, List.cons_append]
    exact primary.exists_append bar _ _ (by simp [divides]) known

end Unions

/-! ## Subscripts -/

/-- The elements of a subscript with commas between them. -/
inductive ElementList : List (Option Expression × List Token) → List Token → Prop
  | last {value : Expression} {tokens : List Token} : IsUnion tokens → IsExpression value tokens →
    ElementList [(some value, tokens)] tokens
  | more {value : Expression} {tokens later : List Token} {comma : Token}
    {found : List (Option Expression × List Token)} : IsUnion tokens → IsExpression value tokens →
    comma.kind = .symbol .comma → ElementList found later →
      ElementList ((some value, tokens) :: found) (tokens ++ comma :: later)

theorem subscriptElement_of_startsValue {first : Token} (starts : StartsValue first.kind)
    {later : List Token}
    (second : first.kind = .name → ∀ token ∈ later.head?, token.kind ≠ .symbol .walrus)
    {fuel : Nat} {value : Expression} {rest : List Token}
    (read : expression fuel (first :: later) = some (value, rest))
    (plain : expectSymbol .colon rest = none) :
    subscriptElement (fuel + 1) (first :: later) = some (some value, rest) := by
  rcases first with ⟨gap, kind, text⟩
  simp only [StartsValue, List.mem_cons, List.not_mem_nil, or_false] at starts
  unfold subscriptElement
  split
  case h_3 same =>
    cases same
    exact absurd rfl (second rfl _ rfl)
  case h_4 =>
    rw [read, Option.bind_eq_bind, Option.bind_some]
    dsimp only
    rw [plain]
  all_goals
    rename_i same
    cases same
    simp at starts

theorem subscriptElement_eq {tokens : List Token} {value : Expression} (union : IsUnion tokens)
    (typed : IsExpression value tokens) {next : Token} {more : List Token}
    (follows : next.kind = .symbol .comma ∨ next.kind = .symbol .closeSquare) {fuel : Nat}
    (enough : 32 * tokens.length ≤ fuel + 2) :
    subscriptElement (fuel + 1) (tokens ++ next :: more) = some (some value, next :: more) := by
  have ends : Ends (next :: more) := ends_cons (by rcases follows with same | same <;> simp [same]) more
  have plain : expectSymbol .colon (next :: more) = none :=
    expect_of_other (by rcases follows with same | same <;> simp [same]) more
  have own := typed (next :: more) fuel ends enough
  rcases union.exists_append next more (by rcases follows with same | same <;> simp [same]) with
    ⟨first, later, parts, starts, second⟩
  rw [parts] at own ⊢
  exact subscriptElement_of_startsValue starts second own plain

theorem IsUnion.startsWith_eq {tokens : List Token} (union : IsUnion tokens) (rest : List Token) :
    startsWith (.symbol .closeSquare) (tokens ++ rest) = false := by
  rcases union with @⟨value, front, bars, primary, written⟩
  rcases primary.starts with ⟨first, later, rfl, starts, -⟩
  refine Option.isSome_eq_false_iff.2 (Option.isNone_iff_eq_none.2 (expect_of_other (fun same => ?_) _))
  rw [StartsValue, same] at starts
  simp at starts

theorem ElementList.startsWith_eq {found : List (Option Expression × List Token)} {tokens : List Token}
    (list : ElementList found tokens) (rest : List Token) :
    startsWith (.symbol .closeSquare) (tokens ++ rest) = false := by
  cases list with
  | last union => exact union.startsWith_eq rest
  | more union =>
    rw [List.append_assoc]
    exact union.startsWith_eq _

/-- The elements are read up to the closing bracket. -/
theorem ElementList.reads {found : List (Option Expression × List Token)} {tokens : List Token}
    (list : ElementList found tokens) {close : Token}
    (closes : close.kind = .symbol .closeSquare) (behind : List Token) {fuel : Nat}
    (enough : 32 * tokens.length + 4 ≤ fuel) :
    subscripts fuel (tokens ++ close :: behind) = some (found, close :: behind) := by
  induction list generalizing fuel with
  | @last value tokens union typed =>
    rcases Nat.exists_eq_add_of_le' (show 2 ≤ fuel by omega) with ⟨fuel, rfl⟩
    have own := @subscriptElement_eq tokens value union typed close behind (.inr closes) fuel (by omega)
    have other : expectSymbol .comma (close :: behind) = none := expect_of_other (by simp [closes]) _
    rw [subscripts, own, Option.bind_eq_bind, Option.bind_some]
    dsimp only
    rw [other]
    simp [tokensRead]
  | @more value tokens later comma found union typed separates others ih =>
    simp only [List.length_append, List.length_cons] at enough
    rcases Nat.exists_eq_add_of_le' (show 2 ≤ fuel by omega) with ⟨fuel, rfl⟩
    have own := @subscriptElement_eq tokens value union typed comma (later ++ close :: behind)
      (.inl separates) fuel (by omega)
    have separated : expectSymbol .comma (comma :: (later ++ close :: behind)) =
        some (later ++ close :: behind) := expect_of_kind separates _
    have read : tokensRead (tokens ++ comma :: (later ++ close :: behind))
        (comma :: (later ++ close :: behind)) = tokens := by simp [tokensRead]
    rw [List.append_assoc, List.cons_append, subscripts, own, Option.bind_eq_bind, Option.bind_some]
    dsimp only
    rw [separated, read]
    dsimp only
    rw [others.startsWith_eq, if_neg (by decide), ih (by omega)]
    rfl

/-- A value with a subscript. -/
theorem IsPrimary.withSubscript {value : Expression} {tokens elements : List Token}
    {found : List (Option Expression × List Token)} (primary : IsPrimary value tokens)
    (list : ElementList found elements) (openGap closeGap : List Piece)
    (openText closeText : Text) :
    IsPrimary (.subscript value found) (tokens ++ ⟨openGap, .symbol .openSquare, openText⟩ ::
      (elements ++ [⟨closeGap, .symbol .closeSquare, closeText⟩])) where
  starts := primary.starts_append _ (by simp [Continues])
  reads rest fuel _ _ enough := by
    simp only [List.length_append, List.length_cons, List.length_nil] at enough ⊢
    let close : Token := ⟨closeGap, .symbol .closeSquare, closeText⟩
    rcases primary.reads (⟨openGap, .symbol .openSquare, openText⟩ :: (elements ++ close :: rest))
      fuel rfl rfl (by omega) with ⟨left, same, more⟩
    rcases Nat.exists_eq_succ_of_ne_zero (show left ≠ 0 by omega) with ⟨left, rfl⟩
    have read := @ElementList.reads _ _ list close rfl rest left (by omega)
    refine ⟨left, ?_, by omega⟩
    rw [List.append_assoc, List.cons_append, List.append_assoc]
    refine same.trans ?_
    rw [trailers]
    change (Source.subscripts left (elements ++ close :: rest)).bind _ = _
    rw [read]
    rfl

/-! ## Headers of generic classes -/

/-- Base classes in parentheses. -/
theorem isClassTail_bases {bases : List Token} (list : ArgumentList .positional bases)
    (openGap closeGap : List Piece) (openText closeText : Text) :
    IsClassTail (⟨openGap, .symbol .openRound, openText⟩ :: (bases ++
      [⟨closeGap, .symbol .closeRound, closeText⟩])) := by
  intro gap name colon fuel colons enough
  let close : Token := ⟨closeGap, .symbol .closeRound, closeText⟩
  simp only [List.length_cons, List.length_append] at enough
  rcases @ArgumentList.reads close [colon] _ _ list rfl false fuel (by omega) with ⟨found, read⟩
  refine ⟨⟨name, [], found⟩, rfl, ?_⟩
  have plain : typeParameterList fuel (⟨openGap, .symbol .openRound, openText⟩ ::
      (bases ++ [close, colon])) = some ([], ⟨openGap, .symbol .openRound, openText⟩ ::
        (bases ++ [close, colon])) := rfl
  have opened : expectSymbol .openRound (⟨openGap, .symbol .openRound, openText⟩ ::
      (bases ++ [close, colon])) = some (bases ++ [close, colon]) := rfl
  have closed : expectSymbol .closeRound [close, colon] = some [colon] := rfl
  have ended : expectSymbol .colon [colon] = some [] := expect_of_kind colons []
  rw [List.cons_append, List.append_assoc, List.singleton_append, classHeader, plain,
    Option.bind_eq_bind, Option.bind_some]
  dsimp only
  rw [opened]
  dsimp only
  rw [read]
  simp only [Option.bind_eq_bind, Option.bind_some, closed, ended]

/-- Names of type parameters with commas between them. -/
inductive NameList : List Token → Prop
  | last {name : Token} : name.kind = .name → NameList [name]
  | more {name comma : Token} {later : List Token} : name.kind = .name →
    comma.kind = .symbol .comma → NameList later → NameList (name :: comma :: later)

/-- The names are read with the closing bracket. -/
theorem NameList.reads {tokens : List Token} (list : NameList tokens) {close : Token}
    (closes : close.kind = .symbol .closeSquare) (behind : List Token) {fuel : Nat}
    (enough : tokens.length ≤ fuel) :
    ∃ found, typeParameters fuel (tokens ++ close :: behind) = some (found, behind) := by
  rcases close with ⟨closeGap, kind, closeText⟩
  cases closes
  induction list generalizing fuel with
  | @last name called =>
    rcases Nat.exists_eq_succ_of_ne_zero (Nat.ne_of_gt enough) with ⟨fuel, rfl⟩
    rcases name with ⟨gap, kind, text⟩
    cases called
    exact ⟨_, rfl⟩
  | @more name comma later called separates others ih =>
    rcases Nat.exists_eq_succ_of_ne_zero (Nat.ne_of_gt (Nat.lt_of_lt_of_le (Nat.succ_pos _) enough))
      with ⟨fuel, rfl⟩
    rcases ih (Nat.le_of_succ_le (Nat.le_of_succ_le_succ enough)) with ⟨found, same⟩
    rcases name with ⟨gap, kind, text⟩
    cases called
    rcases comma with ⟨gap', kind, text'⟩
    cases separates
    have first : ∃ token after, later = token :: after ∧ token.kind = .name := by
      cases others with
      | last called => exact ⟨_, _, rfl, called⟩
      | more called => exact ⟨_, _, rfl, called⟩
    rcases first with ⟨⟨gap'', kind, text''⟩, after, rfl, called⟩
    cases called
    let behindName : List Token := ⟨gap', .symbol .comma, text'⟩ :: ⟨gap'', .name, text''⟩ ::
      (after ++ ⟨closeGap, .symbol .closeSquare, closeText⟩ :: behind)
    refine ⟨⟨text, tokensRead (⟨gap, .name, text⟩ :: behindName) behindName⟩ :: found, ?_⟩
    change (typeParameters fuel (⟨gap'', .name, text''⟩ :: after ++
      ⟨closeGap, .symbol .closeSquare, closeText⟩ :: behind)).bind _ = _
    rw [same]
    rfl

theorem isClassTail_names {names : List Token} (list : NameList names)
    (openGap closeGap : List Piece) (openText closeText : Text) :
    IsClassTail (⟨openGap, .symbol .openSquare, openText⟩ :: (names ++
      [⟨closeGap, .symbol .closeSquare, closeText⟩])) := by
  intro gap name colon fuel colons enough
  let close : Token := ⟨closeGap, .symbol .closeSquare, closeText⟩
  simp only [List.length_cons, List.length_append] at enough
  rcases @NameList.reads _ list close rfl [colon] fuel (by omega) with ⟨found, read⟩
  refine ⟨⟨name, found, []⟩, rfl, ?_⟩
  have opened : typeParameterList fuel (⟨openGap, .symbol .openSquare, openText⟩ ::
      (names ++ [close, colon])) = typeParameters fuel (names ++ [close, colon]) := rfl
  have plain : expectSymbol .openRound [colon] = none := expect_of_other (by simp [colons]) []
  have ended : expectSymbol .colon [colon] = some [] := expect_of_kind colons []
  rw [List.cons_append, List.append_assoc, List.singleton_append, classHeader, opened, read,
    Option.bind_eq_bind, Option.bind_some]
  dsimp only
  rw [plain]
  simp only [Option.bind_eq_bind, Option.bind_some, ended]

end Source
end OpenRecord
