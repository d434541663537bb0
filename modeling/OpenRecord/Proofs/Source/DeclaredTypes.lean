import OpenRecord.Proofs.Source.DeclaredNames
import OpenRecord.Proofs.Source.LineTokens

namespace OpenRecord
namespace Source

/-!
# The types of declarations

The tokens of the type of a declaration stand together in a line, and an expression was read from
them.  It takes one token at least.  It does not go on into a part of a literal with replacement
fields where only literals stand in front, because the opening of that literal would be missing.  So
the types that are rendered are such as can be told from their text to be runs of string literals or
not.
-/

/-! ## Expressions take a token -/

/-- If something was read, the first token was taken. -/
def Takes {α : Type} (tokens : List Token) (result : Option (α × List Token)) : Prop :=
  ∀ found rest, result = some (found, rest) →
    ∃ first later, tokens = first :: later ∧ rest <:+ later

theorem Takes.of_leaves {α : Type} {first : Token} {later : List Token}
    {result : Option (α × List Token)} (leaves : Leaves later result) :
    Takes (first :: later) result :=
  fun found rest same => ⟨first, later, rfl, leaves found rest same⟩

/-- Something is read behind what took the first token. -/
theorem Takes.bind {α β : Type} {tokens : List Token} {result : Option (α × List Token)}
    {next : α × List Token → Option (β × List Token)} (takes : Takes tokens result)
    (others : ∀ {whole found rest}, rest <:+ whole → Leaves whole (next (found, rest))) :
    Takes tokens (result >>= next) := by
  cases result with
  | none => nofun
  | some pair =>
    rcases takes _ _ rfl with ⟨first, later, rfl, within⟩
    exact .of_leaves (others within)

theorem exists_cons_of_expect {kind : TokenKind} {tokens rest : List Token}
    (found : expect kind tokens = some rest) : ∃ token, tokens = token :: rest := by
  unfold expect at found
  split at found
  · split at found <;> cases found
    exact ⟨_, rfl⟩
  · cases found

/-- The phrases from an expression down to an atom take the first token. -/
structure PhrasesTake (tokens : List Token) (fuel : Nat) : Prop where
  expression : Takes tokens (expression fuel tokens)
  operation : ∀ level, Takes tokens (operation fuel level tokens)
  factor : Takes tokens (factor fuel tokens)
  awaited : Takes tokens (awaited fuel tokens)
  primary : Takes tokens (primary fuel tokens)
  atom : Takes tokens (atom fuel tokens)

section Take

variable {tokens : List Token} {fuel : Nat}

theorem leavesRest_literals_open {gap : List Piece} {text : Text} {rest : List Token} :
    LeavesRest rest (literals fuel (⟨gap, .templateOpen, text⟩ :: rest)) := by
  cases fuel with
  | zero => exact .none
  | succ fuel =>
    have phrases := phrasesLeave rest fuel
    unfold literals
    refine .bindRest (phrases.template (List.suffix_refl rest)) fun _ within => ?_
    exact .bindRest (leavesRest_expect within) fun _ within => phrases.literals within

theorem takes_atom : Takes tokens (atom (fuel + 1) tokens) := by
  unfold atom
  split
  case h_7 rest =>
    have phrases := phrasesLeave rest fuel
    split
    · exact .of_leaves (.bindRest (phrases.literals (List.suffix_refl rest)) fun _ within =>
        .some within)
    · exact .of_leaves (.some (List.suffix_refl rest))
  case h_8 => exact .of_leaves (.bindRest leavesRest_literals_open fun _ within => .some within)
  case h_9 rest => exact .of_leaves ((phrasesLeave rest fuel).round (List.suffix_refl rest))
  case h_10 rest => exact .of_leaves ((phrasesLeave rest fuel).square (List.suffix_refl rest))
  case h_11 rest => exact .of_leaves ((phrasesLeave rest fuel).curly (List.suffix_refl rest))
  case h_12 => nofun
  all_goals exact .of_leaves (.some (List.suffix_refl _))

variable (ih : PhrasesTake tokens fuel)

include ih

theorem takes_primary : Takes tokens (primary (fuel + 1) tokens) := by
  unfold primary
  exact ih.atom.bind fun within => (phrasesLeave _ fuel).trailers within

theorem takes_awaited : Takes tokens (awaited (fuel + 1) tokens) := by
  unfold awaited
  split
  case h_1 rest word =>
    rcases exists_cons_of_expect word with ⟨first, rfl⟩
    exact .of_leaves (.bind ((phrasesLeave rest fuel).primary (List.suffix_refl rest))
      fun _ _ within => .some within)
  case h_2 => exact ih.primary

theorem takes_factor : Takes tokens (factor (fuel + 1) tokens) := by
  unfold factor
  split
  case h_1 rest =>
    exact .of_leaves (.bind ((phrasesLeave rest fuel).factor (List.suffix_refl rest))
      fun _ _ within => .some within)
  case h_2 rest =>
    exact .of_leaves (.bind ((phrasesLeave rest fuel).factor (List.suffix_refl rest))
      fun _ _ within => .some within)
  case h_3 =>
    refine ih.awaited.bind fun within => ?_
    dsimp only
    split
    · exact .some within
    case h_2 sign =>
      exact .bind ((phrasesLeave _ fuel).factor (leavesRest_expect within _ sign))
        fun _ _ within => .some within

theorem takes_operation (level : Nat) : Takes tokens (operation (fuel + 1) level tokens) := by
  unfold operation
  split
  · split
    case h_1 rest word =>
      rcases exists_cons_of_expect word with ⟨first, rfl⟩
      exact .of_leaves (.bind ((phrasesLeave rest fuel).operation (List.suffix_refl rest))
        fun _ _ within => .some within)
    case h_2 => exact ih.operation 3
  · split
    · exact ih.factor
    · exact (ih.operation (level + 1)).bind fun within => (phrasesLeave _ fuel).operands within

theorem takes_expression : Takes tokens (expression (fuel + 1) tokens) := by
  unfold expression
  split
  case h_1 rest word =>
    rcases exists_cons_of_expect word with ⟨first, rfl⟩
    have phrases := phrasesLeave rest fuel
    refine .of_leaves (.bind (phrases.parameters (List.suffix_refl rest)) fun _ _ within => ?_)
    refine .bindRest (leavesRest_expect within) fun _ within => ?_
    exact .bind (phrases.expression within) fun _ _ within => .some within
  case h_2 =>
    refine (ih.operation 0).bind fun {whole _ _} within => ?_
    have phrases := phrasesLeave whole fuel
    dsimp only
    split
    · exact .some within
    case h_2 word =>
      refine .bind (phrases.operation (leavesRest_expect within _ word)) fun _ _ within => ?_
      refine .bindRest (leavesRest_expect within) fun _ within => ?_
      exact .bind (phrases.expression within) fun _ _ within => .some within

end Take

theorem phrasesTake (tokens : List Token) : ∀ fuel, PhrasesTake tokens fuel
  | 0 => ⟨nofun, fun _ => nofun, nofun, nofun, nofun, nofun⟩
  | fuel + 1 => by
    have ih := phrasesTake tokens fuel
    exact ⟨takes_expression ih, takes_operation ih, takes_factor ih, takes_awaited ih,
      takes_primary ih, takes_atom⟩

/-! ## Where an expression ends -/

section Halt

variable {front more : List Token} {stop : Token} {fuel : Nat}

/-- Only a given end of the tokens is left. -/
def Halts {α : Type} (behind : List Token) (result : Option (α × List Token)) : Prop :=
  ∀ found rest, result = some (found, rest) → rest = behind

/-- One phrase behind another that leaves just this end. -/
theorem Halts.bind {α β : Type} {behind : List Token} {result : Option (α × List Token)}
    {next : α × List Token → Option (β × List Token)} (halts : Halts behind result)
    (others : ∀ found, Halts behind (next (found, behind))) : Halts behind (result >>= next) := by
  cases result with
  | none => nofun
  | some pair =>
    rcases pair with ⟨found, rest⟩
    cases halts _ _ rfl
    exact others found

/-- Nothing else is read. -/
theorem Halts.some {α : Type} {behind : List Token} {found : α} :
    Halts behind (some (found, behind)) := by
  rintro _ _ ⟨⟩
  rfl

/-- Neither a reserved word nor a symbol stands in front of a part of a template, or of literals in
front of it. -/
theorem expect_eq_none {kind : TokenKind} (literals : ∀ x ∈ front, x.kind = .literal)
    (inside : stop.InTemplate)
    (other : kind ≠ .literal ∧ kind ≠ .templateText ∧ kind ≠ .templateClose) :
    expect kind (front ++ stop :: more) = none := by
  cases front with
  | nil =>
    refine if_neg fun same => ?_
    rcases inside with text | close
    · exact other.2.1 (same.symm.trans text)
    · exact other.2.2 (same.symm.trans close)
  | cons first later =>
    exact if_neg fun same => other.1 (same.symm.trans (literals first (List.mem_cons_self ..)))

theorem expect_stop {kind : TokenKind} (inside : stop.InTemplate)
    (other : kind ≠ .literal ∧ kind ≠ .templateText ∧ kind ≠ .templateClose) :
    expect kind (stop :: more) = none :=
  @expect_eq_none [] more stop kind nofun inside other

theorem afterOperator_eq_none (inside : stop.InTemplate) (level : Nat) :
    afterOperator level (stop :: more) = none := by
  unfold afterOperator
  dsimp only
  rcases inside with kind | kind <;> rw [kind] <;> split <;> first | rfl | contradiction

theorem halts_operands (inside : stop.InTemplate) (level : Nat) (value : Expression) :
    Halts (stop :: more) (operands fuel level value (stop :: more)) := by
  cases fuel with
  | zero => nofun
  | succ fuel =>
    rw [operands, afterOperator_eq_none inside]
    exact .some

theorem halts_trailers (inside : stop.InTemplate) (value : Expression) :
    Halts (stop :: more) (trailers fuel value (stop :: more)) := by
  rcases stop with ⟨gap, kind, text⟩
  cases fuel with
  | zero => nofun
  | succ fuel =>
    rcases inside with rfl | rfl <;> exact .some

theorem literals_halt (literals : ∀ x ∈ front, x.kind = .literal) (inside : stop.InTemplate)
    {rest : List Token} (read : Source.literals fuel (front ++ stop :: more) = some rest) :
    rest = stop :: more := by
  induction fuel generalizing front with
  | zero => cases read
  | succ fuel ih =>
    cases front with
    | nil =>
      rcases stop with ⟨gap, kind, text⟩
      rcases inside with rfl | rfl <;> exact (Option.some.inj read).symm
    | cons first later =>
      rw [List.forall_mem_cons] at literals
      rcases first with ⟨gap, kind, text⟩
      cases literals.1
      exact ih literals.2 read

/-- Every phrase from an expression down to an atom ends in front of a part of a template if there
are only literals in front of it. -/
structure PhrasesHalt (tokens behind : List Token) (fuel : Nat) : Prop where
  expression : Halts behind (expression fuel tokens)
  operation : ∀ level, Halts behind (operation fuel level tokens)
  factor : Halts behind (factor fuel tokens)
  awaited : Halts behind (awaited fuel tokens)
  primary : Halts behind (primary fuel tokens)
  atom : Halts behind (atom fuel tokens)

variable (literals : ∀ x ∈ front, x.kind = .literal) (inside : stop.InTemplate)

include literals inside

theorem halts_atom : Halts (stop :: more) (atom (fuel + 1) (front ++ stop :: more)) := by
  cases front with
  | nil =>
    rcases stop with ⟨gap, kind, text⟩
    rcases inside with rfl | rfl <;> nofun
  | cons first later =>
    rw [List.forall_mem_cons] at literals
    rcases first with ⟨gap, kind, text⟩
    cases literals.1
    unfold atom
    dsimp only [List.cons_append]
    split
    case isTrue =>
      intro found rest read
      rcases Option.bind_eq_some_iff.1 read with ⟨behind, others, same⟩
      cases same
      exact literals_halt literals.2 inside others
    case isFalse alone =>
      cases later with
      | nil => exact .some
      | cons second others =>
        have next := literals.2 second (List.mem_cons_self ..)
        exact absurd (by simp [startsWith, expect, next]) alone

variable (ih : PhrasesHalt (front ++ stop :: more) (stop :: more) fuel)

include ih

omit literals in
theorem halts_primary : Halts (stop :: more) (primary (fuel + 1) (front ++ stop :: more)) := by
  unfold primary
  exact ih.atom.bind fun value => halts_trailers inside value

theorem halts_awaited : Halts (stop :: more) (awaited (fuel + 1) (front ++ stop :: more)) := by
  rw [awaited, expectKeyword, expect_eq_none literals inside (by simp)]
  exact ih.primary

theorem halts_factor : Halts (stop :: more) (factor (fuel + 1) (front ++ stop :: more)) := by
  have unsigned : ∀ which, expect (.symbol which) (front ++ stop :: more) = none :=
    fun which => expect_eq_none literals inside (by simp)
  unfold factor
  split
  case h_1 sign _ rest same =>
    have none := unsigned (.plusOrMinus sign)
    rw [same] at none
    simp [expect] at none
  case h_2 rest same =>
    have none := unsigned .tilde
    rw [same] at none
    simp [expect] at none
  case h_3 =>
    refine ih.awaited.bind fun value => ?_
    dsimp only
    rw [expectSymbol, expect_stop inside (by simp)]
    exact .some

theorem halts_operation (level : Nat) :
    Halts (stop :: more) (operation (fuel + 1) level (front ++ stop :: more)) := by
  rw [operation, expectKeyword, expect_eq_none literals inside (by simp)]
  split
  · exact ih.operation 3
  · split
    · exact ih.factor
    · exact (ih.operation (level + 1)).bind fun value => halts_operands inside level value

theorem halts_expression :
    Halts (stop :: more) (expression (fuel + 1) (front ++ stop :: more)) := by
  rw [expression, expectKeyword, expect_eq_none literals inside (by simp)]
  refine (ih.operation 0).bind fun value => ?_
  dsimp only
  rw [expectKeyword, expect_stop inside (by simp)]
  exact .some

end Halt

/-- Every expression ends in front of a part of a template if there are only literals in front of
it. -/
theorem phrasesHalt {front more : List Token} {stop : Token}
    (literals : ∀ x ∈ front, x.kind = .literal) (inside : stop.InTemplate) :
    ∀ fuel, PhrasesHalt (front ++ stop :: more) (stop :: more) fuel
  | 0 => ⟨nofun, fun _ => nofun, nofun, nofun, nofun, nofun⟩
  | fuel + 1 => by
    have ih := @phrasesHalt front more stop literals inside fuel
    exact ⟨halts_expression literals inside ih, halts_operation literals inside ih,
      halts_factor literals inside ih, halts_awaited literals inside ih, halts_primary inside ih,
      halts_atom literals inside⟩

/-! ## Declarations -/

/-- An expression was read from some tokens that stand together among others. -/
def ReadWithin (whole typeTokens : List Token) : Prop :=
  ∃ fuel type before after, before <:+ whole ∧ expression fuel before = some (type, after) ∧
    typeTokens = tokensRead before after

/-- Tokens that an expression was read from stand together among the others and are not none, and
where only literals stand in front among them there is no part of a template. -/
theorem ReadWithin.opens {whole typeTokens : List Token} (read : ReadWithin whole typeTokens) :
    typeTokens ≠ [] ∧ typeTokens <:+: whole ∧ OpensTemplates typeTokens := by
  rcases read with ⟨fuel, type, before, after, within, found, rfl⟩
  rcases (phrasesTake before fuel).expression _ _ found with ⟨first, later, rfl, behind⟩
  have parts := tokensRead_append (behind.trans (List.suffix_cons first later))
  refine ⟨?_, ?_, ?_⟩
  · intro none
    rw [none, List.nil_append] at parts
    have shorter := behind.length_le
    rw [parts, List.length_cons] at shorter
    omega
  · rcases within with ⟨front, rfl⟩
    exact ⟨front, after, by rw [List.append_assoc, parts]⟩
  · intro front token others taken literals inside
    have shape : first :: later = front ++ token :: (others ++ after) := by
      rw [← parts, taken, List.append_assoc, List.cons_append]
    rw [shape] at found
    have left := (phrasesHalt literals inside fuel).expression _ _ found
    have longer := congrArg List.length left
    simp at longer
    omega

theorem readWithin_of_smallStatement {whole tokens rest : List Token} {fuel : Nat}
    {target type : Expression} {typeTokens : List Token} (within : tokens <:+ whole)
    (read : smallStatement fuel tokens = some (.declaration target type typeTokens, rest)) :
    ReadWithin whole typeTokens := by
  have read := valueStatement_of_isDeclaration read trivial
  unfold valueStatement at read
  rcases Option.bind_eq_some_iff.1 read with ⟨⟨value, behind⟩, found, read⟩
  have left := (phrasesLeave whole fuel).produced within _ _ found
  dsimp only at read
  split at read
  · split at read
    · rcases Option.bind_eq_some_iff.1 read with ⟨⟨type, after⟩, found, read⟩
      dsimp only at read
      split at read
      · cases read
        exact ⟨_, _, _, _, suffix_behind left, found, rfl⟩
      · rcases Option.bind_eq_some_iff.1 read with ⟨_, -, same⟩
        cases same
        exact ⟨_, _, _, _, suffix_behind left, found, rfl⟩
    · cases read
  · split at read
    · rcases Option.bind_eq_some_iff.1 read with ⟨_, -, same⟩
      cases same
    · cases read
  · split at read
    · rcases Option.bind_eq_some_iff.1 read with ⟨_, -, same⟩
      cases same
    · cases read
  · cases read

/-- Tokens whose text is a run of string literals exactly if each of them is a string. -/
def ShowStrings (tokens : List Token) : Prop :=
  LiteralRun (render tokens) ↔ ∀ token ∈ tokens, token.isString = true

theorem ReadWithin.showStrings {whole typeTokens : List Token} (read : ReadWithin whole typeTokens)
    (apart : StandApart whole) : ShowStrings typeTokens := by
  rcases read.opens with ⟨nonempty, within, opens⟩
  rcases List.exists_cons_of_ne_nil nonempty with ⟨first, later, rfl⟩
  have apart := apart.part within
  have member : first ∈ first :: later := List.mem_cons_self ..
  have rescans := apart.rescans first member (opens [] first later rfl nofun)
  unfold ShowStrings
  rw [render_cons (apart.written first member) rescans]
  exact literalRun_renderFrom apart opens

/-! ## Files -/

/-- A small statement in which, if it is a declaration, the type shows whether it is made of
strings. -/
def Form.ShowsStrings : Form → Prop
  | .declaration _ _ typeTokens => ShowStrings typeTokens
  | _ => True

/-- So it is in every small statement. -/
def stringLaw : TreeLaw :=
  ⟨fun _ => True, fun _ => True, fun items => ∀ item ∈ items, item.form.ShowsStrings⟩

theorem LogicalLine.obeys_stringLaw {line : LogicalLine} (apart : StandApart line.tokens) :
    line.Obeys stringLaw := by
  intro amongCases read readable
  have shows : ∀ item ∈ read.smallStatements, item.form.ShowsStrings := by
    intro item member
    rcases readFrom_of_readLine readable item member with ⟨fuel, behind, rest, within, found⟩
    cases form : item.form with
    | declaration target type typeTokens =>
      rw [form] at found
      exact (readWithin_of_smallStatement within found).showStrings apart
    | _ => trivial
  cases read with
  | items found => exact shows
  | header head front found =>
    cases head with
    | decorator value => exact ⟨trivial, shows⟩
    | definition role => exact ⟨trivial, shows⟩
    | clause kind => exact shows

/-- In a file that was read all declared types show whether they are made of strings. -/
theorem showStrings_of_parse? {text : Text} {file : SourceFile}
    (parsed : SourceFile.parse? text = some file) : StatementsObey stringLaw file.body := by
  unfold SourceFile.parse? at parsed
  rcases Option.bind_eq_some_iff.1 parsed with ⟨⟨lines, after⟩, scanned, parsed⟩
  rcases Option.bind_eq_some_iff.1 parsed with ⟨⟨header, body, footer⟩, read, same⟩
  cases same
  exact obeys_readStatements
    (fun line member => line.obeys_stringLaw (standApart_of_logicalLines scanned line member)) read

end Source
end OpenRecord
