import OpenRecord.Proofs.Source.Phrases
import OpenRecord.Source.Item

namespace OpenRecord
namespace Source

/-!
# What patterns, small statements and headers leave

They are made of phrases, and like these they leave the end of the tokens that they were read from.
So every small statement of a line is read from the end of the tokens of the line.
-/

section Patterns

variable {whole tokens : List Token}

/-! ## Patterns -/

theorem leavesRest_captureName (within : tokens <:+ whole) :
    LeavesRest whole (captureName tokens) := by
  unfold captureName
  split
  · split
    · exact .none
    · exact .some (suffix_behind within)
  · exact .none

theorem dottedParts_suffix (tokens : List Token) : (dottedParts tokens).2 <:+ tokens := by
  fun_induction dottedParts tokens with
  | case1 _ _ _ _ rest count after found ih =>
    rw [found] at ih
    exact (ih.trans (List.suffix_cons _ _)).trans (List.suffix_cons _ _)
  | case2 => exact List.suffix_refl _

/-- A number with its sign and its imaginary part. -/
theorem leavesRest_numberPattern (within : tokens <:+ whole) :
    LeavesRest whole (numberPattern tokens) := by
  unfold numberPattern
  refine .bindRest (leavesRest_expect ((leavesRest_expect within).getD within)) fun _ within => ?_
  split
  · exact leavesRest_expect (suffix_behind within)
  · exact .some within

/-- Every kind of pattern that is read with some fuel from the end of some tokens leaves the end of
them. -/
structure PatternsLeave (whole : List Token) (fuel : Nat) : Prop where
  patterns : ∀ {tokens}, tokens <:+ whole → LeavesRest whole (patterns fuel tokens)
  pattern : ∀ {tokens}, tokens <:+ whole → LeavesRest whole (pattern fuel tokens)
  alternatives : ∀ {tokens}, tokens <:+ whole → LeavesRest whole (alternatives fuel tokens)
  closedPattern : ∀ {tokens}, tokens <:+ whole → LeavesRest whole (closedPattern fuel tokens)
  sequenceItem : ∀ {tokens}, tokens <:+ whole → LeavesRest whole (sequenceItem fuel tokens)
  sequenceItems : ∀ {tokens}, tokens <:+ whole → LeavesRest whole (sequenceItems fuel tokens)
  mappingItems : ∀ {tokens}, tokens <:+ whole → LeavesRest whole (mappingItems fuel tokens)
  mappingKey : ∀ {tokens}, tokens <:+ whole → LeavesRest whole (mappingKey fuel tokens)
  classArguments : ∀ {keywordSeen tokens}, tokens <:+ whole →
    LeavesRest whole (classArguments fuel keywordSeen tokens)

end Patterns

section PatternSteps

variable {whole tokens : List Token} {fuel : Nat} (ih : PatternsLeave whole fuel)
  (within : tokens <:+ whole)

include ih within

theorem leavesRest_patterns : LeavesRest whole (patterns (fuel + 1) tokens) := by
  unfold patterns
  split
  · refine .bindRest (ih.sequenceItem within) fun _ within => ?_
    exact .bindRest (leavesRest_expect within) fun _ within => ih.sequenceItems within
  · refine .bindRest (ih.pattern within) fun _ within => ?_
    split
    case h_1 sign => exact ih.sequenceItems (leavesRest_expect within _ sign)
    case h_2 => exact .some within

theorem leavesRest_pattern : LeavesRest whole (pattern (fuel + 1) tokens) := by
  unfold pattern
  refine .bindRest (ih.alternatives within) fun _ within => ?_
  split
  case h_1 word => exact leavesRest_captureName (leavesRest_expect within _ word)
  case h_2 => exact .some within

/-- Closed patterns with bars between them. -/
theorem leavesRest_alternatives : LeavesRest whole (alternatives (fuel + 1) tokens) := by
  unfold alternatives
  refine .bindRest (ih.closedPattern within) fun _ within => ?_
  split
  case h_1 sign => exact ih.alternatives (leavesRest_expect within _ sign)
  case h_2 => exact .some within

/-- A literal, a name, a value, a class, or a bracketed pattern. -/
theorem leavesRest_closedPattern : LeavesRest whole (closedPattern (fuel + 1) tokens) := by
  unfold closedPattern
  split
  case h_1 => exact leavesRest_numberPattern within
  case h_2 => exact leavesRest_numberPattern within
  case h_3 => exact (phrasesLeave whole fuel).literals within
  case h_4 => exact (phrasesLeave whole fuel).literals within
  case h_8 rest =>
    have behind := suffix_behind within
    split
    · exact .some behind
    · have parts := (dottedParts_suffix rest).trans behind
      dsimp only
      split
      case h_1 sign =>
        refine .bindRest (ih.classArguments (leavesRest_expect parts _ sign)) fun _ within => ?_
        exact leavesRest_expect within
      case h_2 => exact .some parts
  case h_9 => exact .some (suffix_behind (suffix_behind within))
  case h_10 =>
    exact .bindRest (ih.patterns (suffix_behind within)) fun _ within => leavesRest_expect within
  case h_11 =>
    exact .bindRest (ih.sequenceItems (suffix_behind within)) fun _ within =>
      leavesRest_expect within
  case h_12 =>
    exact .bindRest (ih.mappingItems (suffix_behind within)) fun _ within =>
      leavesRest_expect within
  case h_13 => exact .none
  all_goals exact .some (suffix_behind within)

theorem leavesRest_sequenceItem : LeavesRest whole (sequenceItem (fuel + 1) tokens) := by
  unfold sequenceItem
  split
  case h_1 sign => exact leavesRest_expect (leavesRest_expect within _ sign)
  case h_2 => exact ih.pattern within

theorem leavesRest_sequenceItems : LeavesRest whole (sequenceItems (fuel + 1) tokens) := by
  unfold sequenceItems
  split
  · exact .some within
  case h_2 item =>
    have behind := ih.sequenceItem within _ item
    split
    case h_1 sign => exact ih.sequenceItems (leavesRest_expect behind _ sign)
    case h_2 => exact .some behind

theorem leavesRest_mappingItems : LeavesRest whole (mappingItems (fuel + 1) tokens) := by
  unfold mappingItems
  split
  · exact .some within
  · refine .bindRest (leavesRest_captureName (suffix_behind within)) fun _ within => ?_
    exact .some ((leavesRest_expect within).getD within)
  · refine .bindRest (ih.mappingKey within) fun _ within => ?_
    refine .bindRest (leavesRest_expect within) fun _ within => ?_
    refine .bindRest (ih.pattern within) fun _ within => ?_
    split
    case h_1 sign => exact ih.mappingItems (leavesRest_expect within _ sign)
    case h_2 => exact .some within

theorem leavesRest_mappingKey : LeavesRest whole (mappingKey (fuel + 1) tokens) := by
  unfold mappingKey
  split
  case h_1 rest =>
    have parts := (dottedParts_suffix rest).trans (suffix_behind within)
    split
    · exact .none
    case h_2 found =>
      rw [found] at parts
      exact .some parts
  case h_5 => exact ih.closedPattern within
  all_goals exact .none

/-- The patterns between the parentheses of a class pattern. -/
theorem leavesRest_classArguments {keywordSeen : Bool} :
    LeavesRest whole (classArguments (fuel + 1) keywordSeen tokens) := by
  unfold classArguments
  split
  · exact .some within
  · refine .bindRest (ih.pattern (suffix_behind (suffix_behind within))) fun _ within => ?_
    split
    case h_1 sign => exact ih.classArguments (leavesRest_expect within _ sign)
    case h_2 => exact .some within
  · dsimp only
    split
    · exact .none
    · refine .bindRest (ih.pattern within) fun _ within => ?_
      split
      case h_1 sign => exact ih.classArguments (leavesRest_expect within _ sign)
      case h_2 => exact .some within

end PatternSteps

theorem patternsLeave (whole : List Token) : ∀ fuel, PatternsLeave whole fuel
  | 0 => by constructor <;> intros <;> exact .none
  | fuel + 1 => by
    have ih := patternsLeave whole fuel
    exact {
      patterns := leavesRest_patterns ih
      pattern := leavesRest_pattern ih
      alternatives := leavesRest_alternatives ih
      closedPattern := leavesRest_closedPattern ih
      sequenceItem := leavesRest_sequenceItem ih
      sequenceItems := leavesRest_sequenceItems ih
      mappingItems := leavesRest_mappingItems ih
      mappingKey := leavesRest_mappingKey ih
      classArguments := fun within => leavesRest_classArguments ih within }

section Statements

variable {whole tokens : List Token} {fuel : Nat}

/-! ## Imports -/

theorem leaves_dottedName (within : tokens <:+ whole) : Leaves whole (dottedName tokens) := by
  fun_induction dottedName tokens with
  | case1 _ _ _ _ rest later after found ih =>
    exact .some (ih (suffix_behind (suffix_behind within)) _ _ found)
  | case2 => exact .none
  | case3 => exact .some (suffix_behind within)
  | case4 => exact .none

theorem leaves_newName (within : tokens <:+ whole) : Leaves whole (newName tokens) := by
  unfold newName
  split
  · exact .some (suffix_behind (suffix_behind within))
  · exact .none
  · exact .some within

theorem leaves_importedModules (within : tokens <:+ whole) :
    Leaves whole (importedModules fuel tokens) := by
  induction fuel generalizing tokens with
  | zero => exact .none
  | succ fuel ih =>
    unfold importedModules
    refine .bind (leaves_dottedName within) fun _ _ within => ?_
    refine .bind (leaves_newName within) fun _ _ within => ?_
    dsimp only
    split
    · exact .some within
    case h_2 sign =>
      exact .bind (ih (leavesRest_expect within _ sign)) fun _ _ within => .some within

theorem leaves_importedNameList {bracketed : Bool} (within : tokens <:+ whole) :
    Leaves whole (importedNameList bracketed fuel tokens) := by
  induction fuel generalizing tokens with
  | zero => exact .none
  | succ fuel ih =>
    unfold importedNameList
    split
    · refine .bind (leaves_newName (suffix_behind within)) fun _ _ within => ?_
      dsimp only
      split
      · exact .some within
      case h_2 sign =>
        have behind := leavesRest_expect within _ sign
        split
        · exact .some behind
        · exact .bind (ih behind) fun _ _ within => .some within
    · exact .none

theorem leadingDots_suffix (tokens : List Token) : (leadingDots tokens).2 <:+ tokens := by
  fun_induction leadingDots tokens with
  | case1 _ _ rest ih => exact ih.trans (List.suffix_cons _ _)
  | case2 _ _ rest ih => exact ih.trans (List.suffix_cons _ _)
  | case3 => exact List.suffix_refl _

theorem leaves_namesFrom {origin : Option Text} (within : tokens <:+ whole) :
    Leaves whole (do
      let rest ← expectKeyword .importWord tokens
      match rest with
      | ⟨_, .symbol .star, _⟩ :: rest => some (Form.importsFrom origin none, rest)
      | ⟨_, .symbol .openRound, _⟩ :: rest => do
        let (aliases, rest) ← importedNameList true fuel rest
        let rest ← expectSymbol .closeRound rest
        some (.importsFrom origin (some aliases), rest)
      | _ => do
        let (aliases, rest) ← importedNameList false fuel rest
        some (.importsFrom origin (some aliases), rest)) := by
  refine .bindRest (leavesRest_expect within) fun _ within => ?_
  split
  · exact .some (suffix_behind within)
  · refine .bind (leaves_importedNameList (suffix_behind within)) fun _ _ within => ?_
    exact .bindRest (leavesRest_expect within) fun _ within => .some within
  · exact .bind (leaves_importedNameList within) fun _ _ within => .some within

/-- Names taken from a module. -/
theorem leaves_importFrom (within : tokens <:+ whole) : Leaves whole (importFrom fuel tokens) := by
  have dots := (leadingDots_suffix tokens).trans within
  unfold importFrom
  dsimp only
  split
  case h_1 found => exact leaves_namesFrom (leaves_dottedName dots _ _ found)
  case h_2 =>
    split
    · exact leaves_namesFrom dots
    · exact .none

/-! ## Small statements -/

theorem leavesRest_nameList (within : tokens <:+ whole) : LeavesRest whole (nameList tokens) := by
  fun_induction nameList tokens with
  | case1 _ _ _ _ rest ih => exact ih (suffix_behind (suffix_behind within))
  | case2 => exact .some (suffix_behind within)
  | case3 => exact .none

/-- The values behind the first target of an assignment. -/
theorem leaves_assigned (within : tokens <:+ whole) : Leaves whole (assigned fuel tokens) := by
  induction fuel generalizing tokens with
  | zero => exact .none
  | succ fuel ih =>
    unfold assigned
    refine .bind ((phrasesLeave whole fuel).produced within) fun _ _ within => ?_
    dsimp only
    split
    · exact .some within
    case h_2 sign =>
      split
      · exact .bind (ih (leavesRest_expect within _ sign)) fun _ _ within => .some within
      · exact .none

theorem leavesRest_typeDefault (within : tokens <:+ whole) :
    LeavesRest whole (typeParameters.typeDefault fuel tokens) := by
  unfold typeParameters.typeDefault
  split
  case h_1 sign =>
    exact .map ((phrasesLeave whole fuel).expression (leavesRest_expect within _ sign))
  case h_2 => exact .some within

/-- What stands behind a type parameter: a comma or the closing bracket. -/
theorem leaves_closedParameter
    (others : ∀ {tokens}, tokens <:+ whole → Leaves whole (typeParameters fuel tokens))
    {applied : Text} {rest : List Token} (within : rest <:+ whole) :
    Leaves whole (
      let parameter : TypeParameter := ⟨applied, tokensRead tokens rest⟩
      match rest with
      | ⟨_, .symbol .comma, _⟩ :: ⟨_, .symbol .closeSquare, _⟩ :: after =>
        some ([parameter], after)
      | ⟨_, .symbol .closeSquare, _⟩ :: after => some ([parameter], after)
      | ⟨_, .symbol .comma, _⟩ :: after => do
        let (later, after) ← typeParameters fuel after
        some (parameter :: later, after)
      | _ => none) := by
  dsimp only
  split
  · exact .some (suffix_behind (suffix_behind within))
  · exact .some (suffix_behind within)
  · exact .bind (others (suffix_behind within)) fun _ _ within => .some within
  · exact .none

theorem leaves_typeParameters (within : tokens <:+ whole) :
    Leaves whole (typeParameters fuel tokens) := by
  induction fuel generalizing tokens with
  | zero => exact .none
  | succ fuel ih =>
    unfold typeParameters
    have closed := @leaves_closedParameter whole tokens fuel ih
    have bounded : ∀ {tokens}, tokens <:+ whole →
        LeavesRest whole ((expression fuel tokens).map (·.2)) :=
      fun within => .map ((phrasesLeave whole fuel).expression within)
    have spread : ∀ {tokens}, tokens <:+ whole →
        LeavesRest whole ((starExpression fuel tokens).map (·.2)) :=
      fun within => .map ((phrasesLeave whole fuel).starExpression within)
    dsimp only
    split
    · have behind := suffix_behind (suffix_behind within)
      split
      case h_1 sign =>
        exact .bindRest (spread (leavesRest_expect behind _ sign)) fun _ within => closed within
      case h_2 => exact closed behind
    · exact .bindRest (leavesRest_typeDefault (suffix_behind (suffix_behind within)))
        fun _ within => closed within
    · have behind := suffix_behind within
      split
      case h_1 sign =>
        refine .bindRest (bounded (leavesRest_expect behind _ sign)) fun _ within => ?_
        exact .bindRest (leavesRest_typeDefault within) fun _ within => closed within
      case h_2 =>
        refine .bindRest (.some behind) fun _ within => ?_
        exact .bindRest (leavesRest_typeDefault within) fun _ within => closed within
    · exact .none

/-- Type parameters in brackets, or none. -/
theorem leaves_typeParameterList (within : tokens <:+ whole) :
    Leaves whole (typeParameterList fuel tokens) := by
  unfold typeParameterList
  split
  case h_1 sign => exact leaves_typeParameters (leavesRest_expect within _ sign)
  case h_2 => exact .some within

/-- An expression statement, an assignment, or a declaration. -/
theorem leaves_valueStatement (within : tokens <:+ whole) :
    Leaves whole (valueStatement fuel tokens) := by
  have phrases := phrasesLeave whole fuel
  unfold valueStatement
  refine .bind (phrases.produced within) fun _ _ within => ?_
  dsimp only
  split
  · split
    · refine .bind (phrases.expression (suffix_behind within)) fun _ _ within => ?_
      dsimp only
      split
      · exact .some within
      case h_2 sign =>
        exact .bind (phrases.produced (leavesRest_expect within _ sign)) fun _ _ within =>
          .some within
    · exact .none
  · split
    · exact .bind (phrases.produced (suffix_behind within)) fun _ _ within => .some within
    · exact .none
  · split
    · exact .bind (leaves_assigned (suffix_behind within)) fun _ _ within => .some within
    · exact .none
  · exact .some within

theorem leaves_smallStatement (within : tokens <:+ whole) :
    Leaves whole (smallStatement fuel tokens) := by
  have phrases := phrasesLeave whole fuel
  unfold smallStatement
  split
  · exact .none
  · exact .some (suffix_behind within)
  · exact .some (suffix_behind within)
  · exact .some (suffix_behind within)
  · split
    case h_1 found => exact .some (phrases.starExpressions (suffix_behind within) _ _ found)
    case h_2 => exact .some (suffix_behind within)
  · split
    · exact .some (suffix_behind within)
    case h_2 found =>
      have behind := phrases.expression (suffix_behind within) _ _ found
      split
      · exact .some behind
      case h_2 word =>
        exact .map (phrases.expression (leavesRest_expect behind _ word)) fun _ => rfl
  · refine .bind (phrases.expression (suffix_behind within)) fun _ _ within => ?_
    dsimp only
    split
    · exact .some within
    case h_2 sign =>
      exact .map (phrases.expression (leavesRest_expect within _ sign)) fun _ => rfl
  · refine .bind (phrases.targets (suffix_behind within)) fun _ _ within => ?_
    dsimp only
    split
    · exact .some within
    · exact .none
  · exact .mapRest (leavesRest_nameList (suffix_behind within))
  · exact .mapRest (leavesRest_nameList (suffix_behind within))
  · exact .map (leaves_importedModules (suffix_behind within)) fun _ => rfl
  · exact leaves_importFrom (suffix_behind within)
  · refine .bind (leaves_typeParameterList (suffix_behind (suffix_behind within)))
      fun _ _ within => ?_
    refine .bindRest (leavesRest_expect within) fun _ within => ?_
    exact .bind (phrases.expression within) fun _ _ within => .some within
  · exact leaves_valueStatement within

/-! ## Headers -/

theorem leavesRest_context (within : tokens <:+ whole) :
    LeavesRest whole (context fuel tokens) := by
  have phrases := phrasesLeave whole fuel
  unfold context
  refine .bind (phrases.expression within) fun _ _ within => ?_
  dsimp only
  split
  case h_1 word => exact .map (phrases.target (leavesRest_expect within _ word))
  case h_2 => exact .some within

theorem leavesRest_contexts (within : tokens <:+ whole) :
    LeavesRest whole (contexts fuel tokens) := by
  induction fuel generalizing tokens with
  | zero => exact .none
  | succ fuel ih =>
    unfold contexts
    refine .bindRest (leavesRest_context within) fun _ within => ?_
    split
    · exact .some within
    case h_2 sign =>
      have behind := leavesRest_expect within _ sign
      split
      · exact .some behind
      · exact ih behind

theorem leavesRest_contextList (within : tokens <:+ whole) :
    LeavesRest whole (contextList fuel tokens) := by
  have bracketed : LeavesRest whole (do
      let rest ← expectSymbol .openRound tokens
      let rest ← contexts fuel rest
      let rest ← expectSymbol .closeRound rest
      expectSymbol .colon rest) := by
    refine .bindRest (leavesRest_expect within) fun _ within => ?_
    refine .bindRest (leavesRest_contexts within) fun _ within => ?_
    exact .bindRest (leavesRest_expect within) fun _ within => leavesRest_expect within
  unfold contextList
  dsimp only
  split
  case h_1 found => exact .some (bracketed _ found)
  case h_2 =>
    exact .bindRest (leavesRest_contexts within) fun _ within => leavesRest_expect within

theorem leaves_functionHeader (within : tokens <:+ whole) :
    Leaves whole (functionHeader fuel tokens) := by
  have phrases := phrasesLeave whole fuel
  unfold functionHeader
  split
  · refine .bind (leaves_typeParameterList (suffix_behind within)) fun _ _ within => ?_
    refine .bindRest (leavesRest_expect within) fun _ within => ?_
    refine .bind (phrases.parameters within) fun _ _ within => ?_
    refine .bindRest (leavesRest_expect within) fun _ within => ?_
    dsimp only
    split
    case h_1 sign =>
      refine .bindRest (.map (phrases.expression (leavesRest_expect within _ sign)))
        fun _ within => ?_
      exact .bindRest (leavesRest_expect within) fun _ within => .some within
    case h_2 =>
      refine .bindRest (.some within) fun _ within => ?_
      exact .bindRest (leavesRest_expect within) fun _ within => .some within
  · exact .none

theorem leaves_classHeader (within : tokens <:+ whole) :
    Leaves whole (classHeader fuel tokens) := by
  have phrases := phrasesLeave whole fuel
  unfold classHeader
  split
  · refine .bind (leaves_typeParameterList (suffix_behind within)) fun _ _ within => ?_
    dsimp only
    split
    · exact .bindRest (leavesRest_expect within) fun _ within => .some within
    case h_2 sign =>
      refine .bind (phrases.arguments (leavesRest_expect within _ sign)) fun _ _ within => ?_
      refine .bindRest (leavesRest_expect within) fun _ within => ?_
      exact .bindRest (leavesRest_expect within) fun _ within => .some within
  · exact .none

theorem leaves_clauseHeader {kind : ClauseKind} {behind : Option (List Token)}
    (leaves : LeavesRest whole behind) : Leaves whole (clauseHeader kind behind) := by
  unfold clauseHeader
  refine .bindRest leaves fun _ within => ?_
  exact .bindRest (leavesRest_expect within) fun _ within => .some within

theorem leavesRest_caught (within : tokens <:+ whole) :
    LeavesRest whole (header.caught fuel tokens) := by
  unfold header.caught
  refine .bind ((phrasesLeave whole fuel).expression within) fun _ _ within => ?_
  dsimp only
  split
  · exact .some (suffix_behind (suffix_behind within))
  · exact .none
  · exact .some within

/-- A header that starts with a reserved word or an at sign. -/
theorem leaves_header (within : tokens <:+ whole) : Leaves whole (header fuel tokens) := by
  have phrases := phrasesLeave whole fuel
  have loop : ∀ {tokens}, tokens <:+ whole → Leaves whole (header.loop fuel tokens) := by
    intro tokens within
    unfold header.loop
    refine .bind (phrases.targets within) fun _ _ within => ?_
    refine .bindRest (leavesRest_expect within) fun _ within => ?_
    exact leaves_clauseHeader (.map (phrases.starExpressions within))
  have managed : ∀ {tokens}, tokens <:+ whole → Leaves whole (header.managed fuel tokens) := by
    intro tokens within
    unfold header.managed
    exact .mapRest (leavesRest_contextList within)
  unfold header
  split
  · exact .bind (phrases.named (suffix_behind within)) fun _ _ within => .some within
  · exact leaves_classHeader (suffix_behind within)
  · exact leaves_functionHeader (suffix_behind within)
  · exact leaves_functionHeader (suffix_behind (suffix_behind within))
  · exact loop (suffix_behind (suffix_behind within))
  · exact managed (suffix_behind (suffix_behind within))
  · exact loop (suffix_behind within)
  · exact managed (suffix_behind within)
  · exact leaves_clauseHeader (.map (phrases.named (suffix_behind within)))
  · exact leaves_clauseHeader (.map (phrases.named (suffix_behind within)))
  · exact leaves_clauseHeader (.some (suffix_behind within))
  · exact leaves_clauseHeader (.map (phrases.named (suffix_behind within)))
  · exact leaves_clauseHeader (.some (suffix_behind within))
  · exact leaves_clauseHeader (.some (suffix_behind within))
  · exact leaves_clauseHeader (leavesRest_caught (suffix_behind (suffix_behind within)))
  · exact .some (suffix_behind (suffix_behind within))
  · exact leaves_clauseHeader (leavesRest_caught (suffix_behind within))
  · exact .none

theorem leaves_caseHeader (within : tokens <:+ whole) : Leaves whole (caseHeader fuel tokens) := by
  unfold caseHeader
  split
  · refine .bindRest ((patternsLeave whole fuel).patterns (suffix_behind within))
      fun _ within => ?_
    dsimp only
    split
    case h_1 word =>
      refine .bindRest (.map ((phrasesLeave whole fuel).named (leavesRest_expect within _ word)))
        fun _ within => ?_
      exact leaves_clauseHeader (.some within)
    case h_2 => exact leaves_clauseHeader (.some within)
  · exact .none

end Statements

/-! ## Lines -/

/-- A small statement that was read from the end of some tokens. -/
def Item.ReadFrom (whole : List Token) (item : Item) : Prop :=
  ∃ fuel tokens rest, tokens <:+ whole ∧ smallStatement fuel tokens = some (item.form, rest)

theorem readFrom_of_smallStatements {whole tokens : List Token} {fuel : Nat} {items : List Item}
    (within : tokens <:+ whole) (read : smallStatements fuel tokens = some items) :
    ∀ item ∈ items, item.ReadFrom whole := by
  induction fuel generalizing tokens items with
  | zero => cases read
  | succ fuel ih =>
    unfold smallStatements at read
    rcases Option.bind_eq_some_iff.1 read with ⟨⟨form, rest⟩, first, read⟩
    have behind := leaves_smallStatement within _ _ first
    dsimp only at read
    split at read
    · cases read
      exact List.forall_mem_singleton.2 ⟨fuel, tokens, _, within, first⟩
    · split at read
      · split at read
        · cases read
          exact List.forall_mem_singleton.2 ⟨fuel, tokens, _, within, first⟩
        · rcases Option.bind_eq_some_iff.1 read with ⟨others, more, same⟩
          cases same
          exact List.forall_mem_cons.2
            ⟨⟨fuel, tokens, _, within, first⟩, ih (suffix_behind behind) more⟩
      · cases read

/-- The small statements of a line, which stand behind its header if it has one. -/
def ReadLine.smallStatements : ReadLine → List Item
  | .items found => found
  | .header _ _ found => found

/-- **The small statements of a line** are read from the end of its tokens. -/
theorem readFrom_of_readLine {amongCases : Bool} {tokens : List Token} {read : ReadLine}
    (readable : readLine amongCases tokens = some read) :
    ∀ item ∈ read.smallStatements, item.ReadFrom tokens := by
  have behind : ∀ {fuel result}, Leaves tokens result →
      withItems fuel tokens result = some read →
      ∀ item ∈ read.smallStatements, item.ReadFrom tokens := by
    intro fuel result leaves made
    unfold withItems at made
    split at made
    · cases made
    case h_2 head rest =>
      split at made
      · cases made
        simp [ReadLine.smallStatements]
      · cases made
      · rcases Option.bind_eq_some_iff.1 made with ⟨items, more, same⟩
        cases same
        exact readFrom_of_smallStatements (leaves _ _ rfl) more
  have whole := List.suffix_refl tokens
  unfold readLine at readable
  dsimp only at readable
  split at readable
  · exact behind (leaves_caseHeader whole) readable
  · split at readable
    · exact behind (leaves_header whole) readable
    · split at readable
      · cases readable
        simp [ReadLine.smallStatements]
      · rcases Option.bind_eq_some_iff.1 readable with ⟨items, more, same⟩
        cases same
        exact readFrom_of_smallStatements whole more

end Source
end OpenRecord
