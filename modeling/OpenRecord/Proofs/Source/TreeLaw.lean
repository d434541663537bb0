import OpenRecord.Proofs.Source.OpeningWords
import OpenRecord.Proofs.Source.Reading
import OpenRecord.Proofs.Source.Spelling

namespace OpenRecord
namespace Source

/-!
# Laws of trees that were read

A law says what may be the part of a definition in front of its body, what may be a decorator, and
what may be a run of small statements.  If it allows everything that can be read from a line whose
names are identifiers, then every file that can be read obeys it throughout, at all depths: nesting
lines, reading them and grouping the parts only puts together what single lines were read as.

That the names of definitions are identifiers is such a law.
-/

structure TreeLaw where
  role : Role → Prop
  decorator : Expression → Prop
  items : List Item → Prop

section Obedience

variable (law : TreeLaw)

mutual

/-- A statement with nothing in it that the law forbids. -/
def Statement.Obeys : Statement → Prop
  | .simple _ items _ => law.items items
  | .definition head body =>
    law.role head.role ∧ (∀ decorator ∈ head.decorators, law.decorator decorator.expression) ∧
      body.Obeys
  | .compound clauses => ClausesObey clauses

/-- The same of what stands behind a colon. -/
def Suite.Obeys : Suite → Prop
  | .inline items _ => law.items items
  | .block _ _ body _ => StatementsObey body
  | .cases _ _ clauses _ => ClausesObey clauses

def Clause.Obeys : Clause → Prop
  | .clause _ _ _ suite => suite.Obeys

def StatementsObey : List Statement → Prop
  | [] => True
  | first :: later => first.Obeys ∧ StatementsObey later

def ClausesObey : List Clause → Prop
  | [] => True
  | first :: later => first.Obeys ∧ ClausesObey later

end

/-- A part of which the law forbids nothing.  A definition is not below its decorators yet. -/
def Part.Obeys : Part → Prop
  | .statement found => found.Obeys law
  | .decorator next => law.decorator next.expression
  | .definition head body => law.role head.role ∧ head.decorators = [] ∧ body.Obeys law
  | .clause found => found.Obeys law

def ReadLine.Obeys : ReadLine → Prop
  | .items found => law.items found
  | .header (.definition role) _ found => law.role role ∧ law.items found
  | .header (.decorator value) _ found => law.decorator value ∧ law.items found
  | .header (.clause _) _ found => law.items found

def LogicalLine.Obeys (line : LogicalLine) : Prop :=
  ∀ amongCases read, readLine amongCases line.tokens = some read → read.Obeys law

mutual

def Outline.Obeys : Outline → Prop
  | .node line children _ => line.Obeys law ∧ OutlinesObey children

def OutlinesObey : List Outline → Prop
  | [] => True
  | first :: later => first.Obeys ∧ OutlinesObey later

end

end Obedience

variable {law : TreeLaw}

/-! ## Lists -/

theorem statementsObey_iff {statements : List Statement} :
    StatementsObey law statements ↔ ∀ statement ∈ statements, statement.Obeys law := by
  induction statements with
  | nil => simp [StatementsObey]
  | cons first later ih => rw [StatementsObey, ih, List.forall_mem_cons]

theorem clausesObey_iff {clauses : List Clause} :
    ClausesObey law clauses ↔ ∀ clause ∈ clauses, clause.Obeys law := by
  induction clauses with
  | nil => simp [ClausesObey]
  | cons first later ih => rw [ClausesObey, ih, List.forall_mem_cons]

theorem outlinesObey_iff {outlines : List Outline} :
    OutlinesObey law outlines ↔ ∀ outline ∈ outlines, outline.Obeys law := by
  induction outlines with
  | nil => simp [OutlinesObey]
  | cons first later ih => rw [OutlinesObey, ih, List.forall_mem_cons]

/-! ## Nesting -/

theorem Outline.obeys_withAbove {outline : Outline} (above : List BlankLine) :
    (outline.withAbove above).Obeys law ↔ outline.Obeys law := by
  cases outline
  rfl

theorem Forest.obeys_place {line : LogicalLine} {below : Forest} (lawful : line.Obeys law)
    (rest : OutlinesObey law below.roots) : OutlinesObey law (Forest.place line below).roots := by
  rw [outlinesObey_iff] at rest
  rcases Forest.roots_place line below with ⟨foot, others, placed, -, behind⟩
  have children : OutlinesObey law (below.roots.takeWhile (line.depth < ·.line.depth)) :=
    outlinesObey_iff.2 fun outline member => rest outline ((List.takeWhile_prefix _).subset member)
  have dropped : ∀ outline ∈ below.roots.dropWhile (line.depth < ·.line.depth),
      outline.Obeys law := fun outline member => rest outline ((List.dropWhile_suffix _).subset member)
  rw [placed, OutlinesObey]
  refine ⟨⟨lawful, children⟩, outlinesObey_iff.2 ?_⟩
  rcases behind with rfl | ⟨next, later, above, split, rfl⟩
  · exact dropped
  · rw [split, List.forall_mem_cons] at dropped
    rw [List.forall_mem_cons, Outline.obeys_withAbove]
    exact dropped

theorem Forest.obeys_ofLines {lines : List LogicalLine} (after : List BlankLine)
    (lawful : ∀ line ∈ lines, line.Obeys law) :
    OutlinesObey law (Forest.ofLines lines after).roots := by
  induction lines with
  | nil => exact trivial
  | cons first later ih =>
    rw [List.forall_mem_cons] at lawful
    exact Forest.obeys_place lawful.1 (ih lawful.2)

/-! ## Grouping -/

theorem obeys_closeClauses {clauses : List Clause} {statements : List Statement}
    (lawful : ClausesObey law clauses) (closed : closeClauses clauses = some statements) :
    ∀ statement ∈ statements, statement.Obeys law := by
  unfold closeClauses at closed
  split at closed
  · cases closed
    simp
  · split at closed
    · cases closed
    · cases closed
      simpa [Statement.Obeys] using lawful
  · cases closed
    simpa [Statement.Obeys] using lawful

theorem obeys_assemble {decorators : List Decorator} {clauses : List Clause} {parts : List Part}
    {statements : List Statement}
    (above : ∀ decorator ∈ decorators, law.decorator decorator.expression)
    (collected : ClausesObey law clauses) (lawful : ∀ part ∈ parts, part.Obeys law)
    (assembled : assemble decorators clauses parts = some statements) :
    ∀ statement ∈ statements, statement.Obeys law := by
  induction parts generalizing decorators clauses statements with
  | nil =>
    rw [assemble] at assembled
    split at assembled
    · exact obeys_closeClauses collected assembled
    · cases assembled
  | cons first later ih =>
    rw [List.forall_mem_cons] at lawful
    have none_yet : ClausesObey law [] := trivial
    have none_above : ∀ decorator ∈ ([] : List Decorator), law.decorator decorator.expression :=
      List.forall_mem_nil _
    cases first with
    | decorator next =>
      rw [assemble] at assembled
      rcases Option.bind_eq_some_iff.1 assembled with ⟨closed, before, assembled⟩
      rcases Option.bind_eq_some_iff.1 assembled with ⟨others, behind, same⟩
      cases same
      have more : ∀ decorator ∈ decorators ++ [next], law.decorator decorator.expression :=
        List.forall_mem_append.2 ⟨above, List.forall_mem_singleton.2 lawful.1⟩
      exact List.forall_mem_append.2
        ⟨obeys_closeClauses collected before, ih more none_yet lawful.2 behind⟩
    | definition head body =>
      rw [assemble] at assembled
      rcases Option.bind_eq_some_iff.1 assembled with ⟨closed, before, assembled⟩
      rcases Option.bind_eq_some_iff.1 assembled with ⟨others, behind, same⟩
      cases same
      rcases lawful.1 with ⟨role, plain, inner⟩
      have own : (Statement.definition (head.decorated decorators) body).Obeys law := by
        cases decorators with
        | nil => exact ⟨role, by simp [Definition.decorated, plain], inner⟩
        | cons first others =>
          exact ⟨role, List.forall_mem_cons.2 (List.forall_mem_cons.1 above), inner⟩
      exact List.forall_mem_append.2 ⟨obeys_closeClauses collected before,
        List.forall_mem_cons.2 ⟨own, ih none_above none_yet lawful.2 behind⟩⟩
    | statement next =>
      rw [assemble] at assembled
      split at assembled
      · rcases Option.bind_eq_some_iff.1 assembled with ⟨closed, before, assembled⟩
        rcases Option.bind_eq_some_iff.1 assembled with ⟨others, behind, same⟩
        cases same
        exact List.forall_mem_append.2 ⟨obeys_closeClauses collected before,
          List.forall_mem_cons.2 ⟨lawful.1, ih none_above none_yet lawful.2 behind⟩⟩
      · cases assembled
    | clause next =>
      rw [assemble] at assembled
      split at assembled
      · cases assembled
      · split at assembled
        · refine ih none_above (clausesObey_iff.2 ?_) lawful.2 assembled
          rw [List.forall_mem_append, List.forall_mem_singleton]
          exact ⟨clausesObey_iff.1 collected, lawful.1⟩
        · split at assembled
          · rcases Option.bind_eq_some_iff.1 assembled with ⟨closed, before, assembled⟩
            rcases Option.bind_eq_some_iff.1 assembled with ⟨others, behind, same⟩
            cases same
            have alone : ClausesObey law [next] := ⟨lawful.1, trivial⟩
            exact List.forall_mem_append.2
              ⟨obeys_closeClauses collected before, ih none_above alone lawful.2 behind⟩
          · cases assembled

theorem obeys_casesOnly {parts : List Part} {clauses : List Clause}
    (lawful : ∀ part ∈ parts, part.Obeys law) (only : casesOnly parts = some clauses) :
    ClausesObey law clauses := by
  induction parts generalizing clauses with
  | nil =>
    cases only
    exact trivial
  | cons first later ih =>
    rw [List.forall_mem_cons] at lawful
    cases first with
    | clause next =>
      rw [casesOnly] at only
      rcases Option.map_eq_some_iff.1 only with ⟨others, rest, rfl⟩
      exact ⟨lawful.1, ih lawful.2 rest⟩
    | statement _ => cases only
    | decorator _ => cases only
    | definition _ _ => cases only

/-! ## Reading -/

theorem obeys_part {line : LogicalLine} {tokens : List Token} {suite : Suite} {head : Head}
    {items : List Item} {part : Part} (made : head.part line tokens suite = some part)
    (allowed : (ReadLine.header head tokens items).Obeys law) (lawful : suite.Obeys law) :
    part.Obeys law := by
  cases head with
  | decorator value => cases made
  | definition role =>
    cases made
    exact ⟨allowed.1, rfl, lawful⟩
  | clause kind =>
    cases made
    exact lawful

theorem ReadLine.Obeys.items {head : Head} {tokens : List Token} {items : List Item}
    (allowed : (ReadLine.header head tokens items).Obeys law) : law.items items := by
  cases head with
  | decorator value => exact allowed.2
  | definition role => exact allowed.2
  | clause kind => exact allowed

mutual

theorem Outline.obeys_read {amongCases : Bool} : ∀ (outline : Outline) {part : Part},
    outline.Obeys law → outline.read amongCases = some part → part.Obeys law
  | .node line children foot, part, lawful, read => by
    rw [Outline.read] at read
    rcases Option.bind_eq_some_iff.1 read with ⟨header, readable, made⟩
    have allowed := lawful.1 amongCases header readable
    split at made
    · split at made
      · cases made
      · cases made
        exact allowed
    · split at made
      · cases made
      · cases made
        exact allowed.1
    · split at made
      · cases made
      · exact obeys_part made allowed allowed.items
    · split at made
      · cases made
      · rcases Option.bind_eq_some_iff.1 made with ⟨parts, inner, made⟩
        rcases Option.bind_eq_some_iff.1 made with ⟨clauses, only, made⟩
        exact obeys_part made allowed
          (obeys_casesOnly (obeys_readOutlines children lawful.2 inner) only)
    · split at made
      · cases made
      · rcases Option.bind_eq_some_iff.1 made with ⟨parts, inner, made⟩
        rcases Option.bind_eq_some_iff.1 made with ⟨body, assembled, made⟩
        have none_yet : ClausesObey law [] := trivial
        refine obeys_part made allowed (statementsObey_iff.2 ?_)
        exact obeys_assemble (by simp) none_yet (obeys_readOutlines children lawful.2 inner)
          assembled

theorem obeys_readOutlines {amongCases : Bool} : ∀ (outlines : List Outline) {parts : List Part},
    OutlinesObey law outlines → readOutlines amongCases outlines = some parts →
      ∀ part ∈ parts, part.Obeys law
  | [], parts, _, read => by
    cases read
    simp
  | first :: later, parts, lawful, read => by
    rw [readOutlines] at read
    rcases Option.bind_eq_some_iff.1 read with ⟨part, front, read⟩
    rcases Option.bind_eq_some_iff.1 read with ⟨others, back, same⟩
    cases same
    rw [List.forall_mem_cons]
    exact ⟨first.obeys_read lawful.1 front, obeys_readOutlines later lawful.2 back⟩

end

/-! ## Whole files -/

theorem obeys_readStatements {lines : List LogicalLine} {after : List BlankLine}
    {header footer : List Line} {statements : List Statement}
    (lawful : ∀ line ∈ lines, line.Obeys law)
    (read : readStatements lines after = some (header, statements, footer)) :
    StatementsObey law statements := by
  have roots := Forest.obeys_ofLines after lawful
  unfold readStatements at read
  generalize Forest.ofLines lines after = forest at roots read
  rcases forest with ⟨_ | ⟨first, later⟩, behind⟩
  · cases read
    exact trivial
  · dsimp only at read
    split at read
    · cases read
    · rcases Option.bind_eq_some_iff.1 read with ⟨parts, found, read⟩
      rcases Option.bind_eq_some_iff.1 read with ⟨body, assembled, same⟩
      cases same
      have none_yet : ClausesObey law [] := trivial
      have allowed : OutlinesObey law (first.withAbove [] :: later) :=
        ⟨(Outline.obeys_withAbove []).2 roots.1, roots.2⟩
      exact statementsObey_iff.2
        (obeys_assemble (by simp) none_yet (obeys_readOutlines _ allowed found) assembled)

/-- A law allows all that can be read from a line if the names in the line are identifiers. -/
def TreeLaw.AllowsLines (law : TreeLaw) : Prop :=
  ∀ tokens : List Token, (∀ token ∈ tokens, token.Spelled) →
    ∀ amongCases read, readLine amongCases tokens = some read → read.Obeys law

theorem obeys_of_parse? {text : Text} {file : SourceFile} (allows : law.AllowsLines)
    (parsed : SourceFile.parse? text = some file) : StatementsObey law file.body := by
  unfold SourceFile.parse? at parsed
  rcases Option.bind_eq_some_iff.1 parsed with ⟨⟨lines, after⟩, scanned, parsed⟩
  rcases Option.bind_eq_some_iff.1 parsed with ⟨⟨header, body, footer⟩, read, same⟩
  cases same
  exact obeys_readStatements
    (fun line member => allows line.tokens (logicalLines_spelled scanned line member)) read

/-! ## Headers -/

/-- What is known of the tokens of a header: a decorator starts with an at sign, and a definition has
its name among them. -/
inductive HeadsLine (tokens : List Token) : Head → Prop
  | decorator {value : Expression} {sign : Token} {later : List Token} :
    tokens = sign :: later → sign.kind = .symbol .at → HeadsLine tokens (.decorator value)
  | definition {role : Role} {gap : List Piece} :
    ⟨gap, .name, role.name⟩ ∈ tokens → HeadsLine tokens (.definition role)
  | clause {kind : ClauseKind} : HeadsLine tokens (.clause kind)

theorem clauseHeader_eq_some {kind : ClauseKind} {behind : Option (List Token)} {head : Head}
    {rest : List Token} (result : clauseHeader kind behind = some (head, rest)) :
    head = .clause kind := by
  unfold clauseHeader at result
  rcases Option.bind_eq_some_iff.1 result with ⟨tokens, -, result⟩
  rcases Option.bind_eq_some_iff.1 result with ⟨others, -, result⟩
  cases result
  rfl

/-- What a header that starts with a reserved word or an at sign can be. -/
theorem headsLine_of_header {fuel : Nat} {tokens rest : List Token} {head : Head}
    (result : header fuel tokens = some (head, rest)) : HeadsLine tokens head := by
  have clauses : ∀ {kind behind}, clauseHeader kind behind = some (head, rest) →
      HeadsLine tokens head := by
    intro kind behind result
    cases clauseHeader_eq_some result
    exact .clause
  have loops : ∀ {behind}, header.loop fuel behind = some (head, rest) →
      HeadsLine tokens head := by
    intro behind result
    unfold header.loop at result
    rcases Option.bind_eq_some_iff.1 result with ⟨_, -, result⟩
    rcases Option.bind_eq_some_iff.1 result with ⟨_, -, result⟩
    exact clauses result
  have contexts : ∀ {behind}, header.managed fuel behind = some (head, rest) →
      HeadsLine tokens head := by
    intro behind result
    rcases Option.map_eq_some_iff.1 result with ⟨_, -, same⟩
    cases same
    exact .clause
  have functions : ∀ {front later}, tokens = front ++ later →
      functionHeader fuel later = some (head, rest) → HeadsLine tokens head := by
    intro front later split result
    rcases functionHeader_eq_some result with ⟨function, gap, others, rfl, rfl⟩
    have member : ⟨gap, .name, function.name⟩ ∈ tokens := by simp [split]
    exact .definition member
  unfold header at result
  split at result
  case h_1 =>
    rcases Option.bind_eq_some_iff.1 result with ⟨_, -, same⟩
    cases same
    exact .decorator rfl rfl
  case h_2 gap text later =>
    rcases classHeader_eq_some result with ⟨shape, gap', others, rfl, rfl⟩
    exact .definition (List.mem_cons_of_mem _ (List.mem_cons_self ..))
  case h_3 gap text later => exact functions (List.singleton_append ..).symm result
  case h_4 gap text gap' text' later =>
    exact functions (show _ = [⟨gap, .keyword .asyncWord, text⟩,
      ⟨gap', .keyword .defWord, text'⟩] ++ later from rfl) result
  all_goals first
    | exact clauses result
    | exact loops result
    | exact contexts result
    | (cases result; exact .clause)
    | cases result

theorem caseHeader_eq_some {fuel : Nat} {tokens rest : List Token} {head : Head}
    (result : caseHeader fuel tokens = some (head, rest)) : ∃ kind, head = .clause kind := by
  unfold caseHeader at result
  split at result
  · rcases Option.bind_eq_some_iff.1 result with ⟨_, -, result⟩
    dsimp only at result
    split at result
    · rcases Option.bind_eq_some_iff.1 result with ⟨_, -, result⟩
      exact ⟨_, clauseHeader_eq_some result⟩
    · rcases Option.bind_eq_some_iff.1 result with ⟨_, -, result⟩
      exact ⟨_, clauseHeader_eq_some result⟩
  · cases result

theorem matchHeader_eq_some {fuel : Nat} {tokens : List Token} {head : Head}
    (result : matchHeader fuel tokens = some head) : ∃ kind, head = .clause kind := by
  unfold matchHeader at result
  split at result
  · rcases Option.bind_eq_some_iff.1 result with ⟨_, -, result⟩
    dsimp only at result
    have finished : ∀ {after}, (do
        let after ← expectSymbol .colon after
        if after = [] then some (Head.clause .matchClause) else none) = some head →
          ∃ kind, head = .clause kind := by
      intro after finish
      rcases Option.bind_eq_some_iff.1 finish with ⟨_, -, finish⟩
      split at finish <;> cases finish
      exact ⟨_, rfl⟩
    split at result
    · rcases Option.bind_eq_some_iff.1 result with ⟨_, -, result⟩
      exact finished result
    · cases result
    · exact finished result
  · cases result

theorem headsLine_of_readLine {amongCases : Bool} {tokens front : List Token} {head : Head}
    {items : List Item} (readable : readLine amongCases tokens = some (.header head front items)) :
    HeadsLine tokens head := by
  have kept : ∀ {fuel result}, withItems fuel tokens result = some (.header head front items) →
      ∃ rest, result = some (head, rest) := by
    intro fuel result read
    cases result with
    | none => cases read
    | some pair =>
      rcases pair with ⟨found, rest⟩
      rcases withItems_eq_some read with ⟨front', items', same⟩
      cases same
      exact ⟨rest, rfl⟩
  unfold readLine at readable
  dsimp only at readable
  split at readable
  · rcases kept readable with ⟨rest, result⟩
    rcases caseHeader_eq_some result with ⟨kind, rfl⟩
    exact .clause
  · split at readable
    · rcases kept readable with ⟨rest, result⟩
      exact headsLine_of_header result
    · split at readable
      case h_1 found result =>
        cases readable
        rcases matchHeader_eq_some result with ⟨kind, rfl⟩
        exact .clause
      case h_2 =>
        rcases Option.bind_eq_some_iff.1 readable with ⟨_, -, same⟩
        cases same

/-! ## Names of definitions -/

/-- Definitions have identifiers as their names. -/
def identifierLaw : TreeLaw :=
  ⟨fun role => Text.isIdentifier role.name = true, fun _ => True, fun _ => True⟩

/-- Lines whose names are identifiers are read as definitions of identifiers. -/
theorem identifierLaw_allowsLines : identifierLaw.AllowsLines := by
  intro tokens spelled amongCases read readable
  cases read with
  | items found => exact trivial
  | header head front found =>
    cases head with
    | decorator value => exact ⟨trivial, trivial⟩
    | clause kind => exact trivial
    | definition role =>
      cases headsLine_of_readLine readable with
      | definition member => exact ⟨(spelled _ member rfl).1, trivial⟩

/-- All definitions of a file that was read have identifiers as their names. -/
theorem identifiers_of_parse? {text : Text} {file : SourceFile}
    (parsed : SourceFile.parse? text = some file) : StatementsObey identifierLaw file.body :=
  obeys_of_parse? identifierLaw_allowsLines parsed

end Source
end OpenRecord
