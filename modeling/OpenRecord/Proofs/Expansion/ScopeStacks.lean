import Mathlib.Data.List.Basic
import Mathlib.Data.List.Induction
import OpenRecord.Proofs.Expansion.Settlement

namespace OpenRecord

/-!
# The names around a class in a function

What the walk knows about a place can be kept in three stacks: the definitions that are open, the
names bound in each open function header and block, and for each open function how many entries its
surroundings take up.  A visit pushes onto them where a definition or a block is entered and pops
where it is left.  `Tracks` says that such a walk leaves the stacks as they were and does otherwise
what the walk without stacks does.

The place itself is spelled out as a *path*: the definitions and blocks around it from the top of
the file.  The names that a class in a function is checked against depend on the innermost function
of its path and the blocks behind it, and on nothing else.
-/

open Source

/-! ## Stacks -/

/-- The stacks of a walk.  The names of open blocks and function headers stand in the order in which
they were entered, the other two stacks from the innermost entry. -/
structure ScopeStacks where
  scopes : List Scope
  suites : List (List Text)
  /-- For each open function, the number of entries in front of its own. -/
  marks : List Nat

namespace ScopeStacks

def empty : ScopeStacks :=
  ⟨[], [], []⟩

def enterBlock (stack : ScopeStacks) (body : List Statement) : ScopeStacks :=
  { stack with suites := stack.suites ++ [boundNames body] }

def leaveBlock (stack : ScopeStacks) : ScopeStacks :=
  { stack with suites := stack.suites.dropLast }

def enter (stack : ScopeStacks) : Role → ScopeStacks
  | .classDefinition _ => { stack with scopes := .classScope :: stack.scopes }
  | .functionDefinition function =>
    ⟨.functionScope :: stack.scopes, stack.suites ++ [function.parameters],
      stack.suites.length :: stack.marks⟩

/-- Leave a definition.  Whatever a function has left on the stack of names goes with it. -/
def leave (stack : ScopeStacks) : Role → ScopeStacks
  | .classDefinition _ => { stack with scopes := stack.scopes.tail }
  | .functionDefinition _ =>
    ⟨stack.scopes.tail, stack.suites.take (stack.marks.headD 0), stack.marks.tail⟩

/-- The names from the mark of the innermost function on. -/
def localNames (stack : ScopeStacks) : List Text :=
  (stack.suites.drop (stack.marks.headD 0)).flatten

/-- What the stacks say about a place in a file of which the top is known. -/
def surroundings (stack : ScopeStacks) (top : Surroundings) : Surroundings :=
  { top with scopes := stack.scopes, localNames := stack.localNames }

/-- The mark of the innermost function lies within the stack of names. -/
def Marked (stack : ScopeStacks) : Prop :=
  stack.marks.headD 0 ≤ stack.suites.length

theorem empty_marked : empty.Marked :=
  Nat.le_refl 0

theorem Marked.enterBlock {stack : ScopeStacks} (marked : stack.Marked) (body : List Statement) :
    (stack.enterBlock body).Marked := by
  unfold Marked ScopeStacks.enterBlock at *
  simp only [List.length_append]
  omega

theorem Marked.enter {stack : ScopeStacks} (marked : stack.Marked) (role : Role) :
    (stack.enter role).Marked := by
  cases role with
  | classDefinition head => exact marked
  | functionDefinition function => simp [Marked, ScopeStacks.enter]

@[simp] theorem leaveBlock_enterBlock (stack : ScopeStacks) (body : List Statement) :
    (stack.enterBlock body).leaveBlock = stack := by
  simp [enterBlock, leaveBlock]

@[simp] theorem leave_enter (stack : ScopeStacks) (role : Role) :
    (stack.enter role).leave role = stack := by
  cases role <;> simp [enter, leave]

/-- The stacks know the place in a block that is entered. -/
theorem surroundings_enterBlock {stack : ScopeStacks} (marked : stack.Marked)
    (top : Surroundings) (body : List Statement) :
    (stack.enterBlock body).surroundings top = (stack.surroundings top).enterBlock body := by
  have behind : (stack.suites ++ [boundNames body]).drop (stack.marks.headD 0) =
      stack.suites.drop (stack.marks.headD 0) ++ [boundNames body] :=
    List.drop_append_of_le_length marked
  simp only [surroundings, localNames, enterBlock, Surroundings.enterBlock, behind,
    List.flatten_append, List.flatten_singleton]

/-- The stacks know the place in a definition that is entered. -/
theorem surroundings_enter (stack : ScopeStacks) (top : Surroundings) (role : Role) :
    (stack.enter role).surroundings top = (stack.surroundings top).enter role := by
  cases role <;>
    simp [surroundings, localNames, enter, Surroundings.enter, Surroundings.enterClass,
      Surroundings.enterFunction]

end ScopeStacks

/-! ## The walk with stacks -/

mutual

def Source.Statement.track (top : Surroundings) (stack : ScopeStacks) :
    Statement → ScopeStacks × Visit (List Statement)
  | .simple above items ending => (stack, ⟨[], some [.simple above items ending]⟩)
  | .definition head body =>
    let (inside, visit) := body.track top (stack.enter head.role)
    let outside := inside.leave head.role
    (outside, leaveDefinition (outside.surroundings top) head body visit)
  | .compound clauses =>
    let (after, visit) := trackClauses top stack clauses
    (after, visit.map fun clauses => [.compound clauses])

/-- Walk over what stands behind a colon with stacks. -/
def Source.Suite.track (top : Surroundings) (stack : ScopeStacks) :
    Suite → ScopeStacks × Visit Suite
  | .inline items ending => (stack, ⟨[], some (.inline items ending)⟩)
  | .block opening indent body foot =>
    let (inside, visit) := trackStatements top (stack.enterBlock body) body
    (inside.leaveBlock, visit.map fun body => .block opening indent body foot)
  | .cases opening indent clauses foot =>
    let (after, visit) := trackClauses top stack clauses
    (after, visit.map fun clauses => .cases opening indent clauses foot)

def Source.Clause.track (top : Surroundings) (stack : ScopeStacks) :
    Clause → ScopeStacks × Visit Clause
  | .clause kind above tokens suite =>
    let (after, visit) := suite.track top stack
    (after, visit.map fun suite => .clause kind above tokens suite)

/-- Walk over consecutive statements with stacks. -/
def trackStatements (top : Surroundings) (stack : ScopeStacks) :
    List Statement → ScopeStacks × Visit (List Statement)
  | [] => (stack, ⟨[], some []⟩)
  | first :: later =>
    let (between, front) := first.track top stack
    let (after, back) := trackStatements top between later
    (after, front.andThen (· ++ ·) back)

/-- Walk over consecutive clauses with stacks. -/
def trackClauses (top : Surroundings) (stack : ScopeStacks) :
    List Clause → ScopeStacks × Visit (List Clause)
  | [] => (stack, ⟨[], some []⟩)
  | first :: later =>
    let (between, front) := first.track top stack
    let (after, back) := trackClauses top between later
    (after, front.andThen (· :: ·) back)

end

section Tracking

variable {top : Surroundings}

mutual

theorem Source.Statement.track_eq {stack : ScopeStacks} (marked : stack.Marked) :
    ∀ statement : Statement,
      statement.track top stack = (stack, statement.walk (stack.surroundings top))
  | .simple _ _ _ => rfl
  | .definition head body => by
    rw [Statement.track, body.track_eq (marked.enter head.role), Statement.walk]
    simp only [ScopeStacks.leave_enter, ScopeStacks.surroundings_enter]
  | .compound clauses => by
    rw [Statement.track, trackClauses_eq marked clauses, Statement.walk]

theorem Source.Suite.track_eq {stack : ScopeStacks} (marked : stack.Marked) :
    ∀ suite : Suite,
      suite.track top stack = (stack, suite.walk (stack.surroundings top))
  | .inline _ _ => rfl
  | .block opening indent body foot => by
    rw [Suite.track, trackStatements_eq (marked.enterBlock body) body, Suite.walk]
    simp only [ScopeStacks.leaveBlock_enterBlock, ScopeStacks.surroundings_enterBlock marked]
  | .cases opening indent clauses foot => by
    rw [Suite.track, trackClauses_eq marked clauses, Suite.walk]

theorem Source.Clause.track_eq {stack : ScopeStacks} (marked : stack.Marked) :
    ∀ clause : Clause,
      clause.track top stack = (stack, clause.walk (stack.surroundings top))
  | .clause kind above tokens suite => by
    rw [Clause.track, suite.track_eq marked, Clause.walk]

theorem trackStatements_eq {stack : ScopeStacks} (marked : stack.Marked) :
    ∀ statements : List Statement,
      trackStatements top stack statements =
        (stack, walkStatements (stack.surroundings top) statements)
  | [] => rfl
  | first :: later => by
    rw [trackStatements, first.track_eq marked]
    dsimp only
    rw [trackStatements_eq marked later, walkStatements]

theorem trackClauses_eq {stack : ScopeStacks} (marked : stack.Marked) :
    ∀ clauses : List Clause,
      trackClauses top stack clauses = (stack, walkClauses (stack.surroundings top) clauses)
  | [] => rfl
  | first :: later => by
    rw [trackClauses, first.track_eq marked]
    dsimp only
    rw [trackClauses_eq marked later, walkClauses]

end

end Tracking

/-- What the stacks of a walk owe to everything below a place: a walk over any part of a tree leaves
them as they were, and otherwise does what the walk without stacks does. -/
structure ScopeStacks.Tracks (stack : ScopeStacks) (top : Surroundings) : Prop where
  statement : ∀ statement : Statement,
    statement.track top stack = (stack, statement.walk (stack.surroundings top))
  suite : ∀ suite : Suite, suite.track top stack = (stack, suite.walk (stack.surroundings top))
  clause : ∀ clause : Clause,
    clause.track top stack = (stack, clause.walk (stack.surroundings top))
  statements : ∀ statements : List Statement, trackStatements top stack statements =
    (stack, walkStatements (stack.surroundings top) statements)
  clauses : ∀ clauses : List Clause,
    trackClauses top stack clauses = (stack, walkClauses (stack.surroundings top) clauses)

/-- Stacks track a walk if the mark of the innermost function lies within them. -/
theorem ScopeStacks.Marked.tracks {stack : ScopeStacks} (marked : stack.Marked)
    (top : Surroundings) : stack.Tracks top :=
  ⟨Statement.track_eq marked, Suite.track_eq marked, Clause.track_eq marked,
    trackStatements_eq marked, trackClauses_eq marked⟩

/-! ## Paths -/

/-- A definition or an indented block around a place. -/
inductive Frame
  | definition (role : Role)
  | block (body : List Statement)

section Paths

variable (head : Source.Definition) (body : Suite)

mutual

/-- A definition stands in a statement behind the frames of a path, the outermost one first. -/
inductive Source.Statement.Holds : Statement → List Frame → Prop
  | itself : Source.Statement.Holds (.definition head body) []
  | inside {outer : Source.Definition} {suite : Suite} {path : List Frame} :
    Source.Suite.Holds suite path →
    Source.Statement.Holds (.definition outer suite) (.definition outer.role :: path)
  | compound {clauses : List Clause} {clause : Clause} {path : List Frame} :
    clause ∈ clauses → Source.Clause.Holds clause path →
    Source.Statement.Holds (.compound clauses) path

/-- A definition stands behind a colon, behind the frames of a path. -/
inductive Source.Suite.Holds : Suite → List Frame → Prop
  | block {opening : LineEnd} {indent : Text} {statements : List Statement} {foot : List Line}
      {statement : Statement} {path : List Frame} :
    statement ∈ statements → Source.Statement.Holds statement path →
    Source.Suite.Holds (.block opening indent statements foot) (.block statements :: path)
  | cases {opening : LineEnd} {indent : Text} {clauses : List Clause} {foot : List Line}
      {clause : Clause} {path : List Frame} :
    clause ∈ clauses → Source.Clause.Holds clause path →
    Source.Suite.Holds (.cases opening indent clauses foot) path

/-- A definition stands in a clause behind the frames of a path. -/
inductive Source.Clause.Holds : Clause → List Frame → Prop
  | clause {kind : ClauseKind} {above : List Line} {tokens : List Token} {suite : Suite}
      {path : List Frame} :
    Source.Suite.Holds suite path → Source.Clause.Holds (.clause kind above tokens suite) path

end

end Paths

def Surroundings.through (around : Surroundings) : Frame → Surroundings
  | .definition role => around.enter role
  | .block body => around.enterBlock body

def Request.behind (around : Surroundings) (path : List Frame) (head : Source.Definition)
    (body : Suite) : Request :=
  ⟨path.foldl Surroundings.through around, head, body⟩

section Requests

variable {request : Request}

/-- Some path through a part of a tree leads to the definition of a request, from a place around the
part to the place of the request. -/
def Request.Follows (request : Request) (around : Surroundings)
    (holds : List Frame → Prop) : Prop :=
  request.head.annotated = true ∧
    ∃ path, holds path ∧ request.around = path.foldl Surroundings.through around

mutual

/-- The requests in a statement are those of the annotated definitions in it, each with the place
that its path leads to. -/
theorem Source.Statement.mem_requests_iff (around : Surroundings) : ∀ statement : Statement,
    request ∈ statement.requests around ↔
      request.Follows around (statement.Holds request.head request.body)
  | .simple _ _ _ => by
    rw [Statement.requests]
    refine ⟨fun member => (List.not_mem_nil member).elim, ?_⟩
    rintro ⟨-, path, holds, -⟩
    cases holds
  | .definition outer suite => by
    rw [Statement.requests, List.mem_append, suite.mem_requests_iff]
    constructor
    · rintro (⟨annotated, path, holds, same⟩ | own)
      · exact ⟨annotated, _, .inside holds, same⟩
      · split at own
        case isTrue annotated =>
          cases List.mem_singleton.1 own
          exact ⟨annotated, [], .itself, rfl⟩
        case isFalse => cases own
    · rcases request with ⟨place, head, body⟩
      rintro ⟨annotated, path, holds, same⟩
      cases holds with
      | itself =>
        cases same
        rw [if_pos annotated]
        exact .inr (List.mem_singleton_self _)
      | inside holds => exact .inl ⟨annotated, _, holds, same⟩
  | .compound clauses => by
    rw [Statement.requests, mem_requestsInClauses_iff around clauses]
    constructor
    · rintro ⟨clause, member, annotated, path, holds, same⟩
      exact ⟨annotated, path, .compound member holds, same⟩
    · rintro ⟨annotated, path, holds, same⟩
      cases holds with
      | compound member holds => exact ⟨_, member, annotated, path, holds, same⟩

/-- The requests behind a colon are those of the annotated definitions there. -/
theorem Source.Suite.mem_requests_iff (around : Surroundings) : ∀ suite : Suite,
    request ∈ suite.requests around ↔
      request.Follows around (Suite.Holds request.head request.body suite)
  | .inline _ _ => by
    rw [Suite.requests]
    refine ⟨fun member => (List.not_mem_nil member).elim, ?_⟩
    rintro ⟨-, path, holds, -⟩
    cases holds
  | .block opening indent statements foot => by
    rw [Suite.requests, mem_requestsInStatements_iff _ statements]
    constructor
    · rintro ⟨statement, member, annotated, path, holds, same⟩
      exact ⟨annotated, _, .block member holds, same⟩
    · rintro ⟨annotated, path, holds, same⟩
      cases holds with
      | block member holds => exact ⟨_, member, annotated, _, holds, same⟩
  | .cases opening indent clauses foot => by
    rw [Suite.requests, mem_requestsInClauses_iff around clauses]
    constructor
    · rintro ⟨clause, member, annotated, path, holds, same⟩
      exact ⟨annotated, path, .cases member holds, same⟩
    · rintro ⟨annotated, path, holds, same⟩
      cases holds with
      | cases member holds => exact ⟨_, member, annotated, path, holds, same⟩

theorem Source.Clause.mem_requests_iff (around : Surroundings) : ∀ clause : Clause,
    request ∈ clause.requests around ↔
      request.Follows around (clause.Holds request.head request.body)
  | .clause kind above tokens suite => by
    rw [Clause.requests, suite.mem_requests_iff]
    constructor
    · rintro ⟨annotated, path, holds, same⟩
      exact ⟨annotated, path, .clause holds, same⟩
    · rintro ⟨annotated, path, holds, same⟩
      cases holds with
      | clause holds => exact ⟨annotated, path, holds, same⟩

theorem mem_requestsInStatements_iff (around : Surroundings) : ∀ statements : List Statement,
    request ∈ requestsInStatements around statements ↔ ∃ statement ∈ statements,
      request.Follows around (statement.Holds request.head request.body)
  | [] => by simp [requestsInStatements]
  | first :: later => by
    rw [requestsInStatements, List.mem_append, first.mem_requests_iff,
      mem_requestsInStatements_iff around later, List.exists_mem_cons_iff]

theorem mem_requestsInClauses_iff (around : Surroundings) : ∀ clauses : List Clause,
    request ∈ requestsInClauses around clauses ↔ ∃ clause ∈ clauses,
      request.Follows around (clause.Holds request.head request.body)
  | [] => by simp [requestsInClauses]
  | first :: later => by
    rw [requestsInClauses, List.mem_append, first.mem_requests_iff,
      mem_requestsInClauses_iff around later, List.exists_mem_cons_iff]

end

end Requests

/-! ## Along a path -/

namespace ScopeStacks

def through (stack : ScopeStacks) : Frame → ScopeStacks
  | .definition role => stack.enter role
  | .block body => stack.enterBlock body

/-- The stacks behind the frames of a path from the top of a file. -/
def along (path : List Frame) : ScopeStacks :=
  path.foldl through empty

/-- The mark of the innermost function stays within the stack of names along a path, and the stacks
know every place on it. -/
theorem foldl_through {stack : ScopeStacks} (marked : stack.Marked) (top : Surroundings)
    (path : List Frame) :
    (path.foldl through stack).Marked ∧ (path.foldl through stack).surroundings top =
      path.foldl Surroundings.through (stack.surroundings top) := by
  induction path generalizing stack with
  | nil => exact ⟨marked, rfl⟩
  | cons frame inner ih =>
    rw [List.foldl_cons, List.foldl_cons]
    cases frame with
    | definition role =>
      rw [Surroundings.through, ← surroundings_enter]
      exact ih (marked.enter role)
    | block body =>
      rw [Surroundings.through, ← surroundings_enterBlock marked]
      exact ih (marked.enterBlock body)

theorem along_tracks (path : List Frame) (top : Surroundings) : (along path).Tracks top :=
  (foldl_through empty_marked top path).1.tracks top

/-- Blocks add their names to the top of the stack and change nothing else. -/
theorem foldl_through_blocks (stack : ScopeStacks) (blocks : List (List Statement)) :
    (blocks.map .block).foldl through stack =
      { stack with suites := stack.suites ++ blocks.map boundNames } := by
  induction blocks generalizing stack with
  | nil => simp
  | cons block inner ih => simp [ih, through, enterBlock]

/-- Behind a function and some blocks the local names are the parameters of the function and the
names that the blocks bind. -/
theorem localNames_along (outer : List Frame) (function : FunctionHead)
    (blocks : List (List Statement)) :
    (along (outer ++ .definition (.functionDefinition function) :: blocks.map .block)).localNames =
      function.parameters ++ (blocks.map boundNames).flatten := by
  rw [along, List.foldl_append, List.foldl_cons, foldl_through_blocks]
  simp [localNames, through, enter]

theorem scopes_along (outer : List Frame) (function : FunctionHead)
    (blocks : List (List Statement)) :
    (along (outer ++ .definition (.functionDefinition function) :: blocks.map .block)).scopes =
      .functionScope :: (along outer).scopes := by
  rw [along, List.foldl_append, List.foldl_cons, foldl_through_blocks]
  rfl

theorem innermost_of_scopes {path : List Frame}
    (innermost : (along path).scopes.head? = some .functionScope) :
    ∃ (outer : List Frame) (function : FunctionHead) (blocks : List (List Statement)),
      path = outer ++ .definition (.functionDefinition function) :: blocks.map .block := by
  induction path using List.reverseRecOn with
  | nil => cases innermost
  | append_singleton inner last ih =>
    rw [along, List.foldl_append, List.foldl_cons, List.foldl_nil] at innermost
    cases last with
    | definition role =>
      cases role with
      | classDefinition shape => cases innermost
      | functionDefinition function => exact ⟨inner, function, [], rfl⟩
    | block body =>
      rcases ih innermost with ⟨outer, function, blocks, rfl⟩
      exact ⟨outer, function, blocks ++ [body], by simp⟩

end ScopeStacks

/-- What comes of a class that stands directly in a function is what is generated from its model in
the local names. -/
theorem Request.outcome_of_local {request : Request} {shape : ClassHead} {model : RecordModel}
    (role : request.head.role = .classDefinition shape)
    (extracted :
      extractClass request.head shape request.body (some request.location) = .ok model)
    (inFunction : request.around.scopes.head? = some .functionScope) :
    request.outcome =
      ⟨some model, generate model request.around.settings (some request.around.localNames)⟩ := by
  have names : request.around.scopeNames = request.around.localNames := by
    unfold Surroundings.scopeNames
    split
    case h_1 outside => simp [outside] at inFunction
    case h_2 => rfl
  simp only [outcome, role, classOutcome]
  rw [show request.around.locate request.head.position = request.location from rfl, extracted]
  simp only [inFunction, names, Option.some.injEq, reduceCtorEq, if_false]
  cases generated : generate model request.around.settings (some request.around.localNames) with
  | ok artifacts => rfl
  | error diagnostic =>
    have place : diagnostic.location = some request.location :=
      (generate_error_location generated).trans (extractClass_location extracted)
    simp only [located_of_location place]

section LocalClass

variable (settings : Settings) (filename : Option Text) (file : SourceFile)

/-- The requests of a file are those of the annotated definitions in it, each at the place that its
path from the top of the file leads to. -/
theorem Source.SourceFile.mem_requests_iff {request : Request} :
    request ∈ file.requests settings filename ↔
      request.head.annotated = true ∧ ∃ path,
        (∃ statement ∈ file.body, statement.Holds request.head request.body path) ∧
          request.around = (ScopeStacks.along path).surroundings
            (topOfFile settings filename file) := by
  have places := fun path => (ScopeStacks.foldl_through ScopeStacks.empty_marked
    (topOfFile settings filename file) path).2
  unfold SourceFile.requests ScopeStacks.along
  rw [mem_requestsInStatements_iff]
  simp only [places, Request.Follows]
  constructor
  · rintro ⟨statement, member, annotated, path, holds, same⟩
    exact ⟨annotated, path, ⟨statement, member, holds⟩, same⟩
  · rintro ⟨annotated, path, ⟨statement, member, holds⟩, same⟩
    exact ⟨statement, member, annotated, path, holds, same⟩

/-- The names that a class in a function is checked against are exactly the parameters of the
innermost function around it and the names bound in the blocks between that function and the class.
They are the local names on the stacks at the place of the class, and every walk over a part of the
file behind a path, as well as the one over the whole file, leaves the stacks as they were and does
what the walk without stacks does.  What is generated from the model of the class in these names is
among the outcomes of the walk over the file, if that comes to its end. -/
theorem localScope_exact {head : Source.Definition} {body : Suite} {outer : List Frame}
    {function : FunctionHead} {blocks : List (List Statement)} {path : List Frame}
    (annotated : head.annotated = true)
    (innermost : path = outer ++ .definition (.functionDefinition function) :: blocks.map .block)
    (holds : ∃ statement ∈ file.body, statement.Holds head body path) :
    (∀ place, (ScopeStacks.along place).Tracks (topOfFile settings filename file)) ∧
      trackStatements (topOfFile settings filename file) .empty file.body =
        (.empty, file.visit settings filename) ∧
      (∀ name, name ∈ (ScopeStacks.along path).localNames ↔
        name ∈ function.parameters ∨ ∃ block ∈ blocks, name ∈ boundNames block) ∧
      ∃ request ∈ file.requests settings filename,
        request.head = head ∧ request.body = body ∧
          ((file.visit settings filename).result.isSome = true →
            request.outcome ∈ (file.visit settings filename).outcomes) ∧
          ∀ shape model, head.role = .classDefinition shape →
            extractClass head shape body (some request.location) = .ok model →
            request.outcome =
              ⟨some model, generate model settings (some (ScopeStacks.along path).localNames)⟩ := by
  refine ⟨fun place => ScopeStacks.along_tracks place _,
    (ScopeStacks.empty_marked.tracks _).statements file.body, fun name => ?_, ?_⟩
  · rw [innermost, ScopeStacks.localNames_along, List.mem_append, List.mem_flatten]
    simp only [List.mem_map, exists_exists_and_eq_and]
  · let request : Request :=
      ⟨(ScopeStacks.along path).surroundings (topOfFile settings filename file), head, body⟩
    have listed : request ∈ file.requests settings filename :=
      (file.mem_requests_iff settings filename).2 ⟨annotated, path, holds, rfl⟩
    refine ⟨request, listed, rfl, rfl, fun ended => ?_, fun shape model role extracted => ?_⟩
    · rw [(file.visit_settles settings filename).outcomes ended]
      exact List.mem_map_of_mem listed
    refine Request.outcome_of_local role extracted ?_
    change (ScopeStacks.along path).scopes.head? = _
    rw [innermost, ScopeStacks.scopes_along]
    rfl

end LocalClass

/-- A class in a block of a method that has parameters of all kinds. -/
def localClass : Text :=
  "class C:\n def f(s, /, a, *b, c, **d):\n  if a:\n   e = a\n   @destructure\n   class P: x: A\n"

/-- The class of the example is checked against the parameters of the method and the names bound in
its own block. -/
theorem localClass_scope_exact : ∃ (file : SourceFile) (path : List Frame) (function : FunctionHead)
    (blocks : List (List Statement)), SourceFile.parse? localClass = some file ∧
      (ScopeStacks.along path).localNames = (["s", "a", "b", "c", "d", "e", "P"] : List Text) ∧
      ∀ name, name ∈ (ScopeStacks.along path).localNames ↔
        name ∈ function.parameters ∨ ∃ block ∈ blocks, name ∈ boundNames block := by
  have computed : ((SourceFile.parse? localClass).any fun file =>
      (file.requests .default none).any fun request =>
        request.around.scopes.head? = some .functionScope &&
          request.around.localNames = (["s", "a", "b", "c", "d", "e", "P"] : List Text)) = true := by
    decide +kernel
  cases parsed : SourceFile.parse? localClass with
  | none =>
    rw [parsed] at computed
    cases computed
  | some file =>
    rw [parsed, Option.any_some, List.any_eq_true] at computed
    rcases computed with ⟨request, member, checked⟩
    simp only [Bool.and_eq_true, decide_eq_true_eq] at checked
    rcases (file.mem_requests_iff .default none).1 member with ⟨annotated, path, holds, around⟩
    rw [around] at checked
    rcases ScopeStacks.innermost_of_scopes checked.1 with ⟨outer, function, blocks, innermost⟩
    exact ⟨file, path, function, blocks, rfl, checked.2,
      (localScope_exact .default none file annotated innermost holds).2.2.1⟩

end OpenRecord
