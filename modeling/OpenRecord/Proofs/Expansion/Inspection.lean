import Mathlib.Data.List.Perm.Subperm
import Mathlib.Data.Set.List
import OpenRecord.Proofs.Expansion.Reporting

namespace OpenRecord

/-!
# Inspection beside expansion

The annotated classes of a file form an ordered forest, in which a class stands below the innermost
annotated class around it.  Inspection extracts the classes of the forest in the order in which they
are entered, and expansion in the order in which they are left.  Both read the same model off a
class, or refuse it for the same reason at the same place.

Expansion refuses classes for further reasons, which inspection does not look for, and it may break
off.  Hence the main statement goes from a success of expansion to one of inspection, and from a
report of inspection to one of expansion, but not back.
-/

open Source

/-! ## Ordered forests -/

/-- A value with the trees inside it, in order. -/
inductive Nested (α : Type)
  | node (value : α) (inside : List (Nested α))

/-- The trees directly inside a tree. -/
def Nested.inside {α : Type} : Nested α → List (Nested α)
  | .node _ inside => inside

section Orders

variable {α : Type}

mutual

/-- The values of a tree in the order of entering: each before those inside it. -/
def Nested.entered : Nested α → List α
  | .node value inside => value :: enteredInAll inside

/-- The values of a forest in the order of entering. -/
def enteredInAll : List (Nested α) → List α
  | [] => []
  | first :: later => first.entered ++ enteredInAll later

end

mutual

/-- The values of a tree in the order of leaving: each behind those inside it. -/
def Nested.left : Nested α → List α
  | .node value inside => leftInAll inside ++ [value]

/-- The values of a forest in the order of leaving. -/
def leftInAll : List (Nested α) → List α
  | [] => []
  | first :: later => first.left ++ leftInAll later

end

/-- Forests beside one another are entered one after another. -/
theorem enteredInAll_append (front back : List (Nested α)) :
    enteredInAll (front ++ back) = enteredInAll front ++ enteredInAll back := by
  induction front with
  | nil => rfl
  | cons first later ih => rw [List.cons_append, enteredInAll, enteredInAll, ih, List.append_assoc]

/-- Forests beside one another are left one after another. -/
theorem leftInAll_append (front back : List (Nested α)) :
    leftInAll (front ++ back) = leftInAll front ++ leftInAll back := by
  induction front with
  | nil => rfl
  | cons first later ih => rw [List.cons_append, leftInAll, leftInAll, ih, List.append_assoc]

mutual

theorem Nested.left_perm_entered : ∀ tree : Nested α, tree.left.Perm tree.entered
  | .node value inside => by
    rw [Nested.left, Nested.entered]
    exact (List.perm_append_singleton value _).trans ((leftInAll_perm_enteredInAll inside).cons value)

theorem leftInAll_perm_enteredInAll :
    ∀ forest : List (Nested α), (leftInAll forest).Perm (enteredInAll forest)
  | [] => .refl []
  | first :: later => by
    rw [leftInAll, enteredInAll]
    exact first.left_perm_entered.append (leftInAll_perm_enteredInAll later)

end

theorem leftInAll_eq_enteredInAll {forest : List (Nested α)}
    (flat : ∀ tree ∈ forest, tree.inside = []) : leftInAll forest = enteredInAll forest := by
  induction forest with
  | nil => rfl
  | cons first later ih =>
    rw [List.forall_mem_cons] at flat
    rcases first with ⟨value, inside⟩
    have alone : inside = [] := flat.1
    rw [leftInAll, enteredInAll, ih flat.2, alone]
    rfl

end Orders

/-! ## The forest of annotated classes -/

/-- A class definition: its head, its header and its body. -/
abbrev ClassParts := Source.Definition × ClassHead × Suite

mutual

/-- The annotated classes of a statement, each with those inside it. -/
def Source.Statement.nesting : Statement → List (Nested ClassParts)
  | .simple _ _ _ => []
  | .definition head body =>
    match head.role with
    | .classDefinition shape =>
      if head.annotated then [.node (head, shape, body) body.nesting] else body.nesting
    | .functionDefinition _ => body.nesting
  | .compound clauses => nestingInClauses clauses

/-- The annotated classes behind a colon. -/
def Source.Suite.nesting : Suite → List (Nested ClassParts)
  | .inline _ _ => []
  | .block _ _ body _ => nestingInStatements body
  | .cases _ _ clauses _ => nestingInClauses clauses

/-- The annotated classes of a clause. -/
def Source.Clause.nesting : Clause → List (Nested ClassParts)
  | .clause _ _ _ suite => suite.nesting

/-- The annotated classes of consecutive statements. -/
def nestingInStatements : List Statement → List (Nested ClassParts)
  | [] => []
  | first :: later => first.nesting ++ nestingInStatements later

/-- The annotated classes of consecutive clauses. -/
def nestingInClauses : List Clause → List (Nested ClassParts)
  | [] => []
  | first :: later => first.nesting ++ nestingInClauses later

end

/-- The annotated classes of a file. -/
def Source.SourceFile.nesting (file : SourceFile) : List (Nested ClassParts) :=
  nestingInStatements file.body

mutual

theorem Source.Statement.annotatedClasses_eq :
    ∀ statement : Statement, statement.annotatedClasses = enteredInAll statement.nesting
  | .simple _ _ _ => rfl
  | .definition head body => by
    have inner := body.annotatedClasses_eq
    rw [Statement.annotatedClasses, Statement.nesting]
    cases head.role with
    | functionDefinition function => simpa using inner
    | classDefinition shape =>
      cases annotated : head.annotated <;>
        simp [inner, enteredInAll, Nested.entered]
  | .compound clauses => annotatedInClauses_eq clauses

theorem Source.Suite.annotatedClasses_eq :
    ∀ suite : Suite, suite.annotatedClasses = enteredInAll suite.nesting
  | .inline _ _ => rfl
  | .block _ _ body _ => annotatedInStatements_eq body
  | .cases _ _ clauses _ => annotatedInClauses_eq clauses

theorem Source.Clause.annotatedClasses_eq :
    ∀ clause : Clause, clause.annotatedClasses = enteredInAll clause.nesting
  | .clause _ _ _ suite => suite.annotatedClasses_eq

theorem annotatedInStatements_eq : ∀ statements : List Statement,
    annotatedInStatements statements = enteredInAll (nestingInStatements statements)
  | [] => rfl
  | first :: later => by
    rw [annotatedInStatements, nestingInStatements, enteredInAll_append,
      first.annotatedClasses_eq, annotatedInStatements_eq later]

theorem annotatedInClauses_eq : ∀ clauses : List Clause,
    annotatedInClauses clauses = enteredInAll (nestingInClauses clauses)
  | [] => rfl
  | first :: later => by
    rw [annotatedInClauses, nestingInClauses, enteredInAll_append, first.annotatedClasses_eq,
      annotatedInClauses_eq later]

end

def Request.classParts (request : Request) : Option ClassParts :=
  match request.head.role with
  | .classDefinition shape => some (request.head, shape, request.body)
  | .functionDefinition _ => none

mutual

/-- The classes among the requests of a statement come in the order of leaving. -/
theorem Source.Statement.classParts_requests (around : Surroundings) :
    ∀ statement : Statement,
      (statement.requests around).filterMap Request.classParts = leftInAll statement.nesting
  | .simple _ _ _ => rfl
  | .definition head body => by
    have inner := body.classParts_requests (around.enter head.role)
    rw [Statement.requests, Statement.nesting, List.filterMap_append, inner]
    cases role : head.role with
    | functionDefinition function =>
      cases annotated : head.annotated <;> simp [Request.classParts, role]
    | classDefinition shape =>
      cases annotated : head.annotated <;>
        simp [Request.classParts, role, leftInAll, Nested.left]
  | .compound clauses => classParts_requestsInClauses around clauses

theorem Source.Suite.classParts_requests (around : Surroundings) : ∀ suite : Suite,
    (suite.requests around).filterMap Request.classParts = leftInAll suite.nesting
  | .inline _ _ => rfl
  | .block _ _ body _ => classParts_requestsInStatements (around.enterBlock body) body
  | .cases _ _ clauses _ => classParts_requestsInClauses around clauses

theorem Source.Clause.classParts_requests (around : Surroundings) : ∀ clause : Clause,
    (clause.requests around).filterMap Request.classParts = leftInAll clause.nesting
  | .clause _ _ _ suite => suite.classParts_requests around

theorem classParts_requestsInStatements (around : Surroundings) : ∀ statements : List Statement,
    (requestsInStatements around statements).filterMap Request.classParts =
      leftInAll (nestingInStatements statements)
  | [] => rfl
  | first :: later => by
    rw [requestsInStatements, nestingInStatements, List.filterMap_append, leftInAll_append,
      first.classParts_requests around, classParts_requestsInStatements around later]

theorem classParts_requestsInClauses (around : Surroundings) : ∀ clauses : List Clause,
    (requestsInClauses around clauses).filterMap Request.classParts =
      leftInAll (nestingInClauses clauses)
  | [] => rfl
  | first :: later => by
    rw [requestsInClauses, nestingInClauses, List.filterMap_append, leftInAll_append,
      first.classParts_requests around, classParts_requestsInClauses around later]

end

/-! ## What is read off a class -/

/-- The model of a class in a file of a given name, or the reason why it has none. -/
def ClassParts.model (filename : Option Text) (found : ClassParts) : Except Diagnostic RecordModel :=
  extractClass found.1 found.2.1 found.2.2
    (some ⟨filename, some found.1.position.line, some found.1.position.column⟩)

def ClassParts.misfit (filename : Option Text) (found : ClassParts) : Option Diagnostic :=
  match found.model filename with
  | .error diagnostic => some diagnostic
  | .ok _ => none

namespace Request

variable {request : Request} {filename : Option Text}

theorem model_of_verdict {model : RecordModel} {artifacts : List Artifact}
    (named : request.around.filename = filename)
    (accepted : request.verdict = .ok (model, artifacts)) :
    ∃ found, request.classParts = some found ∧ found.model filename = .ok model := by
  rcases verdict_eq_ok_iff.1 accepted with ⟨shape, role, extracted, -, -⟩
  refine ⟨(request.head, shape, request.body), by simp [classParts, role], ?_⟩
  rw [← named]
  exact extracted

theorem refusal_of_misfit {found : ClassParts} {diagnostic : Diagnostic}
    (named : request.around.filename = filename) (parts : request.classParts = some found)
    (misfit : found.misfit filename = some diagnostic) : request.refusal = some diagnostic := by
  unfold classParts at parts
  split at parts
  case h_1 shape role =>
    cases parts
    rw [refusal_eq_some_iff, verdict_of_class role]
    unfold ClassParts.misfit at misfit
    split at misfit
    case h_1 extracted =>
      cases misfit
      rw [← named] at extracted
      change extractClass request.head shape request.body (some request.location) = _ at extracted
      rw [extracted]
    case h_2 => cases misfit
  case h_2 => cases parts

end Request

theorem map_model_classParts {filename : Option Text} {requests : List Request}
    {accepted : List (RecordModel × List Artifact)}
    (named : ∀ request ∈ requests, request.around.filename = filename)
    (verdicts : requests.map Request.verdict = accepted.map .ok) :
    (requests.filterMap Request.classParts).map (ClassParts.model filename) =
      accepted.map (.ok ·.1) := by
  induction requests generalizing accepted with
  | nil =>
    rw [List.map_eq_nil_iff.1 verdicts.symm]
    rfl
  | cons first later ih =>
    cases accepted with
    | nil => cases verdicts
    | cons found others =>
      rw [List.forall_mem_cons] at named
      rw [List.map_cons, List.map_cons, List.cons.injEq] at verdicts
      rcases Request.model_of_verdict named.1 verdicts.1 with ⟨parts, some_class, same⟩
      rw [List.filterMap_cons_some some_class, List.map_cons, same, ih named.2 verdicts.2,
        List.map_cons]

/-- A list is thinned out by a choice that agrees with another one where it chooses. -/
theorem filterMap_sublist_filterMap {α β : Type} {choice wider : α → Option β} {items : List α}
    (agrees : ∀ item ∈ items, ∀ value, choice item = some value → wider item = some value) :
    (items.filterMap choice).Sublist (items.filterMap wider) := by
  induction items with
  | nil => exact .slnil
  | cons first later ih =>
    rw [List.forall_mem_cons] at agrees
    cases chosen : choice first with
    | none =>
      rw [List.filterMap_cons_none chosen]
      cases kept : wider first with
      | none =>
        rw [List.filterMap_cons_none kept]
        exact ih agrees.2
      | some value =>
        rw [List.filterMap_cons_some kept]
        exact (ih agrees.2).cons value
    | some value =>
      rw [List.filterMap_cons_some chosen, List.filterMap_cons_some (agrees.1 value chosen)]
      exact (ih agrees.2).cons_cons value

/-! ## Both at once -/

section Inspect

variable {code : Text} {filename : Option Text} {file : SourceFile}

/-- Inspection of a readable text leaves the text alone and sorts what it extracts into reports and
models. -/
theorem inspect_of_parsed (parsed : SourceFile.parse? code = some file) :
    (inspect code filename).code = code ∧
      (inspect code filename).reports =
        ((enteredInAll file.nesting).filterMap (ClassParts.misfit filename)).map .refused ∧
      (inspect code filename).models =
        (enteredInAll file.nesting).filterMap fun found =>
          match found.model filename with
          | .error _ => none
          | .ok model => some model := by
  have extracted : inspectedClasses filename file =
      (enteredInAll file.nesting).map (ClassParts.model filename) := by
    rw [SourceFile.nesting, ← annotatedInStatements_eq]
    rfl
  unfold inspect
  rw [parsed]
  dsimp only
  rw [extracted, List.filterMap_map, List.filterMap_map]
  refine ⟨rfl, ?_, rfl⟩
  rw [List.map_filterMap]
  refine List.filterMap_congr fun found _ => ?_
  unfold Function.comp ClassParts.misfit
  cases found.model filename <;> rfl

/-- Inspection reports the classes without a model, in the order of entering. -/
theorem errors_inspect (parsed : SourceFile.parse? code = some file) :
    (inspect code filename).errors =
      ((enteredInAll file.nesting).filterMap (ClassParts.misfit filename)).map
        Diagnostic.format := by
  rw [Expansion.errors, (inspect_of_parsed parsed).2.1, List.map_map]
  rfl

/-- Inspection succeeds exactly if every class has a model. -/
theorem success_inspect_iff (parsed : SourceFile.parse? code = some file) :
    (inspect code filename).success = true ↔
      (enteredInAll file.nesting).filterMap (ClassParts.misfit filename) = [] := by
  rw [Expansion.success, List.isEmpty_iff, (inspect_of_parsed parsed).2.1, List.map_eq_nil_iff]

theorem models_inspect (parsed : SourceFile.parse? code = some file) {models : List RecordModel}
    (fit : (enteredInAll file.nesting).map (ClassParts.model filename) = models.map .ok) :
    (inspect code filename).models = models := by
  rw [(inspect_of_parsed parsed).2.2]
  have sorted := congrArg
    (List.filterMap fun extracted : Except Diagnostic RecordModel =>
      match extracted with
      | .error _ => none
      | .ok model => some model) fit
  rw [List.filterMap_map, List.filterMap_map] at sorted
  exact sorted.trans List.filterMap_some

theorem misfits_of_models {models : List RecordModel} {classes : List ClassParts}
    (fit : classes.map (ClassParts.model filename) = models.map .ok) :
    classes.filterMap (ClassParts.misfit filename) = [] := by
  rw [List.filterMap_eq_nil_iff]
  intro found member
  have listed := List.mem_map_of_mem (f := ClassParts.model filename) member
  rw [fit] at listed
  rcases List.mem_map.1 listed with ⟨model, -, same⟩
  unfold ClassParts.misfit
  rw [← same]

end Inspect

/-- Results that are rearranged stay all accepted. -/
theorem exists_models_of_perm {results : List (Except Diagnostic RecordModel)}
    {models : List RecordModel} (order : results.Perm (models.map .ok)) :
    ∃ others : List RecordModel, results = others.map .ok ∧ others.Perm models := by
  have accepted : results ∈ Set.range (List.map Except.ok) := by
    rw [Set.range_list_map]
    intro result member
    rcases List.mem_map.1 (order.mem_iff.1 member) with ⟨model, -, same⟩
    exact ⟨model, same⟩
  rcases accepted with ⟨others, rfl⟩
  refine ⟨others, rfl, ?_⟩
  exact (List.map_perm_map_iff fun _ _ => Except.ok.inj).1 order

/-- The refusals of the requests of a file hold those of the classes without a model. -/
theorem misfits_subperm_refusals (settings : Settings) (filename : Option Text)
    (file : SourceFile) :
    List.Subperm ((enteredInAll file.nesting).filterMap (ClassParts.misfit filename))
      ((file.requests settings filename).filterMap Request.refusal) := by
  have order := (leftInAll_perm_enteredInAll file.nesting).filterMap (ClassParts.misfit filename)
  refine order.symm.subperm.trans (List.Sublist.subperm ?_)
  rw [SourceFile.nesting, ← classParts_requestsInStatements (topOfFile settings filename file),
    List.filterMap_filterMap]
  refine filterMap_sublist_filterMap fun request member diagnostic misfit => ?_
  rcases Option.bind_eq_some_iff.1 misfit with ⟨found, parts, misfit⟩
  exact Request.refusal_of_misfit (SourceFile.sameFile_of_mem member).filename parts misfit

/-- Inspection agrees with expansion.  If expansion succeeds, so does inspection, on the unchanged
text; its models are those of expansion, listed as the classes are entered and not as they are left,
so that they are the same list if no annotated class stands inside another.  If inspection reports
anything, expansion does not succeed, and what it reports holds all that inspection reports. -/
theorem inspect_agrees (settings : Settings) (code : Text) (filename : Option Text) :
    (∀ expansion, expand settings code filename = .ok expansion → expansion.success = true →
      (inspect code filename).success = true ∧ (inspect code filename).code = code ∧
        ∃ file, SourceFile.parse? code = some file ∧
          (enteredInAll file.nesting).map (ClassParts.model filename) =
            (inspect code filename).models.map .ok ∧
          (leftInAll file.nesting).map (ClassParts.model filename) = expansion.models.map .ok ∧
          (inspect code filename).models.Perm expansion.models ∧
          ((∀ tree ∈ file.nesting, tree.inside = []) →
            (inspect code filename).models = expansion.models)) ∧
      ∀ file, SourceFile.parse? code = some file → (inspect code filename).success = false →
        ∀ expansion, expand settings code filename = .ok expansion →
          expansion.success = false ∧
            List.Subperm (inspect code filename).errors expansion.errors := by
  constructor
  · intro expansion returned success
    cases parsed : SourceFile.parse? code with
    | none =>
      simp only [expand, expandWithOutcomes, parsed] at returned
      cases returned
      cases success
    | some file =>
      rcases expand_of_success parsed returned success with
        ⟨-, _, accepted, _, _, -, verdicts, -, same⟩
      have collected := congrArg Expansion.models same
      have behind : (leftInAll file.nesting).map (ClassParts.model filename) =
          expansion.models.map .ok := by
        have named : ∀ request ∈ file.requests settings filename,
            request.around.filename = filename :=
          fun request member => (SourceFile.sameFile_of_mem member).filename
        have read := map_model_classParts named verdicts
        rw [SourceFile.requests, classParts_requestsInStatements] at read
        rw [collected, List.map_map]
        exact read
      have order := (leftInAll_perm_enteredInAll file.nesting).map (ClassParts.model filename)
      rw [behind] at order
      rcases exists_models_of_perm order.symm with ⟨models, ahead, rearranged⟩
      have found := models_inspect parsed ahead
      refine ⟨(success_inspect_iff parsed).2 (misfits_of_models ahead),
        (inspect_of_parsed parsed).1, file, rfl, ?_, behind, ?_, ?_⟩
      · rw [found]
        exact ahead
      · rw [found]
        exact rearranged
      · intro flat
        rw [leftInAll_eq_enteredInAll flat, ahead] at behind
        rw [found]
        exact List.map_injective_iff.2 (fun _ _ => Except.ok.inj) behind
  · intro file parsed reported expansion returned
    have among := misfits_subperm_refusals settings filename file
    constructor
    · rw [← Bool.not_eq_true, success_expand_iff parsed returned,
        forall_refusal_eq_none_iff]
      intro clean
      rw [clean, List.subperm_nil, ← success_inspect_iff parsed, reported] at among
      cases among
    · rw [errors_inspect parsed, errors_of_expand parsed returned]
      rcases among with ⟨listed, order, thinned⟩
      exact ⟨_, order.map Diagnostic.format, thinned.map Diagnostic.format⟩

/-- A class inside a method of a class, both of them annotated. -/
def nestedRecords : Text :=
  "@destructure\nclass P:\n x: A\n def f(self):\n  @destructure\n  class Q: y: B\n"

/-- An annotated function in front of an annotated class without fields. -/
def emptyRecord : Text :=
  "@destructure\ndef f(): pass\n@destructure\nclass A: pass\n"

/-- The class around another one is inspected first and expanded last, and the class without fields
is reported by both, by expansion behind the function. -/
theorem inspect_nestedRecords_agrees :
    (∃ expansion, expand .default nestedRecords none = .ok expansion ∧
      expansion.models.map (·.typeName) = ["Q", "P"] ∧
      (inspect nestedRecords none).models.map (·.typeName) = ["P", "Q"] ∧
      (inspect nestedRecords none).models.Perm expansion.models) ∧
      ∃ expansion, expand .default emptyRecord none = .ok expansion ∧
        (inspect emptyRecord none).errors.length = 1 ∧ expansion.errors.length = 2 ∧
        List.Subperm (inspect emptyRecord none).errors expansion.errors := by
  constructor
  · have expanded : (match expand .default nestedRecords none with
        | .ok expansion => expansion.success && expansion.models.map (·.typeName) == ["Q", "P"]
        | .error _ => false) = true := by decide +kernel
    have inspected : (inspect nestedRecords none).models.map (·.typeName) = ["P", "Q"] := by
      decide +kernel
    cases returned : expand .default nestedRecords none with
    | error fault =>
      rw [returned] at expanded
      cases expanded
    | ok expansion =>
      rw [returned] at expanded
      simp only [Bool.and_eq_true, beq_iff_eq] at expanded
      rcases ((inspect_agrees .default nestedRecords none).1 expansion returned expanded.1).2.2 with
        ⟨file, -, -, -, rearranged, -⟩
      exact ⟨expansion, rfl, expanded.2, inspected, rearranged⟩
  · have reported : (match expand .default emptyRecord none with
        | .ok expansion => expansion.errors.length
        | .error _ => 0) = 2 := by decide +kernel
    have readable : (SourceFile.parse? emptyRecord).isSome = true := by decide +kernel
    have inspected : (inspect emptyRecord none).success = false := by decide +kernel
    have counted : (inspect emptyRecord none).errors.length = 1 := by decide +kernel
    rcases Option.isSome_iff_exists.1 readable with ⟨file, parsed⟩
    cases returned : expand .default emptyRecord none with
    | error fault =>
      rw [returned] at reported
      cases reported
    | ok expansion =>
      rw [returned] at reported
      exact ⟨expansion, rfl, counted, reported,
        ((inspect_agrees .default emptyRecord none).2 file parsed inspected expansion returned).2⟩

end OpenRecord
