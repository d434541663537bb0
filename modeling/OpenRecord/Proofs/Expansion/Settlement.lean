import OpenRecord.Proofs.Expansion.Requests

namespace OpenRecord

/-!
# What a walk settles

The walk over a tree settles the requests of the tree one after another.  It comes to its end
exactly if the artifacts of every accepted class can be read again at their places, and it has
then settled every request, in order, by the outcome that the request has on its own.

The refusal of a class does not stop the walk and has no influence on it otherwise.  Both follow
from the shape of the law: the outcomes are those of a list that is read off the tree alone.
-/

open Source

/-! ## Reading artifacts at their places -/

/-- A list is mapped through partial functions if each of its members is. -/
theorem isSome_mapM_iff {α β : Type} (f : α → Option β) (items : List α) :
    (items.mapM f).isSome = true ↔ ∀ item ∈ items, (f item).isSome = true := by
  induction items with
  | nil => simp
  | cons first later ih =>
    rw [List.mapM_cons]
    cases found : f first with
    | none => simp [found]
    | some value =>
      rw [List.forall_mem_cons, found, ← ih]
      cases later.mapM f <;> simp

theorem isSome_placed_iff {placement : Placement} {unit margin : Text} {separation : Nat}
    {artifacts : List Artifact} :
    (placed placement unit margin separation artifacts).isSome = true ↔
      ∀ artifact ∈ artifacts, artifact.placement = placement →
        (spliced unit margin artifact).isSome = true := by
  unfold placed
  rw [isSome_mapM_iff]
  simp [List.mem_filter]

namespace Request

/-- The margin of the artifacts of a class: methods stand one unit deeper than types. -/
def margin (request : Request) : Placement → Text
  | .besideClass => List.replicate request.head.position.column ' '
  | .inClass => List.replicate request.head.position.column ' ' ++ request.around.unit

/-- Whether an artifact of the request can be read as a statement at its place. -/
def reads (request : Request) (artifact : Artifact) : Bool :=
  (spliced request.around.unit (request.margin artifact.placement) artifact).isSome

/-- Whether all artifacts of the request, if it is accepted, can be read at their places. -/
def Fits (request : Request) : Prop :=
  ∀ model artifacts, request.verdict = .ok (model, artifacts) →
    ∀ artifact ∈ artifacts, request.reads artifact = true

/-- Where the artifacts of the request go. -/
def site (request : Request) : Site :=
  ⟨request.around.unit, List.replicate request.head.position.column ' ',
    if request.around.scopes = [] then 2 else 1⟩

/-- A class can be put together with its artifacts if these can be read at their places. -/
theorem isSome_spliceClass_iff (request : Request) (body : Suite) (artifacts : List Artifact) :
    (spliceClass request.site request.head body artifacts).isSome = true ↔
      ∀ artifact ∈ artifacts, request.reads artifact = true := by
  have both : (spliceClass request.site request.head body artifacts).isSome = true ↔
      (placed .inClass request.around.unit (request.margin .inClass) 1 artifacts).isSome = true ∧
        (placed .besideClass request.around.unit (request.margin .besideClass)
          request.site.separation artifacts).isSome = true := by
    unfold spliceClass
    change (Option.bind (placed .inClass request.around.unit (request.margin .inClass) 1 artifacts)
      fun _ => Option.bind (placed .besideClass request.around.unit
        (request.margin .besideClass) request.site.separation artifacts) _).isSome = true ↔ _
    cases placed .inClass request.around.unit (request.margin .inClass) 1 artifacts with
    | none => simp
    | some _ =>
      cases placed .besideClass request.around.unit (request.margin .besideClass)
        request.site.separation artifacts <;> simp
  rw [both, isSome_placed_iff, isSome_placed_iff]
  constructor
  · rintro ⟨inClass, besideClass⟩ artifact member
    unfold reads
    cases place : artifact.placement with
    | inClass => exact inClass artifact member place
    | besideClass => exact besideClass artifact member place
  · intro all
    refine ⟨fun artifact member place => ?_, fun artifact member place => ?_⟩
    · simpa only [reads, place] using all artifact member
    · simpa only [reads, place] using all artifact member

/-- What a request leaves in place of its definition, whose body has been walked over: the
definition as it is, or the class with its artifacts. -/
def replacement (request : Request) (body : Suite) : Option (List Statement) :=
  match request.verdict with
  | .error _ => some [.definition request.head body]
  | .ok (_, artifacts) => spliceClass request.site request.head body artifacts

/-- A request leaves something in its place exactly if it fits, whatever became of the body. -/
theorem isSome_replacement_iff (request : Request) (body : Suite) :
    (request.replacement body).isSome = true ↔ request.Fits := by
  unfold replacement Fits
  cases request.verdict with
  | error diagnostic => simp
  | ok accepted =>
    rcases accepted with ⟨model, artifacts⟩
    simpa using request.isSome_spliceClass_iff body artifacts

end Request

/-! ## The walk -/

/-- A visit that settles a list of requests: it comes to its end exactly if all of them fit, and
then its outcomes are theirs. -/
structure Visit.Settles {α : Type} (visit : Visit α) (requests : List Request) : Prop where
  ends : visit.result.isSome = true ↔ ∀ request ∈ requests, request.Fits
  outcomes : visit.result.isSome = true → visit.outcomes = requests.map Request.outcome

namespace Visit

/-- A visit that meets no definition settles nothing. -/
theorem settles_nil {α : Type} (value : α) : Settles ⟨[], some value⟩ [] :=
  ⟨by simp, fun _ => rfl⟩

theorem Settles.andThen {α β γ : Type} {join : α → β → γ} {first : Visit α} {second : Visit β}
    {front back : List Request} (former : first.Settles front) (latter : second.Settles back) :
    (first.andThen join second).Settles (front ++ back) := by
  unfold Visit.andThen
  cases result : first.result with
  | none =>
    have broken : ¬ ∀ request ∈ front, request.Fits := by
      rw [← former.ends, result]
      simp
    refine ⟨?_, by simp⟩
    simp only [Option.isSome_none, Bool.false_eq_true, List.forall_mem_append, false_iff]
    exact fun all => broken all.1
  | some left =>
    have fit : ∀ request ∈ front, request.Fits := former.ends.1 (by simp [result])
    refine ⟨?_, ?_⟩
    · simp only [Option.isSome_map, List.forall_mem_append]
      rw [latter.ends]
      exact ⟨fun all => ⟨fit, all⟩, And.right⟩
    · intro ended
      simp only [Option.isSome_map] at ended
      rw [List.map_append, ← former.outcomes (by simp [result]), ← latter.outcomes ended]

theorem Settles.map {α β : Type} {change : α → β} {visit : Visit α} {requests : List Request}
    (settles : visit.Settles requests) : (visit.map change).Settles requests :=
  ⟨by simpa [Visit.map] using settles.ends, by simpa [Visit.map] using settles.outcomes⟩

end Visit

/-- Leaving a definition without a request keeps it around what became of its body. -/
theorem leaveDefinition_of_plain {around : Surroundings} {head : Source.Definition}
    {written body : Suite} {visit : Visit Suite} (plain : head.annotated = false)
    (result : visit.result = some body) :
    leaveDefinition around head written visit = ⟨visit.outcomes, some [.definition head body]⟩ := by
  simp [leaveDefinition, result, plain]

/-- Leaving a definition with a request adds the outcome of the request and puts its replacement
in place of the definition. -/
theorem leaveDefinition_of_annotated {around : Surroundings} {head : Source.Definition}
    {written body : Suite} {visit : Visit Suite} (annotated : head.annotated = true)
    (result : visit.result = some body) :
    leaveDefinition around head written visit =
      ⟨visit.outcomes ++ [Request.outcome ⟨around, head, written⟩],
        Request.replacement ⟨around, head, written⟩ body⟩ := by
  have settled := Request.outcome_result ⟨around, head, written⟩
  cases role : head.role with
  | functionDefinition function =>
    simp [leaveDefinition, result, annotated, role, Request.outcome, Request.replacement,
      Request.verdict]
  | classDefinition shape =>
    simp only [Request.outcome, role] at settled
    cases verdict : Request.verdict ⟨around, head, written⟩ with
    | error diagnostic =>
      rw [verdict] at settled
      simp only [Except.map] at settled
      simp [leaveDefinition, result, annotated, role, Request.outcome, Request.replacement,
        verdict, settled]
    | ok accepted =>
      rw [verdict] at settled
      simp only [Except.map] at settled
      simp [leaveDefinition, result, annotated, role, Request.outcome, Request.replacement,
        verdict, settled, Request.site]

/-- Leaving a definition settles its request, if it makes one, after those inside it. -/
theorem leaveDefinition_settles {around : Surroundings} {head : Source.Definition}
    {written : Suite} {visit : Visit Suite} {inner : List Request}
    (settles : visit.Settles inner) :
    (leaveDefinition around head written visit).Settles
      (inner ++ if head.annotated then [⟨around, head, written⟩] else []) := by
  cases result : visit.result with
  | none =>
    have broken : ¬ ∀ request ∈ inner, request.Fits := by
      rw [← settles.ends, result]
      simp
    unfold leaveDefinition
    rw [result]
    refine ⟨?_, by simp⟩
    simp only [Option.isSome_none, Bool.false_eq_true, List.forall_mem_append, false_iff]
    exact fun all => broken all.1
  | some body =>
    have fit : ∀ request ∈ inner, request.Fits := settles.ends.1 (by simp [result])
    have settled := settles.outcomes (by simp [result])
    cases annotated : head.annotated with
    | false =>
      rw [leaveDefinition_of_plain annotated result]
      refine ⟨?_, fun _ => ?_⟩
      · simpa using fit
      · simpa using settled
    | true =>
      rw [leaveDefinition_of_annotated annotated result]
      refine ⟨?_, fun _ => ?_⟩
      · rw [Request.isSome_replacement_iff]
        simp only [if_true, List.forall_mem_append, List.forall_mem_singleton]
        exact ⟨fun last => ⟨fit, last⟩, And.right⟩
      · simp [settled]

mutual

theorem Source.Statement.walk_settles (around : Surroundings) :
    ∀ statement : Statement, (statement.walk around).Settles (statement.requests around)
  | .simple _ _ _ => Visit.settles_nil _
  | .definition head body =>
    leaveDefinition_settles (body.walk_settles (around.enter head.role))
  | .compound clauses => (walkClauses_settles around clauses).map

theorem Source.Suite.walk_settles (around : Surroundings) :
    ∀ suite : Suite, (suite.walk around).Settles (suite.requests around)
  | .inline _ _ => Visit.settles_nil _
  | .block _ _ body _ => (walkStatements_settles (around.enterBlock body) body).map
  | .cases _ _ clauses _ => (walkClauses_settles around clauses).map

theorem Source.Clause.walk_settles (around : Surroundings) :
    ∀ clause : Clause, (clause.walk around).Settles (clause.requests around)
  | .clause _ _ _ suite => (suite.walk_settles around).map

theorem walkStatements_settles (around : Surroundings) : ∀ statements : List Statement,
    (walkStatements around statements).Settles (requestsInStatements around statements)
  | [] => Visit.settles_nil _
  | first :: later => (first.walk_settles around).andThen (walkStatements_settles around later)

theorem walkClauses_settles (around : Surroundings) : ∀ clauses : List Clause,
    (walkClauses around clauses).Settles (requestsInClauses around clauses)
  | [] => Visit.settles_nil _
  | first :: later => (first.walk_settles around).andThen (walkClauses_settles around later)

end

theorem Source.SourceFile.visit_settles (file : SourceFile) (settings : Settings)
    (filename : Option Text) :
    (file.visit settings filename).Settles (file.requests settings filename) :=
  walkStatements_settles _ _

end OpenRecord
