import OpenRecord.Proofs.Expansion.Settlement
import OpenRecord.Proofs.Source.ImportLine

namespace OpenRecord

/-!
# What expansion returns

Expansion of a file that can be read has three ends.  It breaks off if an artifact of some accepted
class cannot be read again at its place.  Otherwise it returns: a report of every refusal, and then
nothing else, or the expanded file with the models and artifacts of all its requests.

All three are stated on the list of requests, so that the report of one refusal cannot depend on
whether there are others.
-/

open Source

/-! ## Outcomes in order -/

/-- The refusals among the outcomes of requests are those of the requests, in order. -/
theorem refusals_outcomes (requests : List Request) :
    refusals (requests.map Request.outcome) = requests.filterMap Request.refusal := by
  unfold refusals
  rw [List.filterMap_map]
  congr 1
  funext request
  simp only [Function.comp, Request.outcome_result, Request.refusal]
  cases request.verdict <;> rfl

/-- Requests of which none is refused have their models and artifacts side by side. -/
theorem accepted_of_no_refusal {requests : List Request}
    (clean : requests.filterMap Request.refusal = []) :
    ∃ accepted : List (RecordModel × List Artifact),
      requests.map Request.verdict = accepted.map .ok ∧
        acceptedModels (requests.map Request.outcome) = accepted.map (·.1) ∧
        acceptedArtifacts (requests.map Request.outcome) = accepted.flatMap (·.2) := by
  induction requests with
  | nil => exact ⟨[], rfl, rfl, rfl⟩
  | cons first later ih =>
    rw [List.filterMap_cons] at clean
    cases verdict : first.verdict with
    | error diagnostic => simp [Request.refusal, verdict] at clean
    | ok found =>
      rcases found with ⟨model, artifacts⟩
      have settled := first.outcome_result
      rw [verdict] at settled
      simp only [Except.map] at settled
      rcases ih (by simpa [Request.refusal, verdict] using clean) with
        ⟨accepted, verdicts, models, collected⟩
      refine ⟨(model, artifacts) :: accepted, ?_, ?_, ?_⟩
      · simp [verdict, verdicts]
      · simp only [List.map_cons, ← models, acceptedModels, List.filterMap_cons, settled,
          Request.outcome_model verdict]
      · simp only [List.map_cons, List.flatMap_cons, ← collected, acceptedArtifacts, settled]

/-! ## Imports -/

/-- The modules that generated code refers to have plain names. -/
theorem isName_of_required {models : List RecordModel} {name : Text}
    (required : name ∈ requiredImports models) : name.IsName := by
  have known : name = "dataclasses" ∨ name = "typing" ∨ name = "copy" := by
    unfold requiredImports at required
    split at required <;> split at required <;> simp_all
  rcases known with rfl | rfl | rfl <;> decide

/-- An expanded file with the imports that its models require, if they are wanted. -/
def withImports (settings : Settings) (models : List RecordModel) (file : SourceFile) :
    Option (SourceFile × List Text) :=
  if models.isEmpty || !settings.injectImports then some (file, [])
  else addImports (requiredImports models) file

/-- The imports that models require can always be added. -/
theorem isSome_withImports (settings : Settings) (models : List RecordModel) (file : SourceFile) :
    (withImports settings models file).isSome = true := by
  have readable : ((missingImports (requiredImports models) file.body).mapM
      importStatement?).isSome = true := by
    rw [isSome_mapM_iff]
    intro name missing
    have named := isName_of_required (List.mem_filter.1 missing).1
    exact Option.isSome_of_eq_some (parse?_import named)
  rcases Option.isSome_iff_exists.1 readable with ⟨added, same⟩
  unfold withImports addImports
  split
  · rfl
  · simp only [same, Option.bind_eq_bind, Option.bind_some]
    split <;> rfl

/-! ## The three ends of an expansion -/

section Ends

variable {settings : Settings} {code : Text} {filename : Option Text} {file : SourceFile}

/-- The walk over the file breaks off at an artifact that cannot be read at its place. -/
theorem expand_of_unfit (parsed : SourceFile.parse? code = some file)
    (unfit : ¬ ∀ request ∈ file.requests settings filename, request.Fits) :
    expand settings code filename = .error .unreadableArtifact := by
  have settles := file.visit_settles settings filename
  cases result : (file.visit settings filename).result with
  | some body => exact absurd (settles.ends.1 (by simp [result])) unfit
  | none => simp [expand, expandWithOutcomes, finishExpansion, parsed, result]

/-- If something is refused, the refusals are reported and nothing else is returned. -/
theorem expand_of_refused (parsed : SourceFile.parse? code = some file)
    (fit : ∀ request ∈ file.requests settings filename, request.Fits)
    (refused : (file.requests settings filename).filterMap Request.refusal ≠ []) :
    expand settings code filename =
      .ok (.failed code
        (((file.requests settings filename).filterMap Request.refusal).map .refused)) := by
  have settles := file.visit_settles settings filename
  have ended := settles.ends.2 fit
  have settled := refusals_outcomes (file.requests settings filename)
  rw [← settles.outcomes ended] at settled
  rcases Option.isSome_iff_exists.1 ended with ⟨body, result⟩
  rcases List.exists_cons_of_ne_nil refused with ⟨first, later, listed⟩
  rw [listed] at settled ⊢
  simp [expand, expandWithOutcomes, finishExpansion, parsed, result, settled]

theorem expand_of_accepted (parsed : SourceFile.parse? code = some file)
    (fit : ∀ request ∈ file.requests settings filename, request.Fits)
    (clean : (file.requests settings filename).filterMap Request.refusal = []) :
    ∃ (body : List Statement) (accepted : List (RecordModel × List Artifact))
      (finished : SourceFile) (added : List Text),
      (file.visit settings filename).result = some body ∧
        (file.requests settings filename).map Request.verdict = accepted.map .ok ∧
        withImports settings (accepted.map (·.1)) { file with body } = some (finished, added) ∧
        expand settings code filename =
          .ok ⟨finished.print, [], accepted.map (·.1), accepted.flatMap (·.2)⟩ := by
  have settles := file.visit_settles settings filename
  have ended := settles.ends.2 fit
  have outcomes := settles.outcomes ended
  rcases Option.isSome_iff_exists.1 ended with ⟨body, result⟩
  rcases accepted_of_no_refusal clean with ⟨accepted, verdicts, models, artifacts⟩
  have settled := refusals_outcomes (file.requests settings filename)
  rw [clean] at settled
  rcases Option.isSome_iff_exists.1
    (isSome_withImports settings (accepted.map (·.1)) { file with body }) with
    ⟨⟨finished, added⟩, imported⟩
  refine ⟨body, accepted, finished, added, result, verdicts, imported, ?_⟩
  unfold withImports at imported
  simp only [expand, expandWithOutcomes, parsed, finishExpansion, result, outcomes, settled,
    models, artifacts, imported]

/-- Expansion returns if every artifact can be read at its place. -/
theorem exists_expand_of_fit (parsed : SourceFile.parse? code = some file)
    (fit : ∀ request ∈ file.requests settings filename, request.Fits) :
    ∃ expansion, expand settings code filename = .ok expansion := by
  by_cases clean : (file.requests settings filename).filterMap Request.refusal = []
  · rcases expand_of_accepted parsed fit clean with ⟨_, _, _, _, -, -, -, returned⟩
    exact ⟨_, returned⟩
  · exact ⟨_, expand_of_refused parsed fit clean⟩

variable {expansion : Expansion}

/-- An expansion that returns has reported every refusal and holds nothing else, or nothing is
refused and it holds the expanded file with all models and artifacts. -/
theorem expand_eq_ok (parsed : SourceFile.parse? code = some file)
    (returned : expand settings code filename = .ok expansion) :
    ((file.requests settings filename).filterMap Request.refusal ≠ [] ∧
        expansion = .failed code
          (((file.requests settings filename).filterMap Request.refusal).map .refused)) ∨
      (file.requests settings filename).filterMap Request.refusal = [] ∧
        ∃ (body : List Statement) (accepted : List (RecordModel × List Artifact))
          (finished : SourceFile) (added : List Text),
          (file.visit settings filename).result = some body ∧
            (file.requests settings filename).map Request.verdict = accepted.map .ok ∧
            withImports settings (accepted.map (·.1)) { file with body } =
              some (finished, added) ∧
            expansion =
              ⟨finished.print, [], accepted.map (·.1), accepted.flatMap (·.2)⟩ := by
  by_cases fit : ∀ request ∈ file.requests settings filename, request.Fits
  case neg =>
    rw [expand_of_unfit parsed fit] at returned
    cases returned
  by_cases clean : (file.requests settings filename).filterMap Request.refusal = []
  case neg =>
    rw [expand_of_refused parsed fit clean] at returned
    exact .inl ⟨clean, (Except.ok.inj returned).symm⟩
  case pos =>
    rcases expand_of_accepted parsed fit clean with
      ⟨body, accepted, finished, added, walked, verdicts, imported, same⟩
    rw [same] at returned
    exact .inr ⟨clean, body, accepted, finished, added, walked, verdicts, imported,
      (Except.ok.inj returned).symm⟩

end Ends

/-! ## All refusals or none -/

/-- A diagnostic that is attached to a location and shows it in front of everything else. -/
def Diagnostic.StandsAt (diagnostic : Diagnostic) (location : Location) : Prop :=
  diagnostic.location = some location ∧ (location.text ++ ": " : Text) <+: diagnostic.format

theorem Diagnostic.standsAt_of_location {diagnostic : Diagnostic} {location : Location}
    (known : diagnostic.location = some location) : diagnostic.StandsAt location := by
  refine ⟨known, ?_⟩
  unfold Diagnostic.format
  rw [known]
  simp only [List.append_assoc]
  exact (List.prefix_append_right_inj _).2 (List.prefix_append _ _)

/-- The place of a request in a file of a given name. -/
def Request.placeIn (filename : Option Text) (request : Request) : Location :=
  ⟨filename, some request.head.position.line, some request.head.position.column⟩

/-- What an expansion of a text has to say about the requests of its file. -/
structure Expansion.AccountsFor (expansion : Expansion) (code : Text) (filename : Option Text)
    (requests : List Request) : Prop where
  /-- Each refused request is reported once, in order, and nothing else is. -/
  errors : expansion.errors = (requests.filterMap Request.refusal).map Diagnostic.format
  /-- A report stands at the place of the definition that it is about. -/
  located : ∀ request ∈ requests, ∀ diagnostic, request.refusal = some diagnostic →
    diagnostic.StandsAt (request.placeIn filename)
  /-- Success is the absence of reports. -/
  success : expansion.success = true ↔ ∀ request ∈ requests, request.refusal = none
  /-- On success every request has been accepted, and its model and artifacts are there. -/
  whole : expansion.success = true → ∃ accepted : List (RecordModel × List Artifact),
    requests.map Request.verdict = accepted.map .ok ∧ expansion.models = accepted.map (·.1) ∧
      expansion.artifacts = accepted.flatMap (·.2)
  /-- Otherwise nothing has been changed and nothing is there. -/
  untouched : expansion.success = false →
    expansion.code = code ∧ expansion.models = [] ∧ expansion.artifacts = []

namespace Request

theorem refusal_eq_some_iff {request : Request} {diagnostic : Diagnostic} :
    request.refusal = some diagnostic ↔ request.verdict = .error diagnostic := by
  unfold refusal
  cases request.verdict <;> simp

/-- A refusal stands at the place of the definition in its file. -/
theorem location_of_refusal {request : Request} {diagnostic : Diagnostic} {filename : Option Text}
    (refused : request.refusal = some diagnostic) (named : request.around.filename = filename) :
    diagnostic.location = some (request.placeIn filename) := by
  rw [verdict_error_location (refusal_eq_some_iff.1 refused), ← named]
  rfl

end Request

/-- No request of a list is refused exactly if the list of refusals is empty. -/
theorem forall_refusal_eq_none_iff {requests : List Request} :
    (∀ request ∈ requests, request.refusal = none) ↔
      requests.filterMap Request.refusal = [] :=
  List.filterMap_eq_nil_iff.symm

theorem Request.standsAt_of_refusal {settings : Settings} {filename : Option Text}
    {file : SourceFile} {request : Request} {diagnostic : Diagnostic}
    (member : request ∈ file.requests settings filename)
    (refused : request.refusal = some diagnostic) :
    diagnostic.StandsAt (request.placeIn filename) :=
  Diagnostic.standsAt_of_location
    (Request.location_of_refusal refused (SourceFile.sameFile_of_mem member).filename)

section Returned

variable {settings : Settings} {code : Text} {filename : Option Text} {file : SourceFile}
  {expansion : Expansion}

theorem errors_of_expand (parsed : SourceFile.parse? code = some file)
    (returned : expand settings code filename = .ok expansion) :
    expansion.errors =
      ((file.requests settings filename).filterMap Request.refusal).map Diagnostic.format := by
  rcases expand_eq_ok parsed returned with ⟨-, rfl⟩ | ⟨clean, _, _, _, _, -, -, -, rfl⟩
  · simp only [Expansion.errors, Expansion.failed, List.map_map]
    rfl
  · rw [clean]
    rfl

/-- Expansion succeeds exactly if nothing is refused. -/
theorem success_expand_iff (parsed : SourceFile.parse? code = some file)
    (returned : expand settings code filename = .ok expansion) :
    expansion.success = true ↔
      ∀ request ∈ file.requests settings filename, request.refusal = none := by
  rw [forall_refusal_eq_none_iff]
  rcases expand_eq_ok parsed returned with ⟨refused, rfl⟩ | ⟨clean, _, _, _, _, -, -, -, rfl⟩
  · simp [Expansion.success, Expansion.failed, refused]
  · exact iff_of_true rfl clean

theorem reported_of_refusal {request : Request} {diagnostic : Diagnostic}
    (parsed : SourceFile.parse? code = some file)
    (returned : expand settings code filename = .ok expansion)
    (member : request ∈ file.requests settings filename)
    (refused : request.refusal = some diagnostic) :
    expansion.success = false ∧ diagnostic.StandsAt (request.placeIn filename) ∧
      diagnostic.format ∈ expansion.errors := by
  refine ⟨?_, Request.standsAt_of_refusal member refused, ?_⟩
  · rw [← Bool.not_eq_true, success_expand_iff parsed returned]
    intro clean
    rw [clean request member] at refused
    cases refused
  · rw [errors_of_expand parsed returned]
    exact List.mem_map_of_mem (List.mem_filterMap.2 ⟨request, member, refused⟩)

/-- A successful expansion refuses nothing and holds the expanded file with all models and
artifacts. -/
theorem expand_of_success (parsed : SourceFile.parse? code = some file)
    (returned : expand settings code filename = .ok expansion)
    (succeeded : expansion.success = true) :
    (∀ request ∈ file.requests settings filename, request.refusal = none) ∧
      ∃ (body : List Statement) (accepted : List (RecordModel × List Artifact))
        (finished : SourceFile) (added : List Text),
        (file.visit settings filename).result = some body ∧
          (file.requests settings filename).map Request.verdict = accepted.map .ok ∧
          withImports settings (accepted.map (·.1)) { file with body } = some (finished, added) ∧
          expansion = ⟨finished.print, [], accepted.map (·.1), accepted.flatMap (·.2)⟩ := by
  have clean := (success_expand_iff parsed returned).1 succeeded
  rcases expand_eq_ok parsed returned with ⟨refused, -⟩ | ⟨-, whole⟩
  · exact absurd (forall_refusal_eq_none_iff.1 clean) refused
  · exact ⟨clean, whole⟩

/-- An expansion without success leaves the text as it is and holds nothing. -/
theorem untouched_of_expand (parsed : SourceFile.parse? code = some file)
    (returned : expand settings code filename = .ok expansion)
    (failed : expansion.success = false) :
    expansion.code = code ∧ expansion.models = [] ∧ expansion.artifacts = [] := by
  rcases expand_eq_ok parsed returned with ⟨-, rfl⟩ | ⟨-, _, _, _, _, -, -, -, rfl⟩
  · exact ⟨rfl, rfl, rfl⟩
  · cases failed

/-- An expansion that returns accounts for every request of its file. -/
theorem expand_accountsFor (parsed : SourceFile.parse? code = some file)
    (returned : expand settings code filename = .ok expansion) :
    expansion.AccountsFor code filename (file.requests settings filename) where
  errors := errors_of_expand parsed returned
  located _ member _ refused := Request.standsAt_of_refusal member refused
  success := success_expand_iff parsed returned
  whole succeeded := by
    rcases expand_of_success parsed returned succeeded with
      ⟨-, _, accepted, _, _, -, verdicts, -, rfl⟩
    exact ⟨accepted, verdicts, rfl, rfl⟩
  untouched failed := untouched_of_expand parsed returned failed

end Returned

/-- A class that asks for mutation alone, and a function that asks for a companion. -/
def twoRefusals : Text :=
  "@mutation\nclass A: x: int\n@destructure\ndef f(): pass\n"

/-- Both definitions of the example are reported. -/
theorem expand_twoRefusals_accountsFor : ∃ file expansion,
    SourceFile.parse? twoRefusals = some file ∧
      expand .default twoRefusals none = .ok expansion ∧ expansion.errors.length = 2 ∧
      expansion.AccountsFor twoRefusals none (file.requests .default none) := by
  have readable : (SourceFile.parse? twoRefusals).isSome = true := by decide +kernel
  have reported : (match expand .default twoRefusals none with
      | .ok expansion => expansion.errors.length
      | .error _ => 0) = 2 := by decide +kernel
  rcases Option.isSome_iff_exists.1 readable with ⟨file, parsed⟩
  cases returned : expand .default twoRefusals none with
  | error fault =>
    rw [returned] at reported
    cases reported
  | ok expansion =>
    rw [returned] at reported
    exact ⟨file, expansion, parsed, rfl, reported, expand_accountsFor parsed returned⟩

/-! ## When expansion returns -/

/-- An expansion that is a success, or that leaves the text as it is and says why. -/
def Expansion.Settled (expansion : Expansion) (code : Text) : Prop :=
  expansion.success = true ∨
    expansion.code = code ∧ expansion.errors ≠ [] ∧ expansion.models = [] ∧
      expansion.artifacts = []

theorem expand_settled {settings : Settings} {code : Text} {filename : Option Text}
    {expansion : Expansion} (returned : expand settings code filename = .ok expansion) :
    expansion.Settled code := by
  cases parsed : SourceFile.parse? code with
  | none =>
    simp only [expand, expandWithOutcomes, parsed] at returned
    cases returned
    exact .inr ⟨rfl, by simp [Expansion.errors, Expansion.failed], rfl, rfl⟩
  | some file =>
    cases success : expansion.success with
    | true => exact .inl success
    | false =>
      have same := untouched_of_expand parsed returned success
      refine .inr ⟨same.1, ?_, same.2⟩
      intro silent
      have reports : expansion.reports = [] := List.map_eq_nil_iff.1 silent
      rw [Expansion.success, reports] at success
      cases success

/-- The artifacts of an accepted request, each read at its place in the file. -/
theorem Request.fits_iff {settings : Settings} {filename : Option Text} {file : SourceFile}
    {request : Request} (member : request ∈ file.requests settings filename) :
    request.Fits ↔ ∀ model artifacts, request.verdict = .ok (model, artifacts) →
      ∀ artifact ∈ artifacts, ∃ statement,
        spliced file.defaultIndent (request.margin artifact.placement) artifact =
          some statement := by
  have unit : request.around.unit = file.defaultIndent :=
    (SourceFile.sameFile_of_mem member).unit
  unfold Fits reads
  simp only [unit, Option.isSome_iff_exists]

/-- Expansion returns a settled result exactly if every artifact of every accepted class, rewritten
for the indentation of the file and the column of the class, is read again as one statement.  Nothing
else in the file, and no addition of imports, can keep it from returning. -/
theorem expand_returns_iff (settings : Settings) (code : Text) (filename : Option Text) :
    (∃ expansion, expand settings code filename = .ok expansion ∧ expansion.Settled code) ↔
      ∀ file, SourceFile.parse? code = some file →
        ∀ request ∈ file.requests settings filename,
          ∀ model artifacts, request.verdict = .ok (model, artifacts) →
            ∀ artifact ∈ artifacts, ∃ statement,
              spliced file.defaultIndent (request.margin artifact.placement) artifact =
                some statement := by
  constructor
  · rintro ⟨expansion, returned, -⟩ file parsed request member
    rw [← Request.fits_iff member]
    refine Classical.byContradiction fun unfit => ?_
    rw [expand_of_unfit parsed fun fit => unfit (fit request member)] at returned
    cases returned
  · intro fit
    have returns : ∃ expansion, expand settings code filename = .ok expansion := by
      cases parsed : SourceFile.parse? code with
      | none => exact ⟨.failed code [.unreadable], by simp [expand, expandWithOutcomes, parsed]⟩
      | some file =>
        refine exists_expand_of_fit parsed fun request member => ?_
        exact (Request.fits_iff member).2 (fit file parsed request member)
    rcases returns with ⟨expansion, returned⟩
    exact ⟨expansion, returned, expand_settled returned⟩

end OpenRecord
