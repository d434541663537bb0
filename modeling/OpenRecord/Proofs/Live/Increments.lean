import Mathlib.Data.List.Flatten
import Mathlib.Data.List.Infix
import OpenRecord.Proofs.Live.Bookkeeping

namespace OpenRecord

/-!
# Installing step by step and all at once

The artifacts of a capability do not depend on which other capabilities are requested.  So what is
generated for some capabilities is a part of what is generated for more of them, and applications
that follow each other, in whatever order, have together installed what one generation for all
installed capabilities yields, each artifact once.

Nothing is said here about what a definition does when it is run; the applications are those whose
code does not fail.
-/

/-! ## Artifacts of fewer capabilities -/

def RecordModel.requesting (model : RecordModel) (capabilities : Capabilities) : RecordModel :=
  { model with capabilities }

/-- Whether an artifact comes from one of some capabilities. -/
def Artifact.isFrom (capabilities : Capabilities) (artifact : Artifact) : Bool :=
  capabilities.contains artifact.kind.capability

/-- The kinds of artifacts that a capability brings in. -/
def Capability.artifactKinds : Capability → List ArtifactKind
  | .destructure => [.companionType, .conversion, .restore]
  | .mutation => [.mutationView, .reconstruct, .substitute]
  | .destructureRef => [.referenceView, .asDestruct]

theorem map_kind_capabilityArtifacts (model : RecordModel) (settings : Settings)
    (capability : Capability) :
    (capabilityArtifacts model settings capability).map (·.kind) = capability.artifactKinds := by
  cases capability <;> rfl

theorem capabilityArtifacts_requesting (model : RecordModel) (settings : Settings)
    (capabilities : Capabilities) (capability : Capability) :
    capabilityArtifacts (model.requesting capabilities) settings capability =
      capabilityArtifacts model settings capability := by
  cases capability <;> rfl

theorem synthesize_requesting (model : RecordModel) (settings : Settings)
    (capabilities : Capabilities) :
    synthesize (model.requesting capabilities) settings =
      (Capability.all.filter capabilities.contains).flatMap
        (capabilityArtifacts model settings) := by
  apply List.flatMap_congr
  intro capability _
  exact capabilityArtifacts_requesting model settings capabilities capability

/-- A choice by capability takes all artifacts of a capability or none of them. -/
theorem filter_capabilityArtifacts (model : RecordModel) (settings : Settings)
    (chosen : Capability → Bool) (capability : Capability) :
    (capabilityArtifacts model settings capability).filter
        (fun artifact => chosen artifact.kind.capability) =
      if chosen capability then capabilityArtifacts model settings capability else [] := by
  have same : ∀ artifact ∈ capabilityArtifacts model settings capability,
      chosen artifact.kind.capability = chosen capability :=
    fun artifact member => congrArg chosen (Live.capability_of_mem member)
  cases choice : chosen capability with
  | true =>
    rw [if_pos rfl, List.filter_eq_self]
    intro artifact member
    rw [same artifact member, choice]
  | false =>
    rw [if_neg Bool.false_ne_true, List.filter_eq_nil_iff]
    intro artifact member
    rw [same artifact member, choice]
    exact Bool.false_ne_true

/-- Choosing artifacts by their capabilities is choosing among the capabilities. -/
theorem filter_synthesize (model : RecordModel) (settings : Settings)
    (capabilities : Capabilities) (chosen : Capability → Bool) :
    (synthesize (model.requesting capabilities) settings).filter
        (fun artifact => chosen artifact.kind.capability) =
      (Capability.all.filter fun capability =>
        chosen capability && capabilities.contains capability).flatMap
          (capabilityArtifacts model settings) := by
  rw [synthesize_requesting, ← List.filter_filter]
  induction Capability.all.filter capabilities.contains with
  | nil => rfl
  | cons capability later ih =>
    rw [List.flatMap_cons, List.filter_append, ih, filter_capabilityArtifacts, List.filter_cons]
    cases chosen capability with
    | true => rw [if_pos rfl, if_pos rfl, List.flatMap_cons]
    | false => rfl

/-- What is generated for some capabilities is chosen from what is generated for more. -/
theorem filter_synthesize_isFrom {smaller larger : Capabilities}
    (among : ∀ capability, smaller.contains capability = true →
      larger.contains capability = true) (model : RecordModel) (settings : Settings) :
    (synthesize (model.requesting larger) settings).filter (·.isFrom smaller) =
      synthesize (model.requesting smaller) settings := by
  have both : ∀ capability, (smaller.contains capability && larger.contains capability) =
      smaller.contains capability := by
    intro capability
    cases contained : smaller.contains capability with
    | false => rfl
    | true => rw [among capability contained, Bool.and_self]
  calc (synthesize (model.requesting larger) settings).filter (·.isFrom smaller)
      = (Capability.all.filter fun capability =>
          smaller.contains capability && larger.contains capability).flatMap
            (capabilityArtifacts model settings) :=
        filter_synthesize model settings larger smaller.contains
    _ = (Capability.all.filter smaller.contains).flatMap (capabilityArtifacts model settings) := by
        simp only [both]
    _ = synthesize (model.requesting smaller) settings :=
        (synthesize_requesting model settings smaller).symm

/-- No kind of artifact is generated twice. -/
theorem nodup_kind_synthesize (model : RecordModel) (settings : Settings) :
    ((synthesize model settings).map (·.kind)).Nodup := by
  have kinds : (synthesize model settings).map (·.kind) =
      model.requested.flatMap (·.artifactKinds) := by
    rw [synthesize, List.map_flatMap]
    simp only [map_kind_capabilityArtifacts]
  rw [kinds]
  have all : (Capability.all.flatMap (·.artifactKinds)).Nodup := by decide
  exact all.sublist (List.filter_sublist.flatMap _)

namespace Live

/-! ## What an application adds -/

/-- The artifacts that an application sets out to define and install. -/
def Application.adds (application : Application) (type : Nat) (session : Session) :
    List Artifact :=
  match (planApplication application.capability application.given type).run session with
  | (.ok (some plan), _) => plan.pending
  | _ => []

/-- The artifacts that several applications set out to define and install, one after the other. -/
def addedByEach (type : Nat) : List Application → Session → List Artifact
  | [], _ => []
  | application :: later, session =>
    application.adds type session ++ addedByEach type later
      ((applyCapability application.capability application.given (.type type)).run session).2

section Application

variable {session : Session} {type : Nat} {live : LiveType} {application : Application}

theorem capabilities_of_install {plan : Plan} {after : Session}
    (known : session.types[type]? = some live)
    (ready : ∀ installation ∈ live.installed, session.Binds installation.scope [])
    (installs : (install type live.installed plan).run session = (.ok (), after)) :
    ∃ later installation, after.types[type]? = some later ∧ later.installed = some installation ∧
      installation.capabilities =
        (installedCapabilities live.installed).union plan.model.capabilities := by
  have registers : session.Registers type live.name live.installed [] :=
    ⟨live, known, rfl, rfl, fun method member => absurd member List.not_mem_nil⟩
  rcases run_install plan registers ready with ⟨failure, last, failed⟩ | ⟨last, types, ran, ⟨later,
    stillKnown, -, installed, -⟩, -⟩
  · rw [failed] at installs
    cases installs
  · rw [ran] at installs
    cases installs
    refine ⟨later, _, stillKnown, installed, ?_⟩
    cases live.installed <;> rfl

theorem pendingArtifacts_eq (installed : Option Installation) (artifacts : List Artifact) :
    pendingArtifacts installed artifacts =
      artifacts.filter fun artifact => !artifact.isFrom (installedCapabilities installed) :=
  rfl

/-- The class has its books in order, and what has been added to it is all that is generated for
its capabilities. -/
def Session.Complete (session : Session) (type : Nat) (extracted : RecordModel)
    (settings : Settings) (added : List Artifact) : Prop :=
  ∃ live installation scope artifacts, session.types[type]? = some live ∧
    live.InOrder installation ∧ installation.settings = settings ∧
    session.Binds installation.scope [] ∧
    generate (extracted.requesting installation.capabilities) settings scope = .ok artifacts ∧
    added.Perm artifacts

theorem complete_of_install {extracted : RecordModel} {scope : Option (List Text)} {plan : Plan}
    {added : List Artifact} {after : Session} {capability : Capability} {given : Option Settings}
    (known : session.types[type]? = some live)
    (books : ∀ installation ∈ live.installed,
      live.InOrder installation ∧ session.Binds installation.scope [])
    (named : extracted.typeName = live.name)
    (planned : planInstallation live.installed capability given extracted scope = .ok plan)
    (whole : added.Perm (synthesize
      (extracted.requesting (installedCapabilities live.installed))
      (effectiveSettings live.installed given)))
    (installs : (install type live.installed plan).run session = (.ok (), after)) :
    after.Complete type extracted (effectiveSettings live.installed given)
      (added ++ plan.pending) := by
  obtain ⟨settings, model, pending, -⟩ := planInstallation_eq_ok planned
  obtain ⟨later, installation, stillKnown, installed, capabilities⟩ :=
    capabilities_of_install known (fun other member => (books other member).2) installs
  rcases run_install_inOrder known books named planned with
    ⟨failure, last, failed⟩ | ⟨last, ran, inOrder⟩
  · rw [failed] at installs
    cases installs
  rw [ran] at installs
  cases installs
  obtain ⟨other, its, knownAgain, inOrder, sameSettings, ready⟩ := inOrder
  obtain rfl := Option.some.inj (stillKnown.symm.trans knownAgain)
  obtain rfl := Option.some.inj (installed.symm.trans inOrder.installed)
  -- the model of the plan asks for what is installed now
  have request : plan.model = extracted.requesting installation.capabilities := by
    rw [capabilities, model, union_requestedModel]
    rfl
  have among : ∀ other, (installedCapabilities live.installed).contains other = true →
      installation.capabilities.contains other = true := by
    intro other contained
    rw [capabilities, Capabilities.contains_union, contained, Bool.true_or]
  have generated := generate_of_planned planned
  rw [request, settings] at generated
  refine ⟨later, installation, scope, _, stillKnown, inOrder, sameSettings, ready, generated, ?_⟩
  have old := filter_synthesize_isFrom among extracted (effectiveSettings live.installed given)
  rw [← old] at whole
  rw [pending, request, settings, pendingArtifacts_eq]
  exact (whole.append_right _).trans (List.filter_append_perm _ _)

theorem run_application {outcome : Except Fault Value} {after : Session}
    (known : session.types[type]? = some live)
    (ran : (applyCapability application.capability application.given (.type type)).run session =
      (outcome, after))
    (executes : ∀ failure, outcome ≠ .error (.failed failure))
    (books : ∀ installation ∈ live.installed, session.Binds installation.scope []) :
    (outcome.isOk = false ∧ after = session ∧ application.adds type session = []) ∨
      (outcome.isOk = true ∧ live.installed ≠ none ∧ after = session ∧
        application.adds type session = []) ∨
      (outcome.isOk = true ∧ ∃ extracted scope plan,
        (readModel type).run session = (.ok extracted, session) ∧
        extracted.typeName = live.name ∧
        planInstallation live.installed application.capability application.given extracted scope =
          .ok plan ∧
        application.adds type session = plan.pending ∧
        (install type live.installed plan).run session = (.ok (), after)) := by
  rw [applyCapability, ← map_eq_pure_bind, run_map, run_applyToType_planned] at ran
  unfold Application.adds
  rcases run_planApplication known application.capability application.given with
    ⟨fault, -, refused⟩ | ⟨contained, found⟩ | ⟨extracted, plan, read, named, planned, plans⟩
  · rw [refused] at ran ⊢
    cases ran
    exact .inl ⟨rfl, rfl, rfl⟩
  · rw [found] at ran ⊢
    cases ran
    refine .inr (.inl ⟨rfl, ?_, rfl, rfl⟩)
    intro fresh
    rw [fresh] at contained
    exact absurd contained (by cases application.capability <;> decide)
  · rw [plans, known, Option.bind_some] at ran
    rw [plans]
    have registers : session.Registers type live.name live.installed [] :=
      ⟨live, known, rfl, rfl, fun method member => absurd member List.not_mem_nil⟩
    rcases run_install plan registers books with ⟨failure, last, failed⟩ | ⟨last, types, done, -⟩
    · simp only [failed] at ran
      cases ran
      exact absurd rfl (executes failure)
    · simp only [done] at ran
      cases ran
      exact .inr (.inr ⟨rfl, extracted, _, plan, read, named, planned, rfl, done⟩)

end Application

/-! ## What several applications add -/

/-- Whenever one of several applications to a class has its turn, the class is read as the same
model if it is read at all. -/
def ReadsAs (type : Nat) (extracted : RecordModel) (applications : List Application)
    (session : Session) : Prop :=
  ∀ earlier, earlier <+: applications → ∀ model,
    ((readModel type).run (applyEach type earlier session).2).1 = .ok model → model = extracted

section Runs

variable {session : Session} {type : Nat} {extracted : RecordModel}

theorem ReadsAs.first {applications : List Application} {model : RecordModel}
    (reads : ReadsAs type extracted applications session)
    (read : ((readModel type).run session).1 = .ok model) : model = extracted :=
  reads [] List.nil_prefix model read

theorem ReadsAs.later {application : Application} {later : List Application}
    {outcome : Except Fault Value} {after : Session}
    (reads : ReadsAs type extracted (application :: later) session)
    (ran : (applyCapability application.capability application.given (.type type)).run session =
      (outcome, after)) : ReadsAs type extracted later after := by
  intro earlier before model read
  apply reads (application :: earlier) (List.cons_prefix_cons.2 ⟨rfl, before⟩) model
  rw [applyEach_cons ran]
  exact read

theorem addedByEach_cons {application : Application} {later : List Application}
    {outcome : Except Fault Value} {after : Session}
    (ran : (applyCapability application.capability application.given (.type type)).run session =
      (outcome, after)) :
    addedByEach type (application :: later) session =
      application.adds type session ++ addedByEach type later after := by
  rw [addedByEach, ran]

theorem complete_applyEach {settings : Settings} {added : List Artifact}
    {applications : List Application}
    (complete : session.Complete type extracted settings added)
    (executes : ∀ outcome ∈ (applyEach type applications session).1, ∀ failure,
      outcome ≠ .error (.failed failure))
    (reads : ReadsAs type extracted applications session) :
    (applyEach type applications session).2.Complete type extracted settings
      (added ++ addedByEach type applications session) := by
  induction applications generalizing session added with
  | nil =>
    rw [addedByEach, List.append_nil]
    exact complete
  | cons application later ih =>
    rcases ran : (applyCapability application.capability application.given (.type type)).run
      session with ⟨outcome, after⟩
    rw [applyEach_cons ran] at executes ⊢
    rw [addedByEach_cons ran, ← List.append_assoc]
    rw [List.forall_mem_cons] at executes
    apply ih _ executes.2 (reads.later ran)
    obtain ⟨live, installation, scope, artifacts, known, books, same, ready, generated, whole⟩ :=
      complete
    have held : ∀ other ∈ live.installed, live.InOrder other ∧ session.Binds other.scope [] := by
      intro other member
      rw [books.installed] at member
      obtain rfl := Option.mem_some_iff.1 member
      exact ⟨books, ready⟩
    have unchanged : session.Complete type extracted settings (added ++ []) := by
      rw [List.append_nil]
      exact ⟨live, installation, scope, artifacts, known, books, same, ready, generated, whole⟩
    rcases run_application known ran executes.1 (fun other member => (held other member).2) with
      ⟨-, rfl, nothing⟩ | ⟨-, -, rfl, nothing⟩ | ⟨-, model, free, plan, read, named, planned,
        adds, installs⟩
    · rw [nothing]
      exact unchanged
    · rw [nothing]
      exact unchanged
    · obtain rfl := reads.first (congrArg Prod.fst read)
      have settled : effectiveSettings live.installed application.given = settings := by
        rw [books.installed]
        exact same
      rw [adds, ← settled]
      apply complete_of_install known held named planned _ installs
      rw [settled, books.installed, installedCapabilities, ← (generate_eq_ok generated).1]
      exact whole

/-- Fewer capabilities bring in a part of the artifacts, chosen by their kinds; and applications in
any order and number, once one of them has succeeded, have together added all artifacts of the
capabilities that are installed then, each of them once, under the settings of the first one that
succeeded. -/
theorem increments_make_whole :
    (∀ (model : RecordModel) (settings : Settings) (scope : Option (List Text))
      (smaller larger : Capabilities) (some_ all : List Artifact),
      (∀ capability, smaller.contains capability = true → larger.contains capability = true) →
      generate (model.requesting smaller) settings scope = .ok some_ →
      generate (model.requesting larger) settings scope = .ok all →
      some_ = all.filter (·.isFrom smaller)) ∧
    ∀ (session : Session) (type : Nat) (live : LiveType) (extracted : RecordModel)
      (applications : List Application),
      session.types[type]? = some live → live.installed = none →
      (∀ outcome ∈ (applyEach type applications session).1, ∀ failure,
        outcome ≠ .error (.failed failure)) →
      ReadsAs type extracted applications session →
      ((∀ outcome ∈ (applyEach type applications session).1, outcome.isOk = false) ∧
          (applyEach type applications session).2 = session ∧
          addedByEach type applications session = []) ∨
        ∃ first outcome later installation scope artifacts,
          (applications.zip (applyEach type applications session).1).find? (·.2.isOk) =
              some (first, outcome) ∧
            (applyEach type applications session).2.types[type]? = some later ∧
            later.InOrder installation ∧
            installation.settings = first.given.getD Settings.default ∧
            generate (extracted.requesting installation.capabilities) installation.settings scope =
              .ok artifacts ∧
            (artifacts.map (·.kind)).Nodup ∧
            (addedByEach type applications session).Perm artifacts := by
  constructor
  · intro model settings scope smaller larger some_ all among fewer more
    rw [(generate_eq_ok fewer).1, (generate_eq_ok more).1]
    exact (filter_synthesize_isFrom among model settings).symm
  · intro session type live extracted applications known fresh executes reads
    induction applications with
    | nil => exact .inl ⟨List.forall_mem_nil _, rfl, rfl⟩
    | cons application applications ih =>
      rcases ran : (applyCapability application.capability application.given (.type type)).run
        session with ⟨outcome, after⟩
      rw [applyEach_cons ran] at executes ⊢
      rw [addedByEach_cons ran, List.zip_cons_cons, List.find?_cons, List.forall_mem_cons]
      rw [List.forall_mem_cons] at executes
      have held : ∀ other ∈ live.installed,
          live.InOrder other ∧ session.Binds other.scope [] := by
        intro other member
        rw [fresh] at member
        cases member
      have readsLater := reads.later ran
      rcases run_application known ran executes.1 (fun other member => (held other member).2) with
        ⟨refused, rfl, nothing⟩ | ⟨-, present, -⟩ | ⟨succeeded, model, free, plan, read, named,
          planned, adds, installs⟩
      -- a refused application leaves the session that the others start from
      · rw [refused, nothing, List.nil_append]
        refine (ih executes.2 readsLater).imp_left fun unchanged => ?_
        exact ⟨⟨rfl, unchanged.1⟩, unchanged.2⟩
      · exact absurd fresh present
      · obtain rfl := reads.first (congrArg Prod.fst read)
        have begins : ([] : List Artifact).Perm (synthesize
            (model.requesting (installedCapabilities live.installed))
            (effectiveSettings live.installed application.given)) := by
          rw [fresh]
          exact List.Perm.refl []
        have complete := complete_of_install known held named planned begins installs
        rw [List.nil_append, ← adds] at complete
        obtain ⟨later, installation, scope, artifacts, stillKnown, books, same, -, generated,
          whole⟩ := complete_applyEach complete executes.2 readsLater
        rw [succeeded]
        refine .inr ⟨application, outcome, later, installation, scope, artifacts, rfl, stillKnown,
          books, ?_, ?_, ?_, whole⟩
        · rw [same, fresh]
          rfl
        · rw [same]
          exact generated
        · rw [(generate_eq_ok generated).1]
          exact nodup_kind_synthesize _ _

end Runs

/-- A writable view is asked for too early, between the other capabilities. -/
def pointIncrements : List Application :=
  [⟨.destructureRef, some openSettings⟩, ⟨.mutation, none⟩, ⟨.destructure, none⟩]

/-- The class as it is read, with no capability of its own. -/
def pointModel : RecordModel :=
  { typeName := "P"
    genericStyle := .none
    genericParameters := []
    genericBase := none
    fields := [⟨"x", "int", 0, .isPublic, false⟩]
    capabilities := .empty
    memberNames := []
    location := some ⟨some moduleFile, some 1, some 0⟩ }

/-- A refusal between two successes. -/
def isRefusedBetween : List (Except Fault Value) → Bool
  | [.ok _, .error (.refused _), .ok _] => true
  | _ => false

/-- What the class is read as on the way, and what comes of the applications, evaluated together. -/
theorem pointIncrements_evaluated :
    (∀ earlier ∈ pointIncrements.inits,
      (match ((readModel 0).run (applyEach 0 earlier pointSession).2).1 with
        | .ok model => decide (model = pointModel)
        | .error _ => true) = true) ∧
      isRefusedBetween (applyEach 0 pointIncrements pointSession).1 = true := by
  decide +kernel

theorem pointSession_readsAs : ReadsAs 0 pointModel pointIncrements pointSession := by
  intro earlier before model read
  have same := pointIncrements_evaluated.1 earlier ((List.mem_inits _ _).2 before)
  rw [read] at same
  exact of_decide_eq_true same

theorem pointIncrements_outcomes : ∃ first diagnostic second after,
    applyEach 0 pointIncrements pointSession =
      ([.ok first, .error (.refused diagnostic), .ok second], after) := by
  have checked := pointIncrements_evaluated.2
  generalize applyEach 0 pointIncrements pointSession = result at checked ⊢
  obtain ⟨outcomes, after⟩ := result
  dsimp only at checked
  unfold isRefusedBetween at checked
  split at checked
  · exact ⟨_, _, _, _, rfl⟩
  · cases checked

theorem pointModel_generates (capability : Capability) (allowed : capability ≠ .mutation) :
    ∃ artifacts, generate (pointModel.requesting (.insert (.insert .empty .destructure) capability))
      openSettings none = .ok artifacts := by
  have succeeds : (generate (pointModel.requesting
      (.insert (.insert .empty .destructure) capability)) openSettings none).isOk = true := by
    cases capability with
    | mutation => exact absurd rfl allowed
    | destructure => decide +kernel
    | destructureRef => decide +kernel
  cases generated : generate (pointModel.requesting
      (.insert (.insert .empty .destructure) capability)) openSettings none with
  | ok artifacts => exact ⟨artifacts, rfl⟩
  | error diagnostic =>
    rw [generated] at succeeds
    cases succeeds

/-- What is generated for a companion alone is a part of what is generated for a companion and a
view, and both are installed one after the other as if they had been asked for at once. -/
theorem pointSession_increments :
    (∃ some_ all,
      generate (pointModel.requesting (.insert (.insert .empty .destructure) .destructure))
          openSettings none = .ok some_ ∧
        generate (pointModel.requesting (.insert (.insert .empty .destructure) .destructureRef))
          openSettings none = .ok all ∧
        some_ = all.filter (·.isFrom (.insert (.insert .empty .destructure) .destructure))) ∧
      ∃ later installation scope artifacts,
        (applyEach 0 pointIncrements pointSession).2.types[0]? = some later ∧
          later.InOrder installation ∧
          installation.settings = openSettings ∧
          generate (pointModel.requesting installation.capabilities) installation.settings scope =
            .ok artifacts ∧
          (addedByEach 0 pointIncrements pointSession).Perm artifacts := by
  obtain ⟨filters, wholes⟩ := increments_make_whole
  constructor
  · obtain ⟨some_, fewer⟩ := pointModel_generates .destructure nofun
    obtain ⟨all, more⟩ := pointModel_generates .destructureRef nofun
    refine ⟨some_, all, fewer, more, filters pointModel openSettings none _ _ _ _ ?_ fewer more⟩
    intro capability
    cases capability <;> decide
  · obtain ⟨first, diagnostic, second, after, ran⟩ := pointIncrements_outcomes
    have known : pointSession.types[0]? = some pointType := rfl
    have fresh : pointType.installed = none := rfl
    have executes : ∀ outcome ∈ (applyEach 0 pointIncrements pointSession).1, ∀ failure,
        outcome ≠ .error (.failed failure) := by
      rintro outcome member failure rfl
      rw [ran] at member
      simp at member
    rcases wholes pointSession 0 pointType pointModel pointIncrements known fresh executes
      pointSession_readsAs with ⟨refused, -⟩ | ⟨first, outcome, later, installation, scope,
        artifacts, found, stillKnown, books, settings, generated, -, whole⟩
    · rw [ran] at refused
      cases refused (.ok _) List.mem_cons_self
    · rw [ran] at found
      cases found
      exact ⟨later, installation, scope, artifacts, stillKnown, books, settings, generated, whole⟩

end Live
end OpenRecord
