import OpenRecord.Proofs.Live.Bookkeeping
import OpenRecord.Proofs.Live.Defining

namespace OpenRecord
namespace Live

/-!
# What a failed application leaves behind

An application that is refused changes nothing.  One whose code fails has begun the installation of
its class before, so that the class is known as one with an installation then, though nothing is
installed on it; and the scope of the generated code keeps what had been defined by then.  Neither
the attributes of the class nor the names of the module are touched: they are written when
everything is defined.

All this is said of modules in which the names of decorators stand for nothing with code, and of any
number of applications in front of the one that fails, whatever they came to.
-/

/-! ## Scopes without code under the names of decorators -/

/-- No name of a decorator has a value with code in a scope. -/
def Session.HasInert (session : Session) (scope : Nat) : Prop :=
  ∃ table, session.scopes[scope]? = some table ∧ NameTable.IsInert table

/-- None of the types that are generated for a class has the name of a decorator. -/
def Settings.SparesDecorators (settings : Settings) (name : Text) : Prop :=
  ∀ capability : Capability, capability.typeName settings name ∉ decoratorNames

/-- A class around which no name of a decorator has a value with code, neither in the module nor in
the scope of its generated code. -/
structure Session.Quiet (session : Session) (type : Nat) (live : LiveType) : Prop where
  known : session.types[type]? = some live
  named : live.name ∉ decoratorNames
  module : session.HasInert moduleScope
  installed : ∀ installation ∈ live.installed, installation.scope ≠ moduleScope ∧
    session.HasInert installation.scope ∧
    Settings.SparesDecorators installation.settings live.name

theorem Session.HasInert.of_scopes {before after : Session} {scope : Nat}
    (inert : before.HasInert scope) (same : after.scopes = before.scopes) :
    after.HasInert scope := by
  obtain ⟨table, known, rest⟩ := inert
  exact ⟨table, same ▸ known, rest⟩

theorem inert_surroundingNames {session : Session} {type : Nat} {live : LiveType}
    (quiet : session.Quiet type live) : NameTable.IsInert (surroundingNames session type) := by
  obtain ⟨table, known, inert⟩ := quiet.module
  have module : NameTable.IsInert session.module := by
    rw [Session.module, known]
    exact inert
  have other : session.nameOf type ∉ decoratorNames := by
    rw [Session.nameOf, quiet.known]
    exact quiet.named
  exact ((((module.put fun _ => rfl).put fun _ => rfl).put fun _ => rfl).put fun _ => rfl).put
    fun member => absurd member other

section Beginning

variable {session : Session} {type : Nat} {live : LiveType} (quiet : session.Quiet type live)
include quiet

theorem known_beginning (plan : Plan) :
    (session.beginning type live.installed plan).types[type]? =
      some { live with installed := some (begun live.installed plan session.scopes.length) } := by
  cases installed : live.installed with
  | some installation =>
    have same : live = { live with installed := some installation } := by rw [← installed]
    exact quiet.known.trans (congrArg some same)
  | none =>
    rw [Session.beginning, Session.withType, List.getElem?_modify_eq, quiet.known]
    rfl

theorem inert_beginning (plan : Plan) :
    (begun live.installed plan session.scopes.length).scope ≠ moduleScope ∧
      (session.beginning type live.installed plan).HasInert
        (begun live.installed plan session.scopes.length).scope ∧
      (session.beginning type live.installed plan).HasInert moduleScope ∧
      (session.beginning type live.installed plan).module = session.module := by
  cases installed : live.installed with
  | some installation =>
    obtain ⟨elsewhere, inert, -⟩ := quiet.installed installation (by rw [installed]; rfl)
    exact ⟨elsewhere, inert, quiet.module, rfl⟩
  | none =>
    obtain ⟨table, known, inert⟩ := quiet.module
    have inside := (List.getElem?_eq_some_iff.1 known).1
    have still : (session.scopes ++ [surroundingNames session type])[moduleScope]? =
        session.scopes[moduleScope]? := List.getElem?_append_left inside
    refine ⟨Nat.ne_of_gt inside, ⟨_, List.getElem?_concat_length, inert_surroundingNames quiet⟩,
      ⟨table, still.trans known, inert⟩, ?_⟩
    change (((session.scopes ++ [surroundingNames session type])[moduleScope]?).getD .empty) = _
    rw [still]
    rfl

end Beginning

/-! ## What the last stages spare -/

/-- An action after which a scope has no value with code under the name of a decorator if it had
none before. -/
def Sparing {α : Type} (action : Action α) : Prop :=
  ∀ (session : Session) (scope : Nat), session.HasInert scope →
    (action.run session).2.HasInert scope

section Sparing

variable {α β : Type}

theorem sparing_pure (value : α) : Sparing (pure value : Action α) :=
  fun _ _ inert => inert

theorem sparing_modify {change : Session → Session}
    (scopes : ∀ session, (change session).scopes = session.scopes) :
    Sparing (modify change : Action Unit) :=
  fun session _ inert => inert.of_scopes (scopes session)

theorem sparing_modifyType (type : Nat) (change : LiveType → LiveType) :
    Sparing (modifyType type change) :=
  sparing_modify fun _ => rfl

theorem Sparing.bind {action : Action α} {next : α → Action β} (first : Sparing action)
    (second : ∀ value, Sparing (next value)) : Sparing (action >>= next) := by
  intro session scope inert
  have still := first session scope inert
  rw [run_bind]
  rcases ran : action.run session with ⟨fault | value, between⟩
  · rw [ran] at still
    exact still
  · rw [ran] at still
    exact second value between scope still

theorem sparing_get {next : Session → Action β} (each : ∀ session, Sparing (next session)) :
    Sparing (get >>= next) := by
  intro session scope inert
  rw [run_bind, run_get]
  exact each session session scope inert

theorem sparing_bindName {name : Text} (other : name ∉ decoratorNames) (scope : Nat)
    (value : Value) : Sparing (bindName scope name value) := by
  intro session place inert
  change (session.withName scope name value).HasInert place
  unfold Session.withName
  obtain ⟨table, known, rest⟩ := inert
  split
  case h_1 there found =>
    by_cases same : scope = place
    · subst same
      obtain rfl := Option.some.inj (known.symm.trans found)
      refine ⟨table.put name value, List.getElem?_set_self (List.getElem?_eq_some_iff.1 known).1,
        rest.put fun member => absurd member other⟩
    · exact ⟨table, (List.getElem?_set_ne same).trans known, rest⟩
  case h_2 => exact ⟨table, known, rest⟩

theorem sparing_requalify (value : Value) (qualifiedName : Text) :
    Sparing (requalify value qualifiedName) := by
  cases value with
  | type index => exact sparing_modify fun _ => rfl
  | function index => exact sparing_modify fun _ => rfl
  | classMethod index => exact sparing_modify fun _ => rfl
  | _ => exact sparing_pure ()

theorem sparing_markOwner (value : Value) (owner : Text) : Sparing (markOwner value owner) := by
  cases value with
  | type index => exact sparing_modify fun _ => rfl
  | function index => exact sparing_modify fun _ => rfl
  | classMethod index => exact sparing_modify fun _ => rfl
  | _ => exact sparing_pure ()

theorem sparing_installArtifact (type : Nat) (qualifiedName : Text) (scope : Nat)
    {artifact : Artifact} (other : artifact.name ∉ decoratorNames) :
    Sparing (installArtifact type qualifiedName scope artifact) := by
  apply sparing_get
  intro session
  split
  · exact sparing_pure ()
  · split
    · apply (sparing_requalify _ _).bind
      intro _
      exact sparing_modifyType _ _
    · apply (sparing_markOwner _ _).bind
      intro _
      apply (sparing_modifyType _ _).bind
      intro _
      split
      · exact sparing_bindName other _ _
      · exact sparing_pure ()

theorem sparing_attach (type : Nat) (qualifiedName : Text) (scope : Nat) {plan : Plan}
    (defines : Defines plan.pending) : Sparing (attach type qualifiedName scope plan) := by
  have installs : Sparing (installArtifacts type qualifiedName scope plan.pending) := by
    generalize plan.pending = artifacts at defines
    induction artifacts with
    | nil => exact sparing_pure ()
    | cons artifact later ih =>
      obtain ⟨⟨-, other⟩, rest⟩ := List.forall_mem_cons.1 defines
      exact (sparing_installArtifact type qualifiedName scope other).bind fun _ => ih rest
  exact installs.bind fun _ => sparing_modifyType _ _

end Sparing

/-! ## Installations -/

section Installations

variable {session : Session} {type : Nat} {live : LiveType} {plan : Plan}

/-- What the definitions of an installation leave, however they end. -/
theorem run_definitions (quiet : session.Quiet type live) (defines : Defines plan.pending) :
    ∃ table entries,
      (session.beginning type live.installed plan).scopes[
          (begun live.installed plan session.scopes.length).scope]? = some table ∧
        entries.map (·.1) <+: plan.pending.map (·.name) ∧
        NameTable.IsInert (table.putAll entries) ∧
        (session.beginning type live.installed plan).GrowsIn
          (begun live.installed plan session.scopes.length).scope (table.putAll entries)
          ((defineArtifacts (begun live.installed plan session.scopes.length).scope
            plan.pending).run (session.beginning type live.installed plan)).2 := by
  obtain ⟨-, ⟨table, known, inert⟩, -, -⟩ := inert_beginning quiet plan
  obtain ⟨entries, names, stillInert, growsIn⟩ := growsIn_defineArtifacts defines known inert
  exact ⟨table, entries, known, names, stillInert, growsIn⟩

/-- Definitions leave the class that the installation has begun for, and the names of the module. -/
theorem after_definitions (quiet : session.Quiet type live) {table last : NameTable Value}
    {after : Session}
    (growsIn : (session.beginning type live.installed plan).GrowsIn
      (begun live.installed plan session.scopes.length).scope last after)
    (known : (session.beginning type live.installed plan).scopes[
      (begun live.installed plan session.scopes.length).scope]? = some table)
    (inert : NameTable.IsInert last) :
    after.types[type]? =
        some { live with installed := some (begun live.installed plan session.scopes.length) } ∧
      after.module = session.module ∧ after.HasInert moduleScope ∧
      after.HasInert (begun live.installed plan session.scopes.length).scope := by
  obtain ⟨elsewhere, -, ⟨moduleTable, moduleKnown, moduleInert⟩, same⟩ := inert_beginning quiet plan
  have scopes : after.scopes = (session.beginning type live.installed plan).scopes.set
      (begun live.installed plan session.scopes.length).scope last := by
    rw [growsIn.rest]
  have module : after.scopes[moduleScope]? =
      (session.beginning type live.installed plan).scopes[moduleScope]? := by
    rw [scopes, List.getElem?_set_ne elsewhere]
  refine ⟨?_, ?_, ⟨moduleTable, module.trans moduleKnown, moduleInert⟩, last, ?_, inert⟩
  · obtain ⟨added, types⟩ := growsIn.types
    have class_ := known_beginning quiet plan
    rw [← types, List.getElem?_append_left (List.getElem?_eq_some_iff.1 class_).1]
    exact class_
  · rw [Session.module, module]
    exact same
  · rw [scopes]
    exact List.getElem?_set_self (List.getElem?_eq_some_iff.1 known).1

theorem defines_of_planned {capability : Capability} {given : Option Settings}
    {extracted : RecordModel} {scope : Option (List Text)}
    (planned : planInstallation live.installed capability given extracted scope = .ok plan)
    (named : extracted.typeName = live.name)
    (spares : Settings.SparesDecorators (effectiveSettings live.installed given) live.name) :
    Defines plan.pending := by
  obtain ⟨settings, model, pending, -⟩ := planInstallation_eq_ok planned
  have sameName : plan.model.typeName = live.name := by
    rw [model]
    exact named
  have all : Defines (synthesize plan.model plan.settings) := by
    apply defines_synthesize
    rw [settings, sameName]
    exact spares
  intro artifact member
  rw [pending] at member
  exact all artifact (List.mem_filter.1 member).1

theorem spares_effectiveSettings (quiet : session.Quiet type live) {given : Option Settings}
    (spares : Settings.SparesDecorators (given.getD Settings.default) live.name) :
    Settings.SparesDecorators (effectiveSettings live.installed given) live.name := by
  cases installed : live.installed with
  | none => exact spares
  | some installation => exact (quiet.installed installation (by rw [installed]; rfl)).2.2

end Installations

/-! ## Applications -/

section Applications

variable {session : Session} {type : Nat} {live : LiveType} {application : Application}

/-- What an application comes to that does not find its capability installed: nothing changes, or
definitions fail, or all stages are gone through. -/
theorem run_applyCapability_cases (quiet : session.Quiet type live)
    (spares : Settings.SparesDecorators (application.given.getD Settings.default) live.name)
    {outcome : Except Fault Value} {after : Session}
    (ran : (applyCapability application.capability application.given (.type type)).run session =
      (outcome, after)) :
    (after = session ∧ ∀ fault, outcome = .error fault → fault.isFailure = false) ∨
      ∃ plan table entries between,
        plan.settings = effectiveSettings live.installed application.given ∧
        Defines plan.pending ∧
        (session.beginning type live.installed plan).scopes[
          (begun live.installed plan session.scopes.length).scope]? = some table ∧
        entries.map (·.1) <+: plan.pending.map (·.name) ∧
        NameTable.IsInert (table.putAll entries) ∧
        (session.beginning type live.installed plan).GrowsIn
          (begun live.installed plan session.scopes.length).scope (table.putAll entries) between ∧
        ((∃ fault, outcome = .error fault ∧ fault.isFailure = true ∧ after = between) ∨
          outcome = .ok (.type type) ∧
            (install type live.installed plan).run session = (.ok (), after) ∧
            after = ((attach type live.qualifiedName
              (begun live.installed plan session.scopes.length).scope plan).run between).2) := by
  rw [applyCapability, ← map_eq_pure_bind, run_map] at ran
  rcases (run_applyToType quiet.known : _ ∨ _ ∨ ∃ extracted plan, _ ∧
      planInstallation live.installed application.capability application.given extracted
        (takenNames session live.qualifiedName) = .ok plan ∧ _) with
    ⟨fault, harmless, refused⟩ | ⟨-, found⟩ | ⟨extracted, plan, named, planned, installs⟩
  · rw [refused] at ran
    cases ran
    refine .inl ⟨rfl, fun other same => ?_⟩
    cases same
    exact harmless
  · rw [found] at ran
    cases ran
    exact .inl ⟨rfl, fun _ same => by cases same⟩
  · have defines := defines_of_planned planned named (spares_effectiveSettings quiet spares)
    obtain ⟨table, entries, known, names, inert, growsIn⟩ := run_definitions quiet defines
    refine .inr ⟨plan, table, entries, _, (planInstallation_eq_ok planned).1, defines, known, names,
      inert, growsIn, ?_⟩
    rw [installs] at ran
    have stages : (install type live.installed plan).run session = _ :=
      run_install_stages quiet.known
    rcases defined : (defineArtifacts (begun live.installed plan session.scopes.length).scope
      plan.pending).run (session.beginning type live.installed plan) with ⟨fault | _, between⟩
    · rw [defined] at stages
      rw [stages] at ran
      cases ran
      exact .inl ⟨fault, rfl, isFailure_of_defineArtifacts defined, rfl⟩
    · rw [defined] at stages
      rw [stages] at ran
      cases ran
      exact .inr ⟨rfl, stages, rfl⟩

/-- Whatever an application comes to, its class stays among names that have no code. -/
theorem quiet_applyCapability (quiet : session.Quiet type live)
    (spares : Settings.SparesDecorators (application.given.getD Settings.default) live.name)
    {outcome : Except Fault Value} {after : Session}
    (ran : (applyCapability application.capability application.given (.type type)).run session =
      (outcome, after)) :
    ∃ later, after.Quiet type later ∧ later.name = live.name := by
  rcases run_applyCapability_cases quiet spares ran with
    ⟨rfl, -⟩ | ⟨plan, table, entries, between, settings, defines, known, -, inert, growsIn, ends⟩
  · exact ⟨live, quiet, rfl⟩
  obtain ⟨class_, -, moduleInert, scopeInert⟩ := after_definitions quiet growsIn known inert
  have elsewhere := (inert_beginning quiet plan).1
  have sparesNow : Settings.SparesDecorators
      (begun live.installed plan session.scopes.length).settings live.name := by
    cases installed : live.installed with
    | some installation => exact (quiet.installed installation (by rw [installed]; rfl)).2.2
    | none =>
      have same : (begun none plan session.scopes.length).settings = plan.settings := rfl
      rw [same, settings]
      exact spares_effectiveSettings quiet spares
  rcases ends with ⟨fault, -, -, rfl⟩ | ⟨-, installs, rfl⟩
  · refine ⟨_, ⟨class_, quiet.named, moduleInert, fun installation member => ?_⟩, rfl⟩
    obtain rfl := Option.mem_some_iff.1 member
    exact ⟨elsewhere, scopeInert, sparesNow⟩
  · have sparing := sparing_attach type live.qualifiedName
      (begun live.installed plan session.scopes.length).scope defines between
    have registers : session.Registers type live.name live.installed [] :=
      ⟨live, quiet.known, rfl, rfl, fun method member => absurd member List.not_mem_nil⟩
    have ready : ∀ installation ∈ live.installed, session.Binds installation.scope [] := by
      intro installation member
      obtain ⟨other, found, -⟩ := (quiet.installed installation member).2.1
      exact ⟨other, found, nofun⟩
    rcases run_install plan registers ready with
      ⟨failure, last, failed⟩ | ⟨last, types, done, ⟨later, stillKnown, named, noted, -⟩, -⟩
    · rw [failed] at installs
      cases installs
    · rw [done] at installs
      cases installs
      refine ⟨later, ⟨stillKnown, named ▸ quiet.named, sparing _ moduleInert, ?_⟩, named⟩
      intro installation member
      rw [noted] at member
      obtain rfl := Option.mem_some_iff.1 member
      exact ⟨elsewhere, sparing _ scopeInert, named ▸ sparesNow⟩

theorem quiet_applyEach (quiet : session.Quiet type live) {applications : List Application}
    (spares : ∀ other ∈ applications,
      Settings.SparesDecorators (other.given.getD Settings.default) live.name) :
    ∃ later, (applyEach type applications session).2.Quiet type later ∧
      later.name = live.name := by
  induction applications generalizing session live with
  | nil => exact ⟨live, quiet, rfl⟩
  | cons first rest ih =>
    rcases ran : (applyCapability first.capability first.given (.type type)).run session with
      ⟨outcome, after⟩
    rw [List.forall_mem_cons] at spares
    rw [applyEach_cons ran]
    obtain ⟨next, stillQuiet, named⟩ := quiet_applyCapability quiet spares.1 ran
    rw [← named]
    apply ih stillQuiet
    rw [named]
    exact spares.2

end Applications

/-- A module in which the name of a decorator is a number. -/
def shadowingSession : Session :=
  { pointSession with scopes := [⟨[("P", .type 0), ("property", .whole 1)]⟩] }

theorem shadowingSession_quiet : shadowingSession.Quiet 0 pointType := by
  have fresh : pointType.installed = none := rfl
  refine ⟨rfl, by decide, ⟨_, rfl, fun name member value found => ?_⟩,
    fun installation member => ?_⟩
  · simp only [decoratorNames, List.mem_cons, List.not_mem_nil, or_false] at member
    rcases member with rfl | rfl | rfl
    · cases found
    · cases found
      rfl
    · cases found
  · rw [fresh] at member
    cases member

theorem default_sparesDecorators : Settings.SparesDecorators Settings.default pointType.name := by
  intro capability
  cases capability <;> decide

/-- The properties of a view cannot be defined. -/
theorem run_view_fails (applications : List Application)
    (checked : (match ((applyCapability .destructureRef none (.type 0)).run
        (applyEach 0 applications shadowingSession).2).1 with
      | .error fault => fault.isFailure
      | .ok _ => false) = true) :
    ∃ fault after, (applyCapability .destructureRef none (.type 0)).run
        (applyEach 0 applications shadowingSession).2 = (.error fault, after) ∧
      fault.isFailure = true := by
  rcases ran : (applyCapability .destructureRef none (.type 0)).run
    (applyEach 0 applications shadowingSession).2 with ⟨fault | value, after⟩
  · rw [ran] at checked
    exact ⟨fault, after, rfl, checked⟩
  · rw [ran] at checked
    cases checked

end Live
end OpenRecord
