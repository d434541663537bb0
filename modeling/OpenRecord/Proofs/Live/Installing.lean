import OpenRecord.Live.Installation
import OpenRecord.Proofs.Expansion.Requests
import OpenRecord.Proofs.Live.Extension

namespace OpenRecord
namespace Live

/-!
# What an installation registers

Installing runs in four stages, and each of them adds to what a class registers: the installation is
begun, the pending artifacts are defined in a scope of their own, they are put on the class or
beside it, and the model is noted.  Only the second stage runs code, so that it alone can fail, and
it leaves the books of the class alone.
-/

/-! ## Registers and scopes -/

/-- What a class registers: its name, what is installed on it, and some of the names under which it
has values. -/
def Session.Registers (session : Session) (type : Nat) (name : Text)
    (installed : Option Installation) (methods : List Text) : Prop :=
  ∃ live, session.types[type]? = some live ∧ live.name = name ∧ live.installed = installed ∧
    ∀ method ∈ methods, ∃ value, live.attributes.get? method = some (.value value)

def Session.Binds (session : Session) (scope : Nat) (names : List Text) : Prop :=
  ∃ table, session.scopes[scope]? = some table ∧
    ∀ name ∈ names, ∃ value, table.get? name = some value

def Session.withType (session : Session) (type : Nat) (change : LiveType → LiveType) : Session :=
  { session with types := session.types.modify type change }

namespace Session

section Registers

variable {before after session : Session} {type : Nat} {name : Text}
  {installed : Option Installation} {methods : List Text}

theorem Registers.of_extends (registers : before.Registers type name installed methods)
    (extended : before.Extends after) : after.Registers type name installed methods := by
  obtain ⟨live, known, named, books, values⟩ := registers
  obtain ⟨later, stillKnown, kept⟩ := extended.types type live known
  refine ⟨later, stillKnown, kept.name.trans named, kept.installed.trans books, ?_⟩
  intro method member
  obtain ⟨value, found⟩ := values method member
  exact kept.values method value found

theorem Registers.mono (registers : session.Registers type name installed methods)
    {fewer : List Text} (among : fewer ⊆ methods) :
    session.Registers type name installed fewer := by
  obtain ⟨live, known, named, books, values⟩ := registers
  exact ⟨live, known, named, books, fun method member => values method (among member)⟩

/-- Changes of other things about classes. -/
theorem Registers.withType_other (registers : session.Registers type name installed methods)
    (index : Nat) {change : LiveType → LiveType}
    (names : ∀ live, (change live).name = live.name)
    (books : ∀ live, (change live).installed = live.installed)
    (values : ∀ live, (change live).attributes = live.attributes) :
    (session.withType index change).Registers type name installed methods := by
  obtain ⟨live, known, named, booked, found⟩ := registers
  by_cases same : index = type
  · subst same
    refine ⟨change live, ?_, (names live).trans named, (books live).trans booked, ?_⟩
    · rw [withType, List.getElem?_modify_eq, known]
      rfl
    · rw [values live]
      exact found
  · refine ⟨live, ?_, named, booked, found⟩
    rw [withType, List.getElem?_modify_ne _ _ same, known]

theorem Registers.withMethod (registers : session.Registers type name installed methods)
    (method : Text) (value : Value) :
    (session.withType type fun live =>
      { live with attributes := live.attributes.put method (.value value) }).Registers
        type name installed (method :: methods) := by
  obtain ⟨live, known, named, booked, found⟩ := registers
  refine ⟨{ live with attributes := live.attributes.put method (.value value) }, ?_, named,
    booked, ?_⟩
  · rw [withType, List.getElem?_modify_eq, known]
    rfl
  · intro other member
    by_cases same : other = method
    · exact ⟨value, same ▸ NameTable.get?_put_same ..⟩
    · obtain ⟨old, stillFound⟩ := found other ((List.mem_cons.1 member).resolve_left same)
      exact ⟨old, (NameTable.get?_put_other _ _ same).trans stillFound⟩

theorem Registers.withInstalled (registers : session.Registers type name installed methods)
    (change : Option Installation → Option Installation) :
    (session.withType type fun live =>
      { live with installed := change live.installed }).Registers
        type name (change installed) methods := by
  obtain ⟨live, known, named, booked, found⟩ := registers
  refine ⟨{ live with installed := change live.installed }, ?_, named, congrArg change booked,
    found⟩
  rw [withType, List.getElem?_modify_eq, known]
  rfl

theorem Registers.withName (registers : session.Registers type name installed methods)
    (scope : Nat) (bound : Text) (value : Value) :
    (session.withName scope bound value).Registers type name installed methods := by
  unfold Session.withName
  split <;> exact registers

end Registers

section Binds

variable {before after session : Session} {scope : Nat} {names : List Text}

theorem Binds.of_scopes (binds : before.Binds scope names) (same : after.scopes = before.scopes) :
    after.Binds scope names := by
  obtain ⟨table, known, bound⟩ := binds
  exact ⟨table, same ▸ known, bound⟩

theorem Binds.mono (binds : session.Binds scope names) {fewer : List Text}
    (among : fewer ⊆ names) : session.Binds scope fewer := by
  obtain ⟨table, known, bound⟩ := binds
  exact ⟨table, known, fun name member => bound name (among member)⟩

/-- A name that is bound in any scope leaves the others bound. -/
theorem Binds.withName (binds : session.Binds scope names) (place : Nat) (name : Text)
    (value : Value) : (session.withName place name value).Binds scope names := by
  obtain ⟨table, known, bound⟩ := binds
  cases here : session.scopes[place]? with
  | none =>
    rw [Session.withName, here]
    exact ⟨table, known, bound⟩
  | some other =>
    rw [Session.withName, here]
    by_cases same : place = scope
    · subst same
      obtain rfl := Option.some.inj (known.symm.trans here)
      refine ⟨table.put name value, ?_, fun key member => ?_⟩
      · exact List.getElem?_set_self (List.getElem?_eq_some_iff.1 known).1
      · by_cases written : key = name
        · exact ⟨value, written ▸ NameTable.get?_put_same ..⟩
        · rw [NameTable.get?_put_other _ _ written]
          exact bound key member
    · exact ⟨table, (List.getElem?_set_ne same).trans known, bound⟩

theorem Binds.withName_same (binds : session.Binds scope names) (name : Text) (value : Value) :
    (session.withName scope name value).Binds scope (name :: names) := by
  obtain ⟨table, known, bound⟩ := binds
  rw [Session.withName, known]
  refine ⟨table.put name value, List.getElem?_set_self (List.getElem?_eq_some_iff.1 known).1, ?_⟩
  intro key member
  by_cases written : key = name
  · exact ⟨value, written ▸ NameTable.get?_put_same ..⟩
  · rw [NameTable.get?_put_other _ _ written]
    exact bound key ((List.mem_cons.1 member).resolve_left written)

theorem Binds.nameIn? (binds : session.Binds scope names) {name : Text} (member : name ∈ names) :
    ∃ value, session.nameIn? [scope] name = some value := by
  obtain ⟨table, known, bound⟩ := binds
  obtain ⟨value, found⟩ := bound name member
  refine ⟨value, ?_⟩
  simp only [Session.nameIn?, List.findSome?_cons, known, Option.bind_some, found]

end Binds

end Session

/-! ## The stages -/

/-- The installation that an application of a capability goes on with. -/
def begun (installed : Option Installation) (plan : Plan) (scope : Nat) : Installation :=
  installed.getD ⟨plan.settings, plan.model, .empty, .empty, scope⟩

def namesAt (placement : Placement) (artifacts : List Artifact) : List Text :=
  (artifacts.filter fun artifact => artifact.placement = placement).map (·.name)

section Stages

variable {session : Session} {type : Nat} {name : Text} {methods : List Text}
  {installed : Option Installation}

theorem run_beginInstallation (plan : Plan)
    (registers : session.Registers type name installed methods)
    (ready : ∀ installation ∈ installed, session.Binds installation.scope []) :
    ∃ after, (beginInstallation type installed plan).run session =
        (.ok (begun installed plan session.scopes.length), after) ∧
      after.Registers type name (some (begun installed plan session.scopes.length)) methods ∧
      after.Binds (begun installed plan session.scopes.length).scope [] := by
  cases installed with
  | some installation => exact ⟨session, rfl, registers, ready installation rfl⟩
  | none =>
    let table := surroundingNames session type
    let added := { session with scopes := session.scopes ++ [table] }
    have still : added.Registers type name none methods := registers
    exact ⟨_, rfl, still.withInstalled fun _ =>
        some ⟨plan.settings, plan.model, .empty, .empty, session.scopes.length⟩,
      table, List.getElem?_concat_length, nofun⟩

theorem run_defineArtifacts {scope : Nat} {names : List Text} (artifacts : List Artifact)
    (registers : session.Registers type name installed methods)
    (binds : session.Binds scope names) :
    (∃ failure after, (defineArtifacts scope artifacts).run session =
        (.error (.failed failure), after)) ∨
      ∃ after, (defineArtifacts scope artifacts).run session = (.ok (), after) ∧
        after.Registers type name installed methods ∧
        after.Binds scope (names ++ artifacts.map (·.name)) := by
  -- the code of a definition binds no name in a scope; its own name is bound behind it
  induction artifacts generalizing session names with
  | nil => exact .inr ⟨session, rfl, registers, by rwa [List.map_nil, List.append_nil]⟩
  | cons artifact later ih =>
    obtain ⟨extended, fails⟩ :=
      extending_define extending_callAlone [scope] [] artifact.definition session
    rcases ran : (define callAlone [scope] [] artifact.definition).run session with
      ⟨result, between⟩
    rw [ran] at extended fails
    cases result with
    | error fault =>
      obtain ⟨failure, rfl⟩ := fails fault rfl
      exact .inl ⟨failure, between, by rw [defineArtifacts, run_bind, ran]⟩
    | ok value =>
      let bound := between.withName scope artifact.name value
      have goesOn : (defineArtifacts scope (artifact :: later)).run session =
          (defineArtifacts scope later).run bound := by
        rw [defineArtifacts, run_bind_of_ok ran]
        rfl
      have nowBinds : bound.Binds scope (artifact.name :: names) :=
        (binds.of_scopes extended.scopes).withName_same artifact.name value
      have nowRegisters := (registers.of_extends extended).withName scope artifact.name value
      rw [goesOn]
      refine (ih nowRegisters nowBinds).imp_right ?_
      rintro ⟨after, succeeded, books, defined⟩
      refine ⟨after, succeeded, books, defined.mono fun key member => ?_⟩
      rw [List.map_cons] at member
      simpa [or_left_comm] using member

/-- A value gets its qualified name without any change in the books. -/
theorem run_requalify (registers : session.Registers type name installed methods) (value : Value)
    (qualifiedName : Text) : ∃ after, (requalify value qualifiedName).run session =
        (.ok (), after) ∧
      after.Registers type name installed methods ∧ after.scopes = session.scopes := by
  cases value with
  | type index =>
    exact ⟨_, rfl, registers.withType_other index (fun _ => rfl) (fun _ => rfl) fun _ => rfl, rfl⟩
  | _ => exact ⟨_, rfl, registers, rfl⟩

theorem run_markOwner (registers : session.Registers type name installed methods) (value : Value)
    (owner : Text) : ∃ after, (markOwner value owner).run session = (.ok (), after) ∧
      after.Registers type name installed methods ∧ after.scopes = session.scopes := by
  cases value with
  | type index =>
    exact ⟨_, rfl, registers.withType_other index (fun _ => rfl) (fun _ => rfl) fun _ => rfl, rfl⟩
  | _ => exact ⟨_, rfl, registers, rfl⟩

theorem mem_namesAt {placement : Placement} {artifacts : List Artifact} {key : Text} :
    key ∈ namesAt placement artifacts ↔
      ∃ artifact ∈ artifacts, artifact.placement = placement ∧ artifact.name = key := by
  simp only [namesAt, List.mem_map, List.mem_filter, decide_eq_true_eq, and_assoc]

theorem mem_namesAt_cons {placement : Placement} {artifact : Artifact} {later : List Artifact}
    {key : Text} : key ∈ namesAt placement (artifact :: later) ↔
      artifact.placement = placement ∧ artifact.name = key ∨ key ∈ namesAt placement later := by
  simp only [mem_namesAt, List.exists_mem_cons_iff]

/-- An artifact that is bound is put on the class or beside it without fail. -/
theorem run_installArtifact (qualifiedName : Text) {scope : Nat} {names : List Text}
    {artifact : Artifact} {installation : Installation}
    (registers : session.Registers type name (some installation) methods)
    (binds : session.Binds scope names) (defined : artifact.name ∈ names) :
    ∃ after types, (installArtifact type qualifiedName scope artifact).run session =
        (.ok (), after) ∧
      after.Registers type name (some { installation with types })
        (namesAt .inClass [artifact] ++ methods) ∧
      after.Binds scope names ∧
      ∀ key, key ∈ types.names ↔
        key ∈ namesAt .besideClass [artifact] ∨ key ∈ installation.types.names := by
  obtain ⟨value, found⟩ := binds.nameIn? defined
  cases placed : artifact.placement with
  | inClass =>
    have here : namesAt .inClass [artifact] = [artifact.name] := by simp [namesAt, placed]
    have notBeside : namesAt .besideClass [artifact] = [] := by simp [namesAt, placed]
    obtain ⟨between, renamed, books, scopes⟩ :=
      run_requalify registers value (qualifiedName ++ '.' :: artifact.name)
    let attached := between.withType type fun live =>
      { live with attributes := live.attributes.put artifact.name (.value value) }
    have nowBinds : attached.Binds scope names := binds.of_scopes scopes
    refine ⟨attached, installation.types, ?_, here ▸ books.withMethod artifact.name value,
      nowBinds, fun key => by simp [notBeside]⟩
    simp only [installArtifact, run_bind, run_get, found, placed, renamed]
    rfl
  | besideClass =>
    have notHere : namesAt .inClass [artifact] = [] := by simp [namesAt, placed]
    have beside : namesAt .besideClass [artifact] = [artifact.name] := by simp [namesAt, placed]
    obtain ⟨between, marked, books, scopes⟩ := run_markOwner registers value qualifiedName
    let noted := between.withType type fun live =>
      { live with installed := live.installed.map fun installation =>
        { installation with types := installation.types.put artifact.name value } }
    have nowBooks : noted.Registers type name
        (some { installation with types := installation.types.put artifact.name value })
          methods :=
      books.withInstalled fun installed => installed.map fun installation =>
        { installation with types := installation.types.put artifact.name value }
    have nowBinds : noted.Binds scope names := binds.of_scopes scopes
    have keys : ∀ key, key ∈ (installation.types.put artifact.name value).names ↔
        key ∈ namesAt .besideClass [artifact] ∨ key ∈ installation.types.names := by
      intro key
      rw [beside, List.mem_singleton]
      exact mem_map_fst_putName
    have ran : (installArtifact type qualifiedName scope artifact).run session =
        (if isTopLevel qualifiedName then bindName moduleScope artifact.name value
          else pure ()).run noted := by
      simp only [installArtifact, run_bind, run_get, found, placed, marked]
      rfl
    rw [notHere, ran]
    split
    · exact ⟨_, _, rfl, nowBooks.withName moduleScope artifact.name value,
        nowBinds.withName moduleScope artifact.name value, keys⟩
    · exact ⟨_, _, rfl, nowBooks, nowBinds, keys⟩

theorem run_installArtifacts (qualifiedName : Text) {scope : Nat} {names : List Text}
    {artifacts : List Artifact} {installation : Installation}
    (registers : session.Registers type name (some installation) methods)
    (binds : session.Binds scope names) (defined : artifacts.map (·.name) ⊆ names) :
    ∃ after types, (installArtifacts type qualifiedName scope artifacts).run session =
        (.ok (), after) ∧
      after.Registers type name (some { installation with types })
        (namesAt .inClass artifacts ++ methods) ∧
      after.Binds scope names ∧
      ∀ key, key ∈ types.names ↔
        key ∈ namesAt .besideClass artifacts ∨ key ∈ installation.types.names := by
  induction artifacts generalizing session methods installation with
  | nil => exact ⟨session, installation.types, rfl, registers, binds, fun key => by simp [namesAt]⟩
  | cons artifact later ih =>
    rw [List.map_cons, List.cons_subset] at defined
    obtain ⟨between, first, installed, books, stillBinds, firstKeys⟩ :=
      run_installArtifact qualifiedName registers binds defined.1
    obtain ⟨after, types, finished, allBooks, lastBinds, keys⟩ :=
      ih books stillBinds defined.2
    refine ⟨after, types, ?_, allBooks.mono fun key member => ?_, lastBinds, fun key => ?_⟩
    · rw [installArtifacts, run_bind_of_ok installed]
      exact finished
    · rw [List.mem_append, mem_namesAt_cons] at member
      rw [List.mem_append, List.mem_append, mem_namesAt_cons]
      have none : key ∉ namesAt .inClass [] := List.not_mem_nil
      tauto
    · rw [keys, firstKeys, mem_namesAt_cons, mem_namesAt_cons]
      have none : key ∉ namesAt .besideClass [] := List.not_mem_nil
      tauto

/-- What is noted on a class at the end of an installation. -/
theorem run_finishInstallation {installation : Installation} (model : RecordModel)
    (registers : session.Registers type name (some installation) methods) :
    ∃ after, (finishInstallation type model).run session = (.ok (), after) ∧
      after.Registers type name (some { installation with
        model
        capabilities := installation.capabilities.union model.capabilities }) methods ∧
      after.scopes = session.scopes := by
  let noting : Option Installation → Option Installation := fun installed =>
    installed.map fun installation =>
      { installation with
        model
        capabilities := installation.capabilities.union model.capabilities }
  have books := registers.withInstalled noting
  exact ⟨_, rfl, books, rfl⟩

theorem run_install (plan : Plan)
    (registers : session.Registers type name installed methods)
    (ready : ∀ installation ∈ installed, session.Binds installation.scope []) :
    (∃ failure after, (install type installed plan).run session =
        (.error (.failed failure), after)) ∨
      ∃ after types, (install type installed plan).run session = (.ok (), after) ∧
        after.Registers type name (some { begun installed plan session.scopes.length with
          types
          model := plan.model
          capabilities := (begun installed plan session.scopes.length).capabilities.union
            plan.model.capabilities }) (namesAt .inClass plan.pending ++ methods) ∧
        after.Binds (begun installed plan session.scopes.length).scope [] ∧
        ∀ key, key ∈ types.names ↔ key ∈ namesAt .besideClass plan.pending ∨
          key ∈ (begun installed plan session.scopes.length).types.names := by
  obtain ⟨first, started, books, binds⟩ := run_beginInstallation plan registers ready
  have goesOn : (install type installed plan).run session =
      (do
        defineArtifacts (begun installed plan session.scopes.length).scope plan.pending
        installArtifacts type (session.qualifiedNameOf type)
          (begun installed plan session.scopes.length).scope plan.pending
        finishInstallation type plan.model : Action Unit).run first := by
    rw [install, run_bind, run_get]
    dsimp only
    rw [run_bind_of_ok started]
  rw [goesOn]
  rcases run_defineArtifacts plan.pending books binds with
    ⟨failure, after, failed⟩ | ⟨second, defined, stillBooks, bound⟩
  · exact .inl ⟨failure, after, by rw [run_bind, failed]⟩
  · rw [List.nil_append] at bound
    obtain ⟨third, types, installedAll, allBooks, stillBound, keys⟩ :=
      run_installArtifacts (session.qualifiedNameOf type) stillBooks bound
        (List.Subset.refl _)
    obtain ⟨after, finished, lastBooks, scopes⟩ :=
      run_finishInstallation plan.model allBooks
    refine .inr ⟨after, types, ?_, lastBooks, ?_, keys⟩
    · rw [run_bind_of_ok defined, run_bind_of_ok installedAll]
      exact finished
    · exact (stillBound.mono (List.nil_subset _)).of_scopes scopes

end Stages

/-! ## From stage to stage -/

/-- An action that never ends with a fault. -/
def Succeeding {α : Type} (action : Action α) : Prop :=
  ∀ session, ∃ value after, action.run session = (.ok value, after)

section Success

variable {α β : Type}

theorem succeeding_pure (value : α) : Succeeding (pure value : Action α) :=
  fun session => ⟨value, session, rfl⟩

theorem succeeding_modify (change : Session → Session) :
    Succeeding (modify change : Action Unit) :=
  fun session => ⟨(), change session, rfl⟩

theorem Succeeding.bind {action : Action α} {next : α → Action β} (first : Succeeding action)
    (second : ∀ value, Succeeding (next value)) : Succeeding (action >>= next) := by
  intro session
  obtain ⟨value, between, ran⟩ := first session
  rw [run_bind_of_ok ran]
  exact second value between

theorem succeeding_get : Succeeding (get : Action Session) :=
  fun session => ⟨session, session, rfl⟩

theorem succeeding_requalify (value : Value) (qualifiedName : Text) :
    Succeeding (requalify value qualifiedName) := by
  cases value <;> exact fun session => ⟨_, _, rfl⟩

theorem succeeding_markOwner (value : Value) (owner : Text) : Succeeding (markOwner value owner) := by
  cases value <;> exact fun session => ⟨_, _, rfl⟩

theorem succeeding_installArtifact (type : Nat) (qualifiedName : Text) (scope : Nat)
    (artifact : Artifact) : Succeeding (installArtifact type qualifiedName scope artifact) := by
  apply succeeding_get.bind
  intro session
  split
  · exact succeeding_pure ()
  · split
    · exact (succeeding_requalify _ _).bind fun _ => succeeding_modify _
    · apply (succeeding_markOwner _ _).bind
      intro _
      apply (succeeding_modify _).bind
      intro _
      split
      · exact succeeding_modify _
      · exact succeeding_pure ()

theorem succeeding_installArtifacts (type : Nat) (qualifiedName : Text) (scope : Nat)
    (artifacts : List Artifact) :
    Succeeding (installArtifacts type qualifiedName scope artifacts) := by
  induction artifacts with
  | nil => exact succeeding_pure ()
  | cons artifact later ih => exact (succeeding_installArtifact _ _ _ _).bind fun _ => ih

/-- The last stages of an installation: what has been defined is put on the class or beside it, and
that is noted. -/
def attach (type : Nat) (qualifiedName : Text) (scope : Nat) (plan : Plan) : Action Unit := do
  installArtifacts type qualifiedName scope plan.pending
  finishInstallation type plan.model

theorem succeeding_attach (type : Nat) (qualifiedName : Text) (scope : Nat) (plan : Plan) :
    Succeeding (attach type qualifiedName scope plan) :=
  (succeeding_installArtifacts _ _ _ _).bind fun _ => succeeding_modify _

end Success

/-- The session in which the installation of a class is begun. -/
def Session.beginning (session : Session) (type : Nat) (installed : Option Installation)
    (plan : Plan) : Session :=
  match installed with
  | some _ => session
  | none =>
    Session.withType { session with scopes := session.scopes ++ [surroundingNames session type] }
      type fun live => { live with installed := some (begun none plan session.scopes.length) }

theorem run_beginInstallation_eq (session : Session) (type : Nat)
    (installed : Option Installation) (plan : Plan) :
    (beginInstallation type installed plan).run session =
      (.ok (begun installed plan session.scopes.length),
        session.beginning type installed plan) := by
  cases installed <;> rfl

/-- An installation ends where its definitions fail, or else with all that it sets out to do. -/
theorem run_install_stages {session : Session} {type : Nat} {live : LiveType} {plan : Plan}
    (known : session.types[type]? = some live) :
    (install type live.installed plan).run session =
      match (defineArtifacts (begun live.installed plan session.scopes.length).scope
          plan.pending).run (session.beginning type live.installed plan) with
      | (.error fault, between) => (.error fault, between)
      | (.ok (), between) =>
        (.ok (), ((attach type live.qualifiedName
          (begun live.installed plan session.scopes.length).scope plan).run between).2) := by
  have qualified : session.qualifiedNameOf type = live.qualifiedName := by
    rw [Session.qualifiedNameOf, known]
  rw [install, run_bind, run_get]
  dsimp only
  rw [run_bind_of_ok (run_beginInstallation_eq session type live.installed plan), qualified,
    run_bind]
  rcases (defineArtifacts (begun live.installed plan session.scopes.length).scope
    plan.pending).run (session.beginning type live.installed plan) with ⟨_ | _, between⟩
  · rfl
  · obtain ⟨value, after, succeeded⟩ := succeeding_attach type live.qualifiedName
      (begun live.installed plan session.scopes.length).scope plan between
    dsimp only
    rw [succeeded]
    exact succeeded

end Live
end OpenRecord
