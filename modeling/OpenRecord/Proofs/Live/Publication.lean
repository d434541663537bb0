import OpenRecord.Proofs.Expansion.TakenNames
import OpenRecord.Proofs.Live.Bookkeeping
import OpenRecord.Proofs.Record.Clashes

namespace OpenRecord
namespace Live

/-!
# Whom a name of the module belongs to

The generated types of a class at the top level are published in its module, and they may replace
what is bound there under their names.  Whether they do is decided by the owner that the old value
shows: an application replaces only values that show its class as their owner, and it is refused
exactly if another value stands under one of its names.

An owner is marked on generated types by applications to the class itself and by nothing else.  But
a class shows the owner of its nearest ancestor that has one, and an object that of its class.  So a
replaced value need not be a generated type: it is enough that it comes from one.
-/

/-! ## Marks -/

/-- The owner that a class or a function is marked with itself. -/
def Session.mark? (session : Session) : Value → Option Text
  | .type index => (session.types[index]?).bind (·.owner)
  | .function index => (session.functions[index]?).bind (·.owner)
  | _ => none

/-- What a value takes the owner from that it shows: the line of a class or of the class of an
object. -/
def Session.sources (session : Session) : Value → List Value
  | .type index => (session.lineage index).map .type
  | .function index => [.function index]
  | .classMethod index => [.function index]
  | .cell address =>
    match session.cells[address]? with
    | some (.object type _) => (session.lineage type).map .type
    | _ => []
  | _ => []

/-- The module has a scope, and no installation uses it for its code. -/
structure Session.ScopesApart (session : Session) : Prop where
  module : moduleScope < session.scopes.length
  installed : ∀ (index : Nat) (live : LiveType), session.types[index]? = some live →
    ∀ installation ∈ live.installed, installation.scope ≠ moduleScope

theorem exists_mark_of_ownerOf {session : Session} {value : Value} {owner : Text}
    (shows : ownerOf session value = some owner) :
    ∃ source ∈ session.sources value, session.mark? source = some owner := by
  have marked : ∀ index, ownerOf.ofType session index = some owner →
      ∃ source ∈ (session.lineage index).map Value.type, session.mark? source = some owner := by
    intro index found
    obtain ⟨ancestor, member, marked⟩ := List.exists_of_findSome?_eq_some found
    exact ⟨.type ancestor, List.mem_map_of_mem member, marked⟩
  cases value with
  | type index => exact marked index shows
  | function index => exact ⟨.function index, List.mem_singleton_self _, shows⟩
  | classMethod index => exact ⟨.function index, List.mem_singleton_self _, shows⟩
  | cell address =>
    simp only [ownerOf] at shows
    split at shows
    case h_1 known => simpa only [Session.sources, known] using marked _ shows
    case h_2 => cases shows
  | _ => cases shows

/-! ## What an application may change -/

/-- Marks are made with some owners only, and entries of the module are replaced under some names
only. -/
structure Session.Evolves (owners names : List Text) (before after : Session) : Prop where
  types : before.types.length ≤ after.types.length
  marks : ∀ value owner, after.mark? value = some owner →
    before.mark? value = some owner ∨ owner ∈ owners
  module : ∀ entry ∈ before.module.entries, entry ∈ after.module.entries ∨ entry.1 ∈ names
  apart : before.ScopesApart → after.ScopesApart

namespace Session

variable {owners names : List Text} {before between after : Session}

theorem evolves_refl (session : Session) : session.Evolves owners names session :=
  ⟨Nat.le_refl _, fun _ _ => .inl, fun _ => .inl, id⟩

theorem Evolves.trans (first : before.Evolves owners names between)
    (second : between.Evolves owners names after) : before.Evolves owners names after := by
  refine ⟨Nat.le_trans first.types second.types, fun value owner marked => ?_,
    fun entry member => ?_, fun apart => second.apart (first.apart apart)⟩
  · rcases second.marks value owner marked with old | new
    · exact first.marks value owner old
    · exact .inr new
  · rcases first.module entry member with kept | lost
    · exact second.module entry kept
    · exact .inr lost

theorem Evolves.mono {moreOwners moreNames : List Text} (evolves : before.Evolves owners names after)
    (among : owners ⊆ moreOwners) (within : names ⊆ moreNames) :
    before.Evolves moreOwners moreNames after :=
  ⟨evolves.types, fun value owner marked => (evolves.marks value owner marked).imp_right (among ·),
    fun entry member => (evolves.module entry member).imp_right (within ·), evolves.apart⟩

theorem Extends.marks (extended : before.Extends after) {value : Value} {owner : Text}
    (marked : after.mark? value = some owner) : before.mark? value = some owner := by
  cases value with
  | type index =>
    obtain ⟨live, known, owned⟩ := Option.bind_eq_some_iff.1 marked
    cases found : before.types[index]? with
    | none =>
      have added := extended.added index live (List.getElem?_eq_none_iff.1 found) known
      rw [added.1] at owned
      cases owned
    | some old =>
      obtain ⟨later, stillKnown, kept⟩ := extended.types index old found
      obtain rfl := Option.some.inj (known.symm.trans stillKnown)
      exact Option.bind_eq_some_iff.2 ⟨old, found, kept.owner.symm.trans owned⟩
  | function index =>
    obtain ⟨function, known, owned⟩ := Option.bind_eq_some_iff.1 marked
    rcases extended.functions index function known with old | unmarked
    · exact Option.bind_eq_some_iff.2 ⟨function, old, owned⟩
    · rw [unmarked] at owned
      cases owned
  | _ => cases marked

theorem Extends.apart (extended : before.Extends after) (apart : before.ScopesApart) :
    after.ScopesApart := by
  refine ⟨extended.scopes ▸ apart.module, fun index live known installation member => ?_⟩
  cases found : before.types[index]? with
  | none =>
    rw [(extended.added index live (List.getElem?_eq_none_iff.1 found) known).2] at member
    cases member
  | some old =>
    obtain ⟨later, stillKnown, kept⟩ := extended.types index old found
    obtain rfl := Option.some.inj (known.symm.trans stillKnown)
    exact apart.installed index old found installation (kept.installed ▸ member)

theorem Extends.length_types (extended : before.Extends after) :
    before.types.length ≤ after.types.length := by
  by_contra fewer
  have inside : after.types.length < before.types.length := Nat.lt_of_not_le fewer
  obtain ⟨later, known, -⟩ := extended.types after.types.length _ (List.getElem?_eq_getElem inside)
  rw [List.getElem?_eq_none (Nat.le_refl _)] at known
  cases known

/-- Running code makes no marks and binds no names. -/
theorem Extends.evolves (extended : before.Extends after) : before.Evolves owners names after := by
  refine ⟨extended.length_types, fun _ _ marked => .inl (extended.marks marked),
    fun entry member => .inl ?_, extended.apart⟩
  rw [Session.module, extended.scopes]
  exact member

/-- A change of classes that keeps their marks or makes one for an owner, and puts no installation
into the scope of the module. -/
theorem evolves_withType (session : Session) (index : Nat) {change : LiveType → LiveType}
    (marks : ∀ live, (change live).owner = live.owner ∨
      ∃ owner ∈ owners, (change live).owner = some owner)
    (scopes : ∀ live, ∀ installation ∈ (change live).installed,
      installation.scope ≠ moduleScope ∨ ∃ old ∈ live.installed, old.scope = installation.scope) :
    session.Evolves owners names (session.withType index change) := by
  have changed : ∀ (other : Nat) (live : LiveType),
      (session.withType index change).types[other]? = some live →
        ∃ old, session.types[other]? = some old ∧ (live = old ∨ live = change old) := by
    intro other live known
    rw [withType, List.getElem?_modify] at known
    obtain ⟨old, found, same⟩ := Option.map_eq_some_iff.1 known
    refine ⟨old, found, ?_⟩
    split at same
    · exact .inr same.symm
    · exact .inl same.symm
  refine ⟨?_, fun value owner marked => ?_, fun _ => .inl, fun apart => ⟨apart.module, ?_⟩⟩
  · exact Nat.le_of_eq (List.length_modify ..).symm
  · cases value with
    | type other =>
      obtain ⟨live, known, owned⟩ := Option.bind_eq_some_iff.1 marked
      obtain ⟨old, found, rfl | rfl⟩ := changed other live known
      · exact .inl (Option.bind_eq_some_iff.2 ⟨live, found, owned⟩)
      · rcases marks old with same | ⟨one, member, made⟩
        · exact .inl (Option.bind_eq_some_iff.2 ⟨old, found, same.symm.trans owned⟩)
        · obtain rfl := Option.some.inj (made.symm.trans owned)
          exact .inr member
    | function other => exact .inl marked
    | _ => cases marked
  · intro other live known installation member
    obtain ⟨old, found, rfl | rfl⟩ := changed other live known
    · exact apart.installed other live found installation member
    · rcases scopes old installation member with elsewhere | ⟨one, among, same⟩
      · exact elsewhere
      · rw [← same]
        exact apart.installed other old found one among

theorem evolves_withFunction (session : Session) (index : Nat)
    {change : LiveFunction → LiveFunction}
    (marks : ∀ function, (change function).owner = function.owner ∨
      ∃ owner ∈ owners, (change function).owner = some owner) :
    session.Evolves owners names
      { session with functions := session.functions.modify index change } := by
  refine ⟨Nat.le_refl _, fun value owner marked => ?_, fun _ => .inl,
    fun apart => ⟨apart.module, apart.installed⟩⟩
  cases value with
  | type other => exact .inl marked
  | function other =>
    obtain ⟨function, known, owned⟩ := Option.bind_eq_some_iff.1 marked
    rw [List.getElem?_modify] at known
    obtain ⟨old, found, same⟩ := Option.map_eq_some_iff.1 known
    split at same
    · rcases marks old with kept | ⟨one, member, made⟩
      · refine .inl (Option.bind_eq_some_iff.2 ⟨old, found, ?_⟩)
        rw [← kept, same, owned]
      · rw [same] at made
        obtain rfl := Option.some.inj (made.symm.trans owned)
        exact .inr member
    · exact .inl (Option.bind_eq_some_iff.2 ⟨old, found, same ▸ owned⟩)
  | _ => cases marked

theorem evolves_addScope {session : Session} (apart : session.ScopesApart)
    (table : NameTable Value) :
    session.Evolves owners names { session with scopes := session.scopes ++ [table] } := by
  refine ⟨Nat.le_refl _, fun _ _ => .inl, fun entry member => .inl ?_, fun _ => ⟨?_, ?_⟩⟩
  · unfold Session.module at member ⊢
    dsimp only
    rw [List.getElem?_append_left apart.module]
    exact member
  · rw [List.length_append]
    exact Nat.lt_add_right _ apart.module
  · exact apart.installed

/-- A name that is bound, in the module only if its entry there may be replaced. -/
theorem evolves_withName (session : Session) {scope : Nat} {name : Text} (value : Value)
    (allowed : scope = moduleScope → name ∈ names) :
    session.Evolves owners names (session.withName scope name value) := by
  unfold withName
  cases here : session.scopes[scope]? with
  | none => exact session.evolves_refl
  | some table =>
    refine ⟨Nat.le_refl _, fun _ _ => .inl, fun entry member => ?_, fun apart => ⟨?_, ?_⟩⟩
    · by_cases inModule : scope = moduleScope
      · by_cases same : entry.1 = name
        · exact .inr (same ▸ allowed inModule)
        · subst inModule
          have inside := (List.getElem?_eq_some_iff.1 here).1
          rw [Session.module, here, Option.getD_some] at member
          rw [Session.module, List.getElem?_set_self inside, Option.getD_some]
          exact .inl (mem_putName member same)
      · rw [Session.module, List.getElem?_set_ne inModule]
        exact .inl member
    · rw [List.length_set]
      exact apart.module
    · exact apart.installed

end Session

/-! ## Installing -/

/-- From every session with its scopes apart an action makes marks with some owners only and
replaces entries of the module under some names only. -/
def Evolving {α : Type} (owners names : List Text) (action : Action α) : Prop :=
  ∀ session : Session, session.ScopesApart →
    session.Evolves owners names (action.run session).2

section Actions

variable {α β : Type} {owners names : List Text}

theorem evolving_pure (value : α) : Evolving owners names (pure value : Action α) :=
  fun session _ => session.evolves_refl

theorem Evolving.bind {action : Action α} {next : α → Action β}
    (first : Evolving owners names action) (second : ∀ value, Evolving owners names (next value)) :
    Evolving owners names (action >>= next) := by
  intro session apart
  have evolved := first session apart
  rw [run_bind]
  rcases ran : action.run session with ⟨result, between⟩
  rw [ran] at evolved
  cases result with
  | error fault => exact evolved
  | ok value => exact evolved.trans (second value between (evolved.apart apart))

theorem evolving_get {next : Session → Action β}
    (each : ∀ session, Evolving owners names (next session)) :
    Evolving owners names (get >>= next) := by
  intro session apart
  rw [run_bind, run_get]
  exact each session session apart

theorem evolving_modify {change : Session → Session}
    (each : ∀ session : Session, session.Evolves owners names (change session)) :
    Evolving owners names (modify change : Action Unit) :=
  fun session _ => each session

theorem Extending.evolving {action : Action α} (extending : Extending action) :
    Evolving owners names action :=
  fun session _ => (extending session).extends_.evolves

theorem evolving_bindName {scope : Nat} {name : Text} (value : Value)
    (allowed : scope = moduleScope → name ∈ names) :
    Evolving owners names (bindName scope name value) :=
  evolving_modify fun session => session.evolves_withName value allowed

theorem evolving_defineArtifacts {scope : Nat} (elsewhere : scope ≠ moduleScope)
    (artifacts : List Artifact) : Evolving owners names (defineArtifacts scope artifacts) := by
  induction artifacts with
  | nil => exact evolving_pure ()
  | cons artifact later ih =>
    apply (extending_define extending_callAlone [scope] [] artifact.definition).evolving.bind
    intro value
    apply (evolving_bindName value fun inModule => absurd inModule elsewhere).bind
    intro _
    exact ih

theorem evolving_requalify (value : Value) (qualifiedName : Text) :
    Evolving owners names (requalify value qualifiedName) := by
  have renames : ∀ index, Evolving owners names (requalify.renameFunction qualifiedName index) :=
    fun index => evolving_modify fun session =>
      session.evolves_withFunction index fun _ => .inl rfl
  cases value with
  | function index => exact renames index
  | classMethod index => exact renames index
  | type index =>
    exact evolving_modify fun session =>
      session.evolves_withType index (fun _ => .inl rfl) fun _ installation member =>
        .inr ⟨installation, member, rfl⟩
  | _ => exact evolving_pure ()

theorem evolving_markOwner {owner : Text} (allowed : owner ∈ owners) (value : Value) :
    Evolving owners names (markOwner value owner) := by
  have marks : ∀ index, Evolving owners names (markOwner.markFunction owner index) :=
    fun index => evolving_modify fun session =>
      session.evolves_withFunction index fun _ => .inr ⟨owner, allowed, rfl⟩
  cases value with
  | function index => exact marks index
  | classMethod index => exact marks index
  | type index =>
    exact evolving_modify fun session =>
      session.evolves_withType index (fun _ => .inr ⟨owner, allowed, rfl⟩)
        fun _ installation member => .inr ⟨installation, member, rfl⟩
  | _ => exact evolving_pure ()

/-- The names under which the types among artifacts of a class are published in the module. -/
def publicNames (qualifiedName : Text) (artifacts : List Artifact) : List Text :=
  if isTopLevel qualifiedName then namesAt .besideClass artifacts else []

theorem mem_publicNames {qualifiedName name : Text} {artifacts : List Artifact} :
    name ∈ publicNames qualifiedName artifacts ↔
      isTopLevel qualifiedName = true ∧ name ∈ namesAt .besideClass artifacts := by
  unfold publicNames
  split
  case isTrue top => rw [and_iff_right top]
  case isFalse inner => exact ⟨nofun, fun both => absurd both.1 inner⟩

theorem evolves_withInstalled (session : Session) (type : Nat)
    {change : Installation → Installation} (scopes : ∀ old, (change old).scope = old.scope) :
    session.Evolves owners names (session.withType type fun live =>
      { live with installed := live.installed.map change }) := by
  refine session.evolves_withType type (fun _ => .inl rfl) fun live installation member => ?_
  obtain ⟨old, among, rfl⟩ := Option.map_eq_some_iff.1 member
  exact .inr ⟨old, among, (scopes old).symm⟩

theorem evolving_installArtifact {qualifiedName : Text} (allowed : qualifiedName ∈ owners)
    (type scope : Nat) {artifact : Artifact}
    (within : publicNames qualifiedName [artifact] ⊆ names) :
    Evolving owners names (installArtifact type qualifiedName scope artifact) := by
  apply evolving_get
  intro session
  split
  · exact evolving_pure ()
  case h_2 value found =>
    split
    · apply (evolving_requalify value _).bind
      intro _
      apply evolving_modify
      intro before
      exact before.evolves_withType type (fun _ => .inl rfl) fun _ installation member =>
        .inr ⟨installation, member, rfl⟩
    case h_2 placed =>
      apply (evolving_markOwner allowed value).bind
      intro _
      apply (evolving_modify fun before => evolves_withInstalled before type ?_).bind
      · intro _
        split
        case isTrue top =>
          apply evolving_bindName
          intro _
          apply within
          rw [mem_publicNames, mem_namesAt]
          exact ⟨top, artifact, List.mem_singleton_self _, placed, rfl⟩
        case isFalse => exact evolving_pure ()
      · intro _
        rfl

theorem evolving_installArtifacts {qualifiedName : Text} (allowed : qualifiedName ∈ owners)
    (type scope : Nat) {artifacts : List Artifact}
    (within : publicNames qualifiedName artifacts ⊆ names) :
    Evolving owners names (installArtifacts type qualifiedName scope artifacts) := by
  induction artifacts with
  | nil => exact evolving_pure ()
  | cons artifact later ih =>
    have first : publicNames qualifiedName [artifact] ⊆ names := by
      intro name member
      apply within
      rw [mem_publicNames, mem_namesAt_cons] at member ⊢
      exact ⟨member.1, member.2.imp_right fun nowhere => absurd nowhere List.not_mem_nil⟩
    have others : publicNames qualifiedName later ⊆ names := by
      intro name member
      apply within
      rw [mem_publicNames] at member ⊢
      rw [mem_namesAt_cons]
      exact ⟨member.1, .inr member.2⟩
    apply (evolving_installArtifact allowed type scope first).bind
    intro _
    exact ih others

theorem evolving_attach (type : Nat) (qualifiedName : Text) (scope : Nat) (plan : Plan) :
    Evolving [qualifiedName] (publicNames qualifiedName plan.pending)
      (attach type qualifiedName scope plan) := by
  apply (evolving_installArtifacts (List.mem_singleton_self _) type scope
    (List.Subset.refl _)).bind
  intro _
  exact evolving_modify fun session => evolves_withInstalled session type fun _ => rfl

end Actions

section Applications

variable {session : Session} {type : Nat} {live : LiveType}

theorem evolves_beginning (known : session.types[type]? = some live)
    (apart : session.ScopesApart) (plan : Plan) :
    session.Evolves [] [] (session.beginning type live.installed plan) ∧
      (begun live.installed plan session.scopes.length).scope ≠ moduleScope := by
  cases installed : live.installed with
  | some installation =>
    refine ⟨session.evolves_refl, ?_⟩
    exact apart.installed type live known installation (by rw [installed]; rfl)
  | none =>
    have elsewhere : session.scopes.length ≠ moduleScope := Nat.ne_of_gt apart.module
    refine ⟨(Session.evolves_addScope apart (surroundingNames session type)).trans ?_, elsewhere⟩
    refine Session.evolves_withType _ type (fun _ => .inl rfl) fun _ installation member => ?_
    obtain rfl := Option.mem_some_iff.1 member
    exact .inl elsewhere

/-- What an installation changes, and that it publishes nothing if it fails. -/
theorem evolves_install (known : session.types[type]? = some live)
    (apart : session.ScopesApart) (plan : Plan) {outcome : Except Fault Unit} {after : Session}
    (ran : (install type live.installed plan).run session = (outcome, after)) :
    session.Evolves [live.qualifiedName] (publicNames live.qualifiedName plan.pending) after ∧
      (outcome.isOk = false → session.Evolves [] [] after) := by
  obtain ⟨begins, elsewhere⟩ := evolves_beginning known apart plan
  have defining : Evolving [] []
      (defineArtifacts (begun live.installed plan session.scopes.length).scope plan.pending) :=
    evolving_defineArtifacts elsewhere plan.pending
  have defines := defining _ (begins.apart apart)
  rw [run_install_stages known] at ran
  rcases defined : (defineArtifacts (begun live.installed plan session.scopes.length).scope
    plan.pending).run (session.beginning type live.installed plan) with ⟨_ | _, between⟩
  · rw [defined] at ran defines
    cases ran
    have unpublished := begins.trans defines
    exact ⟨unpublished.mono (List.nil_subset _) (List.nil_subset _), fun _ => unpublished⟩
  · rw [defined] at ran defines
    have ready := begins.trans defines
    have finishes := evolving_attach type live.qualifiedName
      (begun live.installed plan session.scopes.length).scope plan between (ready.apart apart)
    cases ran
    exact ⟨(ready.mono (List.nil_subset _) (List.nil_subset _)).trans finishes, nofun⟩

/-- A plan replaces what shows the class as its owner, and nothing else. -/
theorem shows_of_published {capability : Capability} {given : Option Settings}
    {extracted : RecordModel} {plan : Plan} (named : extracted.typeName = live.name)
    (planned : planInstallation live.installed capability given extracted
      (takenNames session live.qualifiedName) = .ok plan)
    {name : Text} (published : name ∈ publicNames live.qualifiedName plan.pending) :
    isTopLevel live.qualifiedName = true ∧
      (∃ other : Capability,
        other.typeName (effectiveSettings live.installed given) live.name = name) ∧
      ∀ entry ∈ session.module.entries, entry.1 = name →
        ownerOf session entry.2 = some live.qualifiedName := by
  obtain ⟨settings, model, pending, -⟩ := planInstallation_eq_ok planned
  obtain ⟨top, beside⟩ := mem_publicNames.1 published
  rw [pending, mem_namesAt_pending] at beside
  obtain ⟨other, requested, -, brought⟩ := beside
  rw [(namesAt_capabilityArtifacts _ _ _).1, List.mem_singleton] at brought
  have sameName : plan.model.typeName = live.name := by
    rw [model]
    exact named
  refine ⟨top, ⟨other, ?_⟩, fun entry member same => ?_⟩
  · rw [brought, settings, sameName]
  · by_contra foreign
    have free := (namesApart_of_generate (generate_of_planned planned)).scope_free name
      (mem_generatedTypeNames.2 ⟨other, requested, brought.symm⟩)
    rw [takenNames, if_pos top, Option.getD_some] at free
    apply free
    rw [← same]
    exact List.mem_map_of_mem (List.mem_filter.2 ⟨member, by simpa using foreign⟩)

/-- What an application changes: it marks values with the qualified name of its class, it replaces
entries of the module whose values show that owner, and neither if it ends with a fault. -/
theorem evolves_applyCapability {capability : Capability} {given : Option Settings}
    {outcome : Except Fault Value} {after : Session} (known : session.types[type]? = some live)
    (apart : session.ScopesApart)
    (ran : (applyCapability capability given (.type type)).run session = (outcome, after)) :
    (outcome.isOk = false → session.Evolves [] [] after) ∧
      ∃ names, session.Evolves [live.qualifiedName] names after ∧
        ∀ name ∈ names, isTopLevel live.qualifiedName = true ∧
          (∃ other : Capability,
            other.typeName (effectiveSettings live.installed given) live.name = name) ∧
          ∀ entry ∈ session.module.entries, entry.1 = name →
            ownerOf session entry.2 = some live.qualifiedName := by
  rw [applyCapability, ← map_eq_pure_bind, run_map] at ran
  rcases (run_applyToType known : _ ∨ _ ∨ ∃ extracted plan, _ ∧
      planInstallation live.installed capability given extracted
        (takenNames session live.qualifiedName) = .ok plan ∧ _) with
    ⟨fault, -, refused⟩ | ⟨-, found⟩ | ⟨extracted, plan, named, planned, installs⟩
  · rw [refused] at ran
    cases ran
    exact ⟨fun _ => session.evolves_refl, [], session.evolves_refl, List.forall_mem_nil _⟩
  · rw [found] at ran
    cases ran
    exact ⟨by simp [Except.isOk, Except.toBool], [], session.evolves_refl, List.forall_mem_nil _⟩
  · rw [installs] at ran
    rcases installed : (install type live.installed plan).run session with ⟨result, last⟩
    obtain ⟨evolved, unpublished⟩ := evolves_install known apart plan installed
    rw [installed] at ran
    cases result with
    | error fault =>
      cases ran
      exact ⟨fun _ => unpublished rfl, _, evolved, fun name member =>
        shows_of_published named planned member⟩
    | ok value =>
      cases ran
      exact ⟨by simp [Except.isOk, Except.toBool], _, evolved, fun name member =>
        shows_of_published named planned member⟩

/-- An installation is never refused: what it ends with is a failure of code. -/
theorem isFailure_of_install (known : session.types[type]? = some live) {plan : Plan}
    {fault : Fault} {after : Session}
    (ran : (install type live.installed plan).run session = (.error fault, after)) :
    fault.isFailure = true := by
  rw [run_install_stages known] at ran
  generalize session.beginning type live.installed plan = before at ran
  generalize (begun live.installed plan session.scopes.length).scope = scope at ran
  rcases defined : (defineArtifacts scope plan.pending).run before with ⟨other | _, between⟩
  · rw [defined] at ran
    cases ran
    exact isFailure_of_defineArtifacts defined
  · rw [defined] at ran
    cases ran

/-- A class that has nothing else against it is refused exactly if one of its names is bound to a
value that does not show it as the owner. -/
theorem collides_iff {capability : Capability} {given : Option Settings}
    {extracted : RecordModel} {artifacts : List Artifact}
    (known : session.types[type]? = some live) (top : isTopLevel live.qualifiedName = true)
    (missing : (installedCapabilities live.installed).contains capability = false)
    (read : (readModel type).run session = (.ok extracted, session))
    (generated : generate (requestedModel live.installed capability extracted)
      (effectiveSettings live.installed given) (some []) = .ok artifacts) :
    (∃ entry ∈ session.module.entries,
        entry.1 ∈ (requestedModel live.installed capability extracted).generatedTypeNames
          (effectiveSettings live.installed given) ∧
        ownerOf session entry.2 ≠ some live.qualifiedName) ↔
      ∃ name, (applyCapability capability given (.type type)).run session =
        (.error (.refused ⟨.typeNameTaken name, some extracted.typeName, extracted.location⟩),
          session) := by
  let taken := (session.module.entries.filter fun entry =>
    ownerOf session entry.2 != some live.qualifiedName).map (·.1)
  have names : takenNames session live.qualifiedName = some taken := if_pos top
  have inScope := generate_scope generated taken
  have plans := run_planApplication_of_read known missing read given
  rw [names, planInstallation, inScope] at plans
  rw [applyCapability, ← map_eq_pure_bind, run_map, run_applyToType_planned, plans, known,
    Option.bind_some]
  constructor
  · rintro ⟨entry, member, generatedName, foreign⟩
    have isTaken : entry.1 ∈ taken :=
      List.mem_map_of_mem (List.mem_filter.2 ⟨member, by simpa using foreign⟩)
    cases found : ((requestedModel live.installed capability extracted).generatedTypeNames
        (effectiveSettings live.installed given)).find? taken.contains with
    | some name => exact ⟨name, rfl⟩
    | none =>
      have free := List.find?_eq_none.1 found entry.1 generatedName
      exact absurd (List.contains_iff_mem.2 isTaken) free
  · rintro ⟨name, refused⟩
    cases found : ((requestedModel live.installed capability extracted).generatedTypeNames
        (effectiveSettings live.installed given)).find? taken.contains with
    | some first =>
      have isTaken := List.contains_iff_mem.1 (List.find?_some found)
      obtain ⟨entry, among, rfl⟩ := List.mem_map.1 isTaken
      obtain ⟨member, foreign⟩ := List.mem_filter.1 among
      exact ⟨entry, member, List.mem_of_find?_eq_some found, by simpa using foreign⟩
    | none =>
      -- a plan that is carried out is not refused any more
      rw [found] at refused
      dsimp only at refused
      rcases installed : (install type live.installed _).run session with ⟨fault | _, after⟩
      · rw [installed] at refused
        have failure := isFailure_of_install known installed
        cases refused
        cases failure
      · rw [installed] at refused
        cases refused

end Applications

/-! ## One application after the other -/

/-- An application to a class of a session. -/
structure Decoration where
  type : Nat
  application : Application

def Decoration.action (decoration : Decoration) : Action Value :=
  applyCapability decoration.application.capability decoration.application.given
    (.type decoration.type)

/-- The session that several decorations leave. -/
def Session.afterEach (session : Session) (decorations : List Decoration) : Session :=
  decorations.foldl (fun session decoration => (decoration.action.run session).2) session

/-- A decoration makes a mark: it succeeds, the class has the owner as its qualified name, and the
value is marked then and was not before. -/
def Decoration.Marks (decoration : Decoration) (session : Session) (value : Value)
    (owner : Text) : Prop :=
  session.qualifiedNameOf decoration.type = owner ∧
    (decoration.action.run session).1.isOk = true ∧
    session.mark? value ≠ some owner ∧
    (decoration.action.run session).2.mark? value = some owner

section Runs

variable {session : Session} {decorations : List Decoration}

/-- Several decorations keep the scopes apart, and what is marked behind them was marked before or
has its mark from one of them. -/
theorem marks_afterEach (apart : session.ScopesApart)
    (inside : ∀ decoration ∈ decorations, decoration.type < session.types.length) :
    (session.afterEach decorations).ScopesApart ∧
      ∀ value owner, (session.afterEach decorations).mark? value = some owner →
        session.mark? value = some owner ∨
          ∃ earlier decoration later, decorations = earlier ++ decoration :: later ∧
            decoration.Marks (session.afterEach earlier) value owner := by
  induction decorations generalizing session with
  | nil => exact ⟨apart, fun _ _ => .inl⟩
  | cons decoration later ih =>
    rw [List.forall_mem_cons] at inside
    have known := List.getElem?_eq_getElem inside.1
    obtain ⟨unmarked, names, evolved, -⟩ := evolves_applyCapability known apart
      (Prod.eta (decoration.action.run session)).symm
    have insideLater : ∀ other ∈ later,
        other.type < (decoration.action.run session).2.types.length :=
      fun other member => Nat.lt_of_lt_of_le (inside.2 other member) evolved.types
    obtain ⟨lastApart, traced⟩ := ih (evolved.apart apart) insideLater
    refine ⟨lastApart, fun value owner marked => ?_⟩
    rcases traced value owner marked with now | ⟨earlier, other, rest, rfl, marks⟩
    · by_cases before : session.mark? value = some owner
      · exact .inl before
      · refine .inr ⟨[], decoration, later, rfl, ?_, ?_, before, now⟩
        · have only := (evolved.marks value owner now).resolve_left before
          rw [List.mem_singleton.1 only, Session.afterEach, List.foldl_nil, Session.qualifiedNameOf,
            known]
        · cases outcome : (decoration.action.run session).1.isOk with
          | true => exact outcome
          | false =>
            have same := (unmarked outcome).marks value owner now
            exact absurd (same.resolve_right List.not_mem_nil) before
    · exact .inr ⟨decoration :: earlier, other, rest, rfl, marks⟩

/-- After any decorations, a further one replaces a value of the module only if it succeeds, its
class stands at the top level, the name is one of a generated type of it, and the value comes from
something that has been marked for the class before: from the beginning, or by an earlier decoration
of a class of the same qualified name.  A class that has nothing else against it is refused, and
nothing changes, exactly if a value that shows another owner or none has one of its names. -/
theorem publication_follows_owners {before : Session} (apart : session.ScopesApart)
    (inside : ∀ decoration ∈ decorations, decoration.type < session.types.length)
    (reached : session.afterEach decorations = before) {decoration : Decoration} {live : LiveType}
    (known : before.types[decoration.type]? = some live) :
    (∀ entry ∈ before.module.entries, entry ∉ (decoration.action.run before).2.module.entries →
      (decoration.action.run before).1.isOk = true ∧
        isTopLevel live.qualifiedName = true ∧
        (∃ other : Capability, other.typeName
          (effectiveSettings live.installed decoration.application.given) live.name = entry.1) ∧
        ∃ source ∈ before.sources entry.2,
          session.mark? source = some live.qualifiedName ∨
            ∃ earlier other later, decorations = earlier ++ other :: later ∧
              other.Marks (session.afterEach earlier) source live.qualifiedName) ∧
      ∀ extracted artifacts, isTopLevel live.qualifiedName = true →
        (installedCapabilities live.installed).contains decoration.application.capability =
          false →
        (readModel decoration.type).run before = (.ok extracted, before) →
        generate (requestedModel live.installed decoration.application.capability extracted)
          (effectiveSettings live.installed decoration.application.given) (some []) =
            .ok artifacts →
        ((∃ entry ∈ before.module.entries,
            entry.1 ∈ (requestedModel live.installed decoration.application.capability
              extracted).generatedTypeNames
                (effectiveSettings live.installed decoration.application.given) ∧
            ownerOf before entry.2 ≠ some live.qualifiedName) ↔
          ∃ name, decoration.action.run before = (.error (.refused
            ⟨.typeNameTaken name, some extracted.typeName, extracted.location⟩), before)) := by
  obtain ⟨stillApart, traced⟩ := marks_afterEach apart inside
  rw [reached] at stillApart traced
  obtain ⟨unchanged, names, evolved, shows⟩ := evolves_applyCapability known stillApart
    (Prod.eta (decoration.action.run before)).symm
  constructor
  · intro entry member lost
    obtain ⟨top, generatedName, owned⟩ :=
      shows entry.1 ((evolved.module entry member).resolve_left lost)
    obtain ⟨source, among, marked⟩ := exists_mark_of_ownerOf (owned entry member rfl)
    refine ⟨?_, top, generatedName, source, among, traced source _ marked⟩
    cases outcome : (decoration.action.run before).1.isOk with
    | true => rfl
    | false =>
      have kept := (unchanged outcome).module entry member
      exact absurd (kept.resolve_right List.not_mem_nil) lost
  · intro extracted artifacts top missing read generated
    exact collides_iff known top missing read generated

end Runs

/-- A type that was generated elsewhere, for another class of the same qualified name. -/
def importedType : LiveType :=
  { plainType "DestructP" "DestructP" [] none ⟨.empty, [], none⟩ with owner := some "P" }

/-- A module that imports the type and has a number under the name of a view. -/
def importingSession : Session :=
  { pointSession with
    types := [pointType, importedType]
    scopes := [⟨[("P", .type 0), ("DestructP", .type 1), ("DestructPView", .whole 1)]⟩] }

def companionRequest : Decoration :=
  ⟨0, .destructure, none⟩

def viewRequest : Decoration :=
  ⟨0, .destructureRef, none⟩

theorem importingSession_apart : importingSession.ScopesApart := by
  refine ⟨Nat.one_pos, fun index live known installation member => ?_⟩
  have none_ : ∀ live ∈ importingSession.types, live.installed = none := by
    simp [importingSession, pointType, importedType, plainType]
  rw [none_ live (List.mem_of_getElem? known)] at member
  cases member

/-- Whether a type and its model are those of the example, as they are read behind the companion:
called `P`, without a view, and with a name for one that another type has. -/
def isCrowded (session : Session) : Option LiveType → Except Fault RecordModel → Bool
  | some live, .ok extracted =>
    decide (live.qualifiedName = "P".toList) &&
      !(installedCapabilities live.installed).contains .destructureRef &&
      (generate (requestedModel live.installed .destructureRef extracted)
        (effectiveSettings live.installed none) (some [])).isOk &&
      session.module.entries.any fun entry =>
        ((requestedModel live.installed .destructureRef extracted).generatedTypeNames
          (effectiveSettings live.installed none)).contains entry.1 &&
        decide (ownerOf session entry.2 ≠ some live.qualifiedName)
  | _, _ => false

theorem importingSession_readable : ∃ live extracted artifacts,
    (importingSession.afterEach [companionRequest]).types[0]? = some live ∧
      live.qualifiedName = "P".toList ∧
      (installedCapabilities live.installed).contains .destructureRef = false ∧
      (readModel 0).run (importingSession.afterEach [companionRequest]) =
        (.ok extracted, importingSession.afterEach [companionRequest]) ∧
      generate (requestedModel live.installed .destructureRef extracted)
        (effectiveSettings live.installed none) (some []) = .ok artifacts ∧
      ∃ entry ∈ (importingSession.afterEach [companionRequest]).module.entries,
        entry.1 ∈ (requestedModel live.installed .destructureRef extracted).generatedTypeNames
          (effectiveSettings live.installed none) ∧
        ownerOf (importingSession.afterEach [companionRequest]) entry.2 ≠ some live.qualifiedName := by
  have checked : isCrowded (importingSession.afterEach [companionRequest])
      (importingSession.afterEach [companionRequest]).types[0]?
      ((readModel 0).run (importingSession.afterEach [companionRequest])).1 = true := by
    decide +kernel
  unfold isCrowded at checked
  split at checked
  case h_1 live extracted known read =>
    simp only [Bool.and_eq_true, Bool.not_eq_true', decide_eq_true_eq, List.any_eq_true,
      List.contains_iff_mem] at checked
    obtain ⟨⟨⟨qualified, missing⟩, generates⟩, taken⟩ := checked
    refine ⟨live, extracted, ?_⟩
    cases generated : generate (requestedModel live.installed .destructureRef extracted)
        (effectiveSettings live.installed none) (some []) with
    | error diagnostic =>
      rw [generated] at generates
      cases generates
    | ok artifacts =>
      refine ⟨artifacts, known, qualified, missing, ?_, rfl, taken⟩
      rcases run_readModel (importingSession.afterEach [companionRequest]) 0 with
        ⟨fault, failed, -⟩ | ⟨model, ran, -⟩
      · rw [failed] at read
        cases read
      · rw [ran] at read
        cases read
        exact ran
  case h_2 => cases checked

/-- The imported type is replaced, as it shows the class as its owner; a view is refused then for
the number under its name. -/
theorem importingSession_follows :
    (∃ source ∈ importingSession.sources (.type 1),
      importingSession.mark? source = some "P".toList) ∧
      ∃ name diagnostic,
        viewRequest.action.run (importingSession.afterEach [companionRequest]) =
          (.error (.refused diagnostic), importingSession.afterEach [companionRequest]) ∧
        diagnostic.cause = .typeNameTaken name := by
  constructor
  · have replaced : ("DestructP".toList, Value.type 1) ∈ importingSession.module.entries ∧
        ("DestructP".toList, Value.type 1) ∉
          (companionRequest.action.run importingSession).2.module.entries := by decide +kernel
    have known : importingSession.types[companionRequest.type]? = some pointType := rfl
    have inside : ∀ decoration ∈ ([] : List Decoration),
        decoration.type < importingSession.types.length := nofun
    obtain ⟨-, -, -, source, member, marked⟩ :=
      (publication_follows_owners importingSession_apart inside rfl known).1 _ replaced.1 replaced.2
    rcases marked with marked | ⟨earlier, other, later, split, -⟩
    · exact ⟨source, member, marked⟩
    · simp at split
  · obtain ⟨live, extracted, artifacts, known, qualified, missing, read, generated, taken⟩ :=
      importingSession_readable
    have inside : ∀ decoration ∈ [companionRequest],
        decoration.type < importingSession.types.length := by decide
    have top : isTopLevel live.qualifiedName = true := by
      rw [qualified]
      decide
    have knownHere : (importingSession.afterEach [companionRequest]).types[viewRequest.type]? =
        some live := known
    have law := (publication_follows_owners importingSession_apart inside rfl knownHere).2
      extracted artifacts top missing read generated
    obtain ⟨name, refused⟩ := law.1 taken
    exact ⟨name, _, refused, rfl⟩

end Live
end OpenRecord
