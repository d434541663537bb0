import OpenRecord.Proofs.Expansion.TypeNames
import OpenRecord.Proofs.Generation.Hygiene
import OpenRecord.Proofs.Generation.WellFormed
import OpenRecord.Proofs.Record.Clashes

namespace OpenRecord

/-!
# Names that emitted code binds

A model is checked for clashes before anything is emitted from it.  The check passes exactly if the
names of the model keep apart in seven respects, and refuses every other model as a collision of
names.  What the seven respects are for is said of the emitted code: none of its binders takes the
place of another one, of a field, or of a member that the class has already.

The binders are the methods that are put into the class, the types that are put beside it, and what
the class of a view binds for itself and for the fields that it shows.  Two facts about checked
settings carry the types: the prefix is not empty, so that no type has the name of its class, and the
suffixes differ.
-/

open Code

/-! ## What a class binds -/

/-- The name that a part of a class binds. -/
def Code.Member.boundName : Member → Text
  | .slots _ => "__slots__"
  | .field name _ _ => name
  | .method code => code.name

/-- Whether a part of a class adds to a property that is there already. -/
def Code.Member.isSetter : Member → Bool
  | .method code => code.role = .setter
  | _ => false

/-- The names that a class binds, each part once; a setter belongs to the part of its property. -/
def Code.ClassCode.boundNames (code : ClassCode) : List Text :=
  (code.members.filter (!·.isSetter)).map (·.boundName)

/-- The class of a view binds its slots, its constructor, and a property for each exposed field, all
under different names, and has setters for these properties only. -/
structure Code.ClassCode.ShowsFields (code : ClassCode) (model : RecordModel) : Prop where
  binds : code.boundNames =
    ("__slots__" : Text) :: ("__init__" : Text) :: model.exposedFields.map (·.name)
  nodup : code.boundNames.Nodup
  setters : ∀ setter, .method setter ∈ code.members → setter.role = .setter →
    ∃ getter, .method getter ∈ code.members ∧ getter.role = .getter ∧ getter.name = setter.name

theorem boundNames_viewClass (model : RecordModel) (name scope : Text) (writable : Bool) :
    (viewClass model name writable scope).boundNames =
      ("__slots__" : Text) :: ("__init__" : Text) :: model.exposedFields.map (·.name) := by
  have shown (fields : List Field) :
      ((fields.flatMap fun field =>
          Member.method (viewGetter name scope writable field) ::
            (if writable then [Member.method (viewSetter name scope field)] else [])).filter
        (!·.isSetter)).map (·.boundName) = fields.map (·.name) := by
    induction fields with
    | nil => rfl
    | cons first later ih =>
      rw [List.flatMap_cons, List.filter_append, List.map_append, ih]
      cases writable <;> rfl
  exact congrArg (fun names => ("__slots__" : Text) :: ("__init__" : Text) :: names)
    (shown model.exposedFields)

/-- The parts of a class with distinct fields, none of which starts like a special name. -/
theorem showsFields_viewClass {model : RecordModel} {settings : Settings}
    {scope : Option (List Text)} (names : model.NamesApart settings scope) (name operation : Text)
    (writable : Bool) : (viewClass model name writable operation).ShowsFields model := by
  have exposed : (model.exposedFields.map (·.name)).Sublist model.fieldNames :=
    List.filter_sublist.map _
  have special (own : Text) (dunders : dunder <+: own) :
      own ∉ model.exposedFields.map (·.name) :=
    fun member => names.plain own (exposed.subset member) dunders
  refine ⟨boundNames_viewClass .., ?_, ?_⟩
  · rw [boundNames_viewClass, List.nodup_cons, List.nodup_cons]
    refine ⟨?_, special _ (by decide), names.fields_nodup.sublist exposed⟩
    rw [List.mem_cons, not_or]
    exact ⟨by decide, special _ (by decide)⟩
  · intro setter member role
    unfold viewClass at member ⊢
    rw [List.mem_cons, List.mem_cons, List.mem_flatMap] at member
    rcases member with slots | plain | ⟨field, shown, member⟩
    · cases slots
    · cases plain
      cases role
    · refine ⟨viewGetter name operation writable field, ?_, rfl, ?_⟩
      · exact List.mem_cons_of_mem _ (List.mem_cons_of_mem _
          (List.mem_flatMap.2 ⟨field, shown, List.mem_cons_self ..⟩))
      · rcases List.mem_cons.1 member with getter | setters
        · cases getter
          cases role
        · rw [List.mem_ite_nil_right] at setters
          cases List.mem_singleton.1 setters.2
          rfl

/-! ## What artifacts bind -/

theorem map_name_inClass (model : RecordModel) (settings : Settings) :
    ((synthesize model settings).filter (·.placement = .inClass)).map (·.name) =
      model.generatedMethodNames := by
  unfold synthesize RecordModel.generatedMethodNames
  induction model.requested with
  | nil => rfl
  | cons first later ih =>
    rw [List.flatMap_cons, List.filter_append, List.map_append, ih, List.flatMap_cons]
    cases first <;> rfl

theorem showsFields_of_mem_synthesize {model : RecordModel} {settings : Settings}
    {scope : Option (List Text)} {artifact : Artifact} (names : model.NamesApart settings scope)
    (member : artifact ∈ synthesize model settings)
    (view : artifact.kind = .mutationView ∨ artifact.kind = .referenceView) :
    ∃ code, artifact.definition = .type code ∧ code.ShowsFields model := by
  rcases List.mem_flatMap.1 member with ⟨capability, -, generated⟩
  cases capability with
  | destructure =>
    simp only [capabilityArtifacts, conversionArtifacts, List.mem_cons, List.not_mem_nil,
      or_false] at generated
    rcases generated with rfl | rfl | rfl <;> rcases view with view | view <;> cases view
  | mutation =>
    simp only [capabilityArtifacts, List.mem_cons, List.not_mem_nil, or_false] at generated
    rcases generated with rfl | rfl | rfl
    · exact ⟨_, rfl, showsFields_viewClass names ..⟩
    all_goals rcases view with view | view <;> cases view
  | destructureRef =>
    simp only [capabilityArtifacts, referenceArtifacts, List.mem_cons, List.not_mem_nil,
      or_false] at generated
    rcases generated with rfl | rfl
    · exact ⟨_, rfl, showsFields_viewClass names ..⟩
    · rcases view with view | view <;> cases view

/-- The binders of artifacts keep apart from each other and from what is bound already. -/
structure BindersApart (model : RecordModel) (scope : Option (List Text))
    (artifacts : List Artifact) : Prop where
  methods_nodup : ((artifacts.filter (·.placement = .inClass)).map (·.name)).Nodup
  methods_free : ∀ artifact ∈ artifacts, artifact.placement = .inClass →
    artifact.name ∉ model.fieldNames ∧ artifact.name ∉ model.memberNames
  types_nodup : ((artifacts.filter (·.placement = .besideClass)).map (·.name)).Nodup
  types_free : ∀ artifact ∈ artifacts, artifact.placement = .besideClass →
    artifact.name ≠ model.typeName ∧ artifact.name ∉ model.fieldNames ∧
      artifact.name ∉ scope.getD []
  views : ∀ artifact ∈ artifacts, artifact.kind = .mutationView ∨ artifact.kind = .referenceView →
    ∃ code, artifact.definition = .type code ∧ code.ShowsFields model

/-- A generated type is not named like its class. -/
theorem Capability.typeName_ne {settings : Settings} (nonempty : settings.companionPrefix ≠ [])
    (capability : Capability) (name : Text) : capability.typeName settings name ≠ name := by
  intro same
  have longer := congrArg List.length same
  rw [typeName_eq, List.length_append, List.length_append] at longer
  have positive := List.length_pos_iff.2 nonempty
  omega

/-- The artifacts of a model whose names keep apart have binders that keep apart. -/
theorem bindersApart_synthesize {model : RecordModel} {settings : Settings}
    {scope : Option (List Text)} (accepted : settings.Accepted)
    (nonempty : settings.companionPrefix ≠ []) (names : model.NamesApart settings scope) :
    BindersApart model scope (synthesize model settings) := by
  have method {artifact : Artifact} (member : artifact ∈ synthesize model settings)
      (inside : artifact.placement = .inClass) : artifact.name ∈ model.generatedMethodNames := by
    rw [← map_name_inClass model settings]
    exact List.mem_map_of_mem (List.mem_filter.2 ⟨member, decide_eq_true inside⟩)
  have type {artifact : Artifact} (member : artifact ∈ synthesize model settings)
      (beside : artifact.placement = .besideClass) :
      artifact.name ∈ model.generatedTypeNames settings := by
    rw [RecordModel.generatedTypeNames, ← map_name_besideClass model settings]
    exact List.mem_map_of_mem (List.mem_filter.2 ⟨member, decide_eq_true beside⟩)
  constructor
  case methods_nodup =>
    rw [map_name_inClass]
    exact nodup_generatedMethodNames
  case types_nodup =>
    rw [map_name_besideClass]
    exact model.nodup_generatedTypeNames accepted
  case methods_free =>
    intro artifact member inside
    have generated := method member inside
    exact ⟨fun field => names.not_method _ field generated,
      fun other => names.members _ other generated⟩
  case types_free =>
    intro artifact member beside
    have generated := type member beside
    refine ⟨?_, fun field => names.not_type _ field generated, names.scope_free _ generated⟩
    rcases List.mem_map.1 generated with ⟨capability, -, named⟩
    rw [← named]
    exact capability.typeName_ne nonempty model.typeName
  case views => exact fun artifact member view => showsFields_of_mem_synthesize names member view

/-! ## The check of a model -/

/-- A model passes the check of its names exactly if they keep apart. -/
theorem RecordModel.checkNames_eq_ok_iff {model : RecordModel} {settings : Settings}
    {scope : Option (List Text)} :
    model.checkNames settings scope = .ok () ↔ model.NamesApart settings scope := by
  rw [← firstClash_eq_none_iff, checkNames]
  cases model.firstClash settings scope <;> simp

/-- The check of names is sound and complete for what is emitted.  With checked settings it passes
exactly the models whose names keep apart, and refuses every other one as a collision of names at
the place of its class; and whatever is generated has binders that keep apart. -/
theorem checkNames_apart {values : SettingValues} {settings : Settings}
    (checked : Settings.check values = .ok settings) (model : RecordModel)
    (scope : Option (List Text)) :
    (model.checkNames settings scope = .ok () ↔ model.NamesApart settings scope) ∧
      (¬ model.NamesApart settings scope → ∃ cause, cause.kind = .namingCollision ∧
        model.checkNames settings scope = .error ⟨cause, some model.typeName, model.location⟩) ∧
      ∀ artifacts, generate model settings scope = .ok artifacts →
        BindersApart model scope artifacts := by
  refine ⟨RecordModel.checkNames_eq_ok_iff, ?_, ?_⟩
  · rw [← RecordModel.firstClash_eq_none_iff, ← ne_eq, Option.ne_none_iff_exists']
    rintro ⟨cause, clash⟩
    refine ⟨cause, RecordModel.kind_of_firstClash clash, ?_⟩
    rw [RecordModel.checkNames, clash]
  · intro artifacts generated
    rcases generate_eq_ok generated with ⟨rfl, clash, -⟩
    exact bindersApart_synthesize (Settings.accepted_of_check checked)
      (Settings.companionPrefix_ne_nil checked) (RecordModel.firstClash_eq_none_iff.1 clash)

/-- A record with a hidden field and a method, which is to be taken apart and viewed. -/
def seenRecord : RecordModel where
  typeName := "P"
  genericStyle := .none
  genericParameters := []
  genericBase := none
  fields := [⟨"x", "int", 0, .isPublic, false⟩, ⟨"_y", "int", 1, .isPrivate, true⟩]
  capabilities := ⟨true, false, true⟩
  memberNames := ["size"]
  location := none

/-- Its names keep apart among the names of a module, and so do the binders of its artifacts; under
the name of one of its types the module would be in the way. -/
theorem seenRecord_apart : ∃ artifacts cause,
    Settings.check .empty = .ok .default ∧
      seenRecord.checkNames .default (some ["P", "copy"]) = .ok () ∧
      generate seenRecord .default (some ["P", "copy"]) = .ok artifacts ∧
      BindersApart seenRecord (some ["P", "copy"]) artifacts ∧
      cause.kind = .namingCollision ∧
      seenRecord.checkNames .default (some ["DestructPView"]) =
        .error ⟨cause, some seenRecord.typeName, none⟩ := by
  have returns : (generate seenRecord .default (some ["P", "copy"])).isOk = true := by
    decide +kernel
  have taken : ¬ seenRecord.NamesApart .default (some ["DestructPView"]) := by
    rw [← RecordModel.firstClash_eq_none_iff]
    decide
  cases generated : generate seenRecord .default (some ["P", "copy"]) with
  | error diagnostic =>
    rw [generated] at returns
    cases returns
  | ok artifacts =>
    have binders := (checkNames_apart Settings.check_empty seenRecord (some ["P", "copy"])).2.2
      artifacts generated
    rcases (checkNames_apart Settings.check_empty seenRecord (some ["DestructPView"])).2.1 taken with
      ⟨cause, kind, refused⟩
    exact ⟨artifacts, cause, Settings.check_empty, by decide, rfl, binders, kind, refused⟩

end OpenRecord
