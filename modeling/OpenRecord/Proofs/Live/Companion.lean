import OpenRecord.Proofs.Live.EmittedCode
import OpenRecord.Proofs.Record.Clashes

namespace OpenRecord

/-!
# The companion as a live class

The emitted companion is a class whose constructor takes the exposed fields by name.  Its body is
run declaration by declaration, so that a name which one declaration binds is seen by those behind
it.  A skipped field called like the module of data classes hides that module from the next skipped
field, and an exposed field called like the method that every class has gets this method for a
default, behind which no other field can do without one.  Nothing else keeps a companion from being
defined.
-/

open Code

/-- The name by which declarations of skipped fields ask for their marks. -/
def Live.derivationModule : Text := "dataclasses"

/-- No declaration takes a name away from one of the same kind behind it: skipped fields need the
module of data classes, and exposed ones must not stand behind a default. -/
def RecordModel.Declarable (model : RecordModel) : Prop :=
  model.fields.Pairwise fun field later =>
    ¬ (field.skip = later.skip ∧
      field.name = if field.skip then Live.derivationModule else Live.lineName)

instance (model : RecordModel) : Decidable model.Declarable :=
  inferInstanceAs (Decidable (List.Pairwise _ _))

namespace Live

/-! ## The class -/

/-- A field of the companion as its declaration gives it. -/
def declaredField (field : Field) : RecordField :=
  ⟨field.name, none, false, false, field.skip⟩

/-- A field of the companion with the default that the class finds for it. -/
def companionField (field : Field) : RecordField :=
  { declaredField field with
    default := if field.skip = false ∧ field.name = lineName then some lineMethod else none }

/-- The class that the emitted companion of some fields defines. -/
def companionType (name qualifiedName : Text) (fields : List Field) : LiveType :=
  { plainType name qualifiedName [] none ⟨.empty, [], none⟩ with
    attributes := derivedAttributes ⟨false, false⟩ (fields.map companionField) .empty
    fields := some (fields.map companionField) }

/-! ## The body -/

/-- What the declarations of skipped fields leave in the body. -/
def marks (names : List Text) : NameTable Attribute :=
  ⟨names.map fun name => (name, .value (.facility .fieldMark))⟩

theorem get?_marks_of_mem {names : List Text} {name : Text} (member : name ∈ names) :
    (marks names).get? name = some (.value (.facility .fieldMark)) :=
  lookupName_map (fun _ => Attribute.value (.facility .fieldMark)) member

theorem get?_marks_of_notMem {names : List Text} {name : Text} (other : name ∉ names) :
    (marks names).get? name = none := by
  refine lookupName_eq_none_iff.2 fun member => other ?_
  rw [marks, List.map_map] at member
  obtain ⟨known, among, rfl⟩ := List.mem_map.1 member
  exact among

theorem put_marks {names : List Text} {name : Text} (fresh : name ∉ names) :
    (marks names).put name (.value (.facility .fieldMark)) = marks (names ++ [name]) := by
  rw [NameTable.put, marks, putName_of_notMem]
  · simp [marks]
  · rw [List.map_map]
    intro member
    obtain ⟨known, among, rfl⟩ := List.mem_map.1 member
    exact fresh among

/-- The names of the skipped ones among fields. -/
def skippedNames (fields : List Field) : List Text :=
  (fields.filter (·.skip)).map (·.name)

/-- The names of the exposed ones among fields. -/
def exposedNames (fields : List Field) : List Text :=
  (fields.filter (!·.skip)).map (·.name)

theorem exposedNames_sublist (fields : List Field) :
    (exposedNames fields).Sublist (fields.map (·.name)) :=
  List.filter_sublist.map _

def fieldMember (field : Field) : Member :=
  .field field.name field.declaredType field.skip

theorem facilityAttribute?_field :
    facilityAttribute? .dataclassesModule "field" = some .fieldMaker := by
  decide +kernel

theorem run_readAttribute_mark {call : Caller} {session : Session} {name : Text} :
    (readAttribute call (.facility .fieldMark) name).run session =
      (.error (.failed (.noAttribute "Field" name)), session) := by
  simp only [readAttribute, run_bind, run_get, readFacility, facilityAttribute?,
    Facility.moduleName?, run_fail]
  rfl

section Body

variable {callback : Value → Action Value} {depth : Nat} {session : Session} {scopes : List Nat}
  {qualifiedName : Text}

theorem runMembers_exposed {body : Body} {field : Field} (later : List Member)
    (exposed : field.skip = false) :
    (runMembers (invoke callback (depth + 1)) scopes qualifiedName body
        (fieldMember field :: later)).run session =
      (runMembers (invoke callback (depth + 1)) scopes qualifiedName
        { body with fields := body.fields ++ [declaredField field] } later).run session := by
  simp only [fieldMember, exposed, runMembers, Bool.false_eq_true, if_false, run_bind, run_pure,
    declaredField]

theorem runMembers_skipped {seen : List Text} {fields : List RecordField}
    {slots : Option (List Text)} {field : Field} (later : List Member)
    (means : session.Means scopes derivationModule (.facility .dataclassesModule))
    (skipped : field.skip = true) (free : derivationModule ∉ seen) (fresh : field.name ∉ seen) :
    (runMembers (invoke callback (depth + 1)) scopes qualifiedName ⟨marks seen, fields, slots⟩
        (fieldMember field :: later)).run session =
      (runMembers (invoke callback (depth + 1)) scopes qualifiedName
        ⟨marks (seen ++ [field.name]), fields ++ [declaredField field], slots⟩ later).run
          session := by
  have unmarked : (marks seen).get? "dataclasses" = none := get?_marks_of_notMem free
  have module : (resolveInBody (marks seen) scopes "dataclasses").run session =
      (.ok (.facility .dataclassesModule), session) := by
    simp only [resolveInBody, unmarked]
    exact run_resolveOutside means
  have maker : (readAttribute (invoke callback (depth + 1)) (.facility .dataclassesModule)
      "field").run session = (.ok (.facility .fieldMaker), session) :=
    run_readAttribute_facility facilityAttribute?_field
  simp only [fieldMember, skipped, runMembers, if_true, run_bind, module, maker,
    run_invoke_facility, callFacility, run_pure, put_marks fresh, declaredField]

/-- The body of a companion is run to its end if no skipped field hides the module. -/
theorem run_runMembers {seen : List Text} {before : List RecordField}
    {slots : Option (List Text)} {fields : List Field}
    (means : session.Means scopes derivationModule (.facility .dataclassesModule))
    (distinct : (seen ++ fields.map (·.name)).Nodup)
    (free : derivationModule ∈ seen → ∀ field ∈ fields, field.skip = false)
    (apart : fields.Pairwise fun field later =>
      ¬ (field.skip = true ∧ field.name = derivationModule ∧ later.skip = true)) :
    (runMembers (invoke callback (depth + 1)) scopes qualifiedName ⟨marks seen, before, slots⟩
        (fields.map fieldMember)).run session =
      (.ok ⟨marks (seen ++ skippedNames fields), before ++ fields.map declaredField, slots⟩,
        session) := by
  -- only the marks of the skipped fields declared so far can hide the module from a later one
  induction fields generalizing seen before with
  | nil => simp [runMembers, run_pure, skippedNames]
  | cons field later ih =>
    rw [List.pairwise_cons] at apart
    rw [List.map_cons] at distinct ⊢
    cases skipped : field.skip with
    | false =>
      rw [runMembers_exposed _ skipped, ih ?_ ?_ apart.2]
      · simp [skippedNames, skipped]
      · exact distinct.sublist ((List.sublist_cons_self _ _).append_left _)
      · intro known other member
        exact free known other (List.mem_cons_of_mem _ member)
    | true =>
      have unseen : derivationModule ∉ seen := by
        intro known
        simp [free known field (List.mem_cons_self ..)] at skipped
      have fresh : field.name ∉ seen := by
        intro known
        exact (List.nodup_append.1 distinct).2.2 _ known _ (List.mem_cons_self ..) rfl
      rw [runMembers_skipped _ means skipped unseen fresh, ih ?_ ?_ apart.2]
      · simp [skippedNames, skipped]
      · rw [List.append_assoc]
        exact distinct
      · intro known other member
        rw [List.mem_append, List.mem_singleton] at known
        have hides := known.resolve_left unseen
        cases exposed : other.skip with
        | false => rfl
        | true => exact absurd ⟨skipped, hides.symm, exposed⟩ (apart.1 other member)

/-- It fails if one does and another skipped field stands behind it. -/
theorem run_runMembers_hidden {seen : List Text} {before : List RecordField}
    {slots : Option (List Text)} {fields : List Field}
    (means : session.Means scopes derivationModule (.facility .dataclassesModule))
    (distinct : (seen ++ fields.map (·.name)).Nodup)
    (hidden : (derivationModule ∈ seen ∧ ∃ field ∈ fields, field.skip = true) ∨
      ¬ fields.Pairwise fun field later =>
        ¬ (field.skip = true ∧ field.name = derivationModule ∧ later.skip = true)) :
    ∃ failure, (runMembers (invoke callback (depth + 1)) scopes qualifiedName
      ⟨marks seen, before, slots⟩ (fields.map fieldMember)).run session =
        (.error (.failed failure), session) := by
  induction fields generalizing seen before with
  | nil => simp at hidden
  | cons field later ih =>
    rw [List.map_cons] at distinct ⊢
    cases skipped : field.skip with
    | false =>
      rw [runMembers_exposed _ skipped]
      apply ih (distinct.sublist ((List.sublist_cons_self _ _).append_left _))
      rcases hidden with ⟨known, other, member, other_skipped⟩ | clash
      · rcases List.mem_cons.1 member with rfl | member
        · simp [skipped] at other_skipped
        · exact .inl ⟨known, other, member, other_skipped⟩
      · refine .inr fun apart => clash (List.pairwise_cons.2 ⟨?_, apart⟩)
        rintro other - ⟨field_skipped, -⟩
        simp [skipped] at field_skipped
    | true =>
      by_cases known : derivationModule ∈ seen
      · refine ⟨.noAttribute "Field" "field", ?_⟩
        have marked : (marks seen).get? "dataclasses" = some (.value (.facility .fieldMark)) :=
          get?_marks_of_mem known
        have mark : (resolveInBody (marks seen) scopes "dataclasses").run session =
            (.ok (.facility .fieldMark), session) := by
          simp only [resolveInBody, marked, run_pure]
        simp only [fieldMember, skipped, runMembers, if_true, run_bind, mark,
          run_readAttribute_mark]
      · have fresh : field.name ∉ seen := by
          intro again
          exact (List.nodup_append.1 distinct).2.2 _ again _ (List.mem_cons_self ..) rfl
        rw [runMembers_skipped _ means skipped known fresh]
        apply ih (by rw [List.append_assoc]; exact distinct)
        have clash := hidden.resolve_left fun both => known both.1
        rw [List.pairwise_cons, Classical.not_and_iff_not_or_not] at clash
        rcases clash with here | behind
        · simp only [not_forall, not_not] at here
          obtain ⟨other, member, -, named, other_skipped⟩ := here
          refine .inl ⟨?_, other, member, other_skipped⟩
          rw [List.mem_append, List.mem_singleton]
          exact .inr named.symm
        · exact .inr behind

end Body

/-! ## Derived methods -/

/-- The defaults of the fields of a companion are all right exactly if none that the class finds
stands in front of another exposed field. -/
theorem missingDefault?_eq_none_iff {seen : Bool} {fields : List Field}
    (distinct : (fields.map (·.name)).Nodup)
    (single : seen = true → lineName ∉ fields.map (·.name)) :
    missingDefault? seen (fields.map companionField) = none ↔
      (seen = true → ∀ field ∈ fields, field.skip = true) ∧
        fields.Pairwise fun field later =>
          ¬ (field.skip = false ∧ field.name = lineName ∧ later.skip = false) := by
  induction fields generalizing seen with
  | nil => simp [missingDefault?]
  | cons field later ih =>
    rw [List.map_cons, List.nodup_cons] at distinct
    rw [List.map_cons, List.mem_cons, not_or] at single
    rw [List.map_cons, missingDefault?, List.pairwise_cons]
    cases skipped : field.skip with
    | true =>
      have hidden : (companionField field).hidden = true := skipped
      rw [hidden, Bool.true_or, if_pos rfl, ih distinct.2 fun known => (single known).2]
      simp [skipped]
    | false =>
      have hidden : (companionField field).hidden = false := skipped
      have placed : (companionField field).keywordOnly = false := rfl
      rw [hidden, placed, Bool.false_or, if_neg Bool.false_ne_true]
      by_cases named : field.name = lineName
      · have found : (companionField field).default.isSome = true := by
          simp [companionField, skipped, named]
        have unseen : seen = false := by
          cases seen with
          | false => rfl
          | true => exact absurd named.symm (single rfl).1
        rw [if_pos found, ih distinct.2 fun _ => named ▸ distinct.1, unseen]
        simp [named]
      · have lacking : (companionField field).default.isSome = false := by
          simp [companionField, named]
        rw [lacking, if_neg Bool.false_ne_true]
        cases seen with
        | true => simp [skipped]
        | false =>
          have behind := ih distinct.2 fun known => absurd known Bool.false_ne_true
          rw [if_neg Bool.false_ne_true, behind]
          simp [named]

theorem mem_skippedNames_iff {fields : List Field} {field : Field}
    (distinct : (fields.map (·.name)).Nodup) (member : field ∈ fields) :
    field.name ∈ skippedNames fields ↔ field.skip = true := by
  constructor
  · intro named
    obtain ⟨other, among, same⟩ := List.mem_map.1 named
    rw [List.mem_filter] at among
    have equal : other = field := List.inj_on_of_nodup_map distinct among.1 member same
    exact equal ▸ among.2
  · intro skipped
    exact List.mem_map.2 ⟨field, List.mem_filter.2 ⟨member, skipped⟩, rfl⟩

/-- The default that the class finds for a field: none for a skipped one, whose mark it has. -/
theorem companionField_eq {session : Session} {name qualifiedName : Text} {fields : List Field}
    {declared : List RecordField} {field : Field} (distinct : (fields.map (·.name)).Nodup)
    (member : field ∈ fields) :
    { declaredField field with
      default := fieldDefault session
        (plainType name qualifiedName [] none ⟨marks (skippedNames fields), declared, none⟩)
        field.name } = companionField field := by
  have skips := mem_skippedNames_iff distinct member
  cases skipped : field.skip with
  | true =>
    have marked := get?_marks_of_mem (skips.2 skipped)
    simp [companionField, skipped, fieldDefault, attributeWhileBuilt, plainType, marked]
  | false =>
    have unmarked : (marks (skippedNames fields)).get? field.name = none :=
      get?_marks_of_notMem fun named => by simp [skips.1 named] at skipped
    simp [companionField, skipped, fieldDefault, attributeWhileBuilt, plainType, unmarked]

theorem withoutMarks_marks (names : List Text) : withoutMarks (marks names) = .empty := by
  simp [withoutMarks, marks, NameTable.empty]

theorem names_companionFields (fields : List Field) :
    (fields.map companionField).map (·.name) = fields.map (·.name) := by
  rw [List.map_map]
  rfl

/-- Methods of a class without ancestors are derived unless a default could be changed or is
missing. -/
theorem deriveMethods_alone {session : Session} {live : LiveType}
    {declared fields : List RecordField}
    (alone : live.ancestors = [])
    (own : declared.map (fun field =>
      { field with default := fieldDefault session live field.name }) = fields)
    (distinct : (fields.map (·.name)).Nodup) (unchanging : mutableDefault? session fields = none) :
    deriveMethods session ⟨false, false⟩ declared live =
      match missingDefault? false fields with
      | some failure => .error failure
      | none => .ok
        { live with
          fields := some fields
          frozen := false
          attributes := derivedAttributes ⟨false, false⟩ fields live.attributes } := by
  have collected : ((inheritedFields session []).putAll
      (fields.map fun field => (field.name, field))).entries.map (·.2) = fields := by
    have keys : (fields.map fun field => (field.name, field)).map (·.1) = fields.map (·.name) := by
      rw [List.map_map]
      rfl
    have empty : inheritedFields session [] = .empty := rfl
    rw [empty, NameTable.putAll_of_disjoint _ (keys ▸ distinct) fun _ _ => List.not_mem_nil]
    simp [NameTable.empty, Function.comp_def]
  have ancestors : ancestorProblem? session ⟨false, false⟩ [] = none := rfl
  unfold deriveMethods
  simp only [own, unchanging, alone, ancestors, collected]
  cases missingDefault? false fields <;> rfl

theorem deriveMethods_companion {session : Session} {name qualifiedName : Text}
    {fields : List Field} (distinct : (fields.map (·.name)).Nodup) :
    deriveMethods session ⟨false, false⟩ (fields.map declaredField)
        (plainType name qualifiedName [] none
          ⟨marks (skippedNames fields), fields.map declaredField, none⟩) =
      match missingDefault? false (fields.map companionField) with
      | some failure => .error failure
      | none => .ok (companionType name qualifiedName fields) := by
  have own : (fields.map declaredField).map (fun field =>
      { field with
        default := fieldDefault session
          (plainType name qualifiedName [] none
            ⟨marks (skippedNames fields), fields.map declaredField, none⟩) field.name }) =
        fields.map companionField := by
    rw [List.map_map]
    exact List.map_congr_left fun field member => companionField_eq distinct member
  have unchanging : mutableDefault? session (fields.map companionField) = none := by
    unfold mutableDefault?
    rw [List.findSome?_eq_none_iff]
    intro field member
    obtain ⟨declared, -, rfl⟩ := List.mem_map.1 member
    by_cases named : declared.skip = false ∧ declared.name = lineName
    · simp only [companionField, if_pos named]
      rfl
    · simp [companionField, named]
  have unmarked : derivedAttributes ⟨false, false⟩ (fields.map companionField)
      (marks (skippedNames fields)) =
        derivedAttributes ⟨false, false⟩ (fields.map companionField) .empty := by
    unfold derivedAttributes
    rw [withoutMarks_marks]
    rfl
  rw [deriveMethods_alone rfl own ((names_companionFields fields).symm ▸ distinct) unchanging]
  split
  · rfl
  · simp only [companionType, plainType, unmarked]

/-! ## The definition -/

/-- The emitted companion declares the fields and nothing else. -/
theorem companion_definition (model : RecordModel) (settings : Settings) :
    ∃ code, (companionArtifact model settings).definition = .type code ∧ code.derived = true ∧
      code.name = companionName model.typeName settings ∧
      code.members = model.fields.map fieldMember := by
  refine ⟨_, rfl, rfl, rfl, ?_⟩
  simp only [RecordModel.companion, List.map_map]
  rfl

theorem facilityAttribute?_dataclass :
    facilityAttribute? .dataclassesModule "dataclass" = some .derive := by
  decide +kernel

theorem declarable_iff {fields : List Field} :
    fields.Pairwise (fun field later =>
        ¬ (field.skip = later.skip ∧
          field.name = if field.skip then derivationModule else lineName)) ↔
      (fields.Pairwise fun field later =>
        ¬ (field.skip = true ∧ field.name = derivationModule ∧ later.skip = true)) ∧
      fields.Pairwise fun field later =>
        ¬ (field.skip = false ∧ field.name = lineName ∧ later.skip = false) := by
  rw [← List.pairwise_and_iff]
  refine iff_of_eq (congrArg (List.Pairwise · fields) ?_)
  funext field later
  cases field.skip <;> cases later.skip <;> simp

section Definition

variable {callback : Value → Action Value} {depth : Nat} {session : Session} {scopes : List Nat}
  {qualifiedName : Text} {code : ClassCode} {fields : List Field}

theorem run_derivationTerm
    (means : session.Means scopes derivationModule (.facility .dataclassesModule)) :
    (evaluate (invoke callback (depth + 1)) ⟨scopes, [], .empty⟩ derivationTerm).run session =
      (.ok (.facility .derive), session) := by
  have module : (resolve ⟨scopes, [], .empty⟩ "dataclasses").run session =
      (.ok (.facility .dataclassesModule), session) :=
    run_resolve_outside rfl List.not_mem_nil means
  simp only [derivationTerm, evaluate, run_bind, module,
    run_readAttribute_facility facilityAttribute?_dataclass]

/-- A class of declarations is defined if none takes a name away from a later one. -/
theorem run_defineType_companion
    (means : session.Means scopes derivationModule (.facility .dataclassesModule))
    (derives : code.derived = true) (members : code.members = fields.map fieldMember)
    (distinct : (fields.map (·.name)).Nodup)
    (declarable : fields.Pairwise fun field later =>
      ¬ (field.skip = later.skip ∧
        field.name = if field.skip then derivationModule else lineName)) :
    (defineType (invoke callback (depth + 1)) scopes qualifiedName code).run session =
      (.ok (.type session.types.length),
        { session with
          types := session.types ++ [companionType code.name qualifiedName fields] }) := by
  obtain ⟨unhidden, defaults⟩ := declarable_iff.1 declarable
  have body : (runMembers (invoke callback (depth + 1)) scopes qualifiedName
      ⟨marks [], [], none⟩ (fields.map fieldMember)).run session =
        (.ok ⟨marks (skippedNames fields), fields.map declaredField, none⟩, session) :=
    run_runMembers means distinct (fun known => absurd known List.not_mem_nil) unhidden
  have complete : missingDefault? false (fields.map companionField) = none :=
    (missingDefault?_eq_none_iff distinct fun known => absurd known Bool.false_ne_true).2
      ⟨fun known => absurd known Bool.false_ne_true, defaults⟩
  have none_yet : (⟨.empty, [], none⟩ : Body) = ⟨marks [], [], none⟩ := rfl
  simp only [defineType, derives, if_true, members, run_bind, run_map, run_derivationTerm means,
    none_yet, body, derived, run_get, deriveMethods_companion distinct, complete, run_pure,
    addType, run_set]

theorem run_defineType_undeclarable
    (means : session.Means scopes derivationModule (.facility .dataclassesModule))
    (derives : code.derived = true) (members : code.members = fields.map fieldMember)
    (distinct : (fields.map (·.name)).Nodup)
    (clash : ¬ fields.Pairwise fun field later =>
      ¬ (field.skip = later.skip ∧
        field.name = if field.skip then derivationModule else lineName)) :
    ∃ failure, (defineType (invoke callback (depth + 1)) scopes qualifiedName code).run session =
      (.error (.failed failure), session) := by
  have none_yet : (⟨.empty, [], none⟩ : Body) = ⟨marks [], [], none⟩ := rfl
  by_cases unhidden : fields.Pairwise fun field later =>
      ¬ (field.skip = true ∧ field.name = derivationModule ∧ later.skip = true)
  · have body : (runMembers (invoke callback (depth + 1)) scopes qualifiedName
        ⟨marks [], [], none⟩ (fields.map fieldMember)).run session =
          (.ok ⟨marks (skippedNames fields), fields.map declaredField, none⟩, session) :=
      run_runMembers means distinct (fun known => absurd known List.not_mem_nil) unhidden
    have incomplete : missingDefault? false (fields.map companionField) ≠ none := by
      intro complete
      rw [missingDefault?_eq_none_iff distinct fun known => absurd known Bool.false_ne_true]
        at complete
      exact clash (declarable_iff.2 ⟨unhidden, complete.2⟩)
    obtain ⟨failure, missing⟩ := Option.ne_none_iff_exists'.1 incomplete
    refine ⟨failure, ?_⟩
    simp only [defineType, derives, if_true, members, run_bind, run_map, run_derivationTerm means,
      none_yet, body, derived, run_get, deriveMethods_companion distinct, missing, run_fail]
  -- a hidden module stops the body before any method is derived
  · have body : ∃ failure, (runMembers (invoke callback (depth + 1)) scopes qualifiedName
        ⟨marks [], [], none⟩ (fields.map fieldMember)).run session =
          (.error (.failed failure), session) :=
      run_runMembers_hidden means distinct (.inr unhidden)
    obtain ⟨failure, stopped⟩ := body
    refine ⟨failure, ?_⟩
    simp only [defineType, derives, if_true, members, run_bind, run_map, run_derivationTerm means,
      none_yet, stopped]

end Definition

end Live
end OpenRecord
