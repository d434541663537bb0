import OpenRecord.Proofs.Record.Clashes
import OpenRecord.Proofs.Expansion.TypeNames

namespace OpenRecord

/-!
# Members that generated methods would replace

The methods that are generated for a class are checked against the members that its body has
already.  What counts as a member is spelled out here as a relation on bodies: a definition, a
declaration of a simple name, or an assignment with the name alone as a target, that stands directly
in the body.

A class with a member of this kind that has the name of one of its methods is refused and reported,
whatever else may be wrong with it.  If nothing else is wrong, it is refused for nothing but such a
member.  The other ways in which a class can come to have an attribute, by imports, loops, patterns,
unpacking, or statements inside blocks of the body, are not seen, and the method takes the place of
the attribute.
-/

open Source

/-! ## Members of a body -/

/-- A small statement makes a member in one of the ways that are looked for. -/
inductive Source.Item.MakesMember (name : Text) : Item → Prop
  | assigned {item : Item} {targets : List Expression} :
    item.form = .assignment targets → .name name ∈ targets → Source.Item.MakesMember name item
  | declared {item : Item} {type : Expression} {typeTokens : List Token} :
    item.form = .declaration (.name name) type typeTokens → Source.Item.MakesMember name item

inductive Source.Suite.HasMember (name : Text) : Suite → Prop
  | inline {items : List Item} {ending : LineEnd} {item : Item} :
    item ∈ items → item.MakesMember name → Source.Suite.HasMember name (.inline items ending)
  | simple {opening : LineEnd} {indent : Text} {body : List Statement} {foot above : List Line}
    {items : List Item} {ending : LineEnd} {item : Item} :
    .simple above items ending ∈ body → item ∈ items → item.MakesMember name →
    Source.Suite.HasMember name (.block opening indent body foot)
  | definition {opening : LineEnd} {indent : Text} {body : List Statement} {foot : List Line}
    {head : Source.Definition} {inner : Suite} :
    .definition head inner ∈ body → head.role.name = name →
    Source.Suite.HasMember name (.block opening indent body foot)

def BodyEntry.name : BodyEntry → Text
  | .field name _ _ => name
  | .member name => name

/-- The entries of a small statement are the members that it makes. -/
theorem Source.Item.exists_entry_iff {name : Text} {item : Item} :
    (∃ entry ∈ item.entries, entry.name = name) ↔ item.MakesMember name := by
  constructor
  · rintro ⟨entry, member, same⟩
    unfold entries at member
    split at member
    case h_1 declared type typeTokens form =>
      have named : declared = name := by
        split at member <;> cases List.mem_singleton.1 member <;> exact same
      exact .declared (named ▸ form)
    case h_2 targets form =>
      rcases List.mem_filterMap.1 member with ⟨target, among, found⟩
      split at found <;> cases found
      exact .assigned form (same ▸ among)
    case h_3 => cases member
  · intro makes
    unfold entries
    cases makes with
    | assigned form among =>
      rw [form]
      exact ⟨.member name, List.mem_filterMap.2 ⟨_, among, rfl⟩, rfl⟩
    | declared form =>
      rw [form]
      dsimp only
      split
      · exact ⟨_, List.mem_singleton_self _, rfl⟩
      · exact ⟨_, List.mem_singleton_self _, rfl⟩

theorem Source.Suite.exists_entry_iff {name : Text} {suite : Suite} :
    (∃ entry ∈ suite.entries, entry.name = name) ↔ suite.HasMember name := by
  constructor
  · rintro ⟨entry, member, same⟩
    cases suite with
    | inline items ending =>
      rcases List.mem_flatMap.1 member with ⟨item, among, inner⟩
      exact .inline among (Item.exists_entry_iff.1 ⟨entry, inner, same⟩)
    | block opening indent body foot =>
      rcases List.mem_flatMap.1 member with ⟨statement, among, inner⟩
      cases statement with
      | simple above items ending =>
        rcases List.mem_flatMap.1 inner with ⟨item, listed, own⟩
        exact .simple among listed (Item.exists_entry_iff.1 ⟨entry, own, same⟩)
      | definition head suite =>
        rw [List.mem_singleton.1 inner] at same
        exact .definition among same
      | compound clauses => cases inner
    | cases opening indent clauses foot => cases member
  · intro has
    cases has with
    | inline among makes =>
      rcases Item.exists_entry_iff.2 makes with ⟨entry, member, same⟩
      exact ⟨entry, List.mem_flatMap.2 ⟨_, among, member⟩, same⟩
    | simple among listed makes =>
      rcases Item.exists_entry_iff.2 makes with ⟨entry, member, same⟩
      exact ⟨entry, List.mem_flatMap.2 ⟨_, among, List.mem_flatMap.2 ⟨_, listed, member⟩⟩, same⟩
    | definition among same =>
      exact ⟨_, List.mem_flatMap.2 ⟨_, among, List.mem_singleton_self _⟩, same⟩

theorem exists_entry_iff_mem {name : Text} (order : Nat) {entries : List BodyEntry} :
    (∃ entry ∈ entries, entry.name = name) ↔
      name ∈ (fieldsFrom order entries).map (·.name) ∨ name ∈ membersOf entries := by
  induction entries generalizing order with
  | nil => simp [fieldsFrom, membersOf]
  | cons first later ih =>
    rw [List.exists_mem_cons_iff]
    cases first with
    | field declared type typeTokens =>
      rw [ih (order + 1), fieldsFrom, membersOf, List.map_cons, List.mem_cons]
      simp only [BodyEntry.name, eq_comm, or_assoc]
    | member other =>
      rw [ih order, fieldsFrom, membersOf, List.mem_cons]
      simp only [BodyEntry.name, eq_comm, or_left_comm]

/-! ## Members and methods of a model -/

/-- The names in a model besides its fields are those of the other members of the body. -/
theorem memberNames_of_extractClass {head : Source.Definition} {shape : ClassHead} {body : Suite}
    {location : Option Location} {model : RecordModel}
    (extracted : extractClass head shape body location = .ok model) :
    model.memberNames = membersOf body.entries := by
  unfold extractClass at extracted
  split at extracted
  · cases extracted
  · dsimp only at extracted
    split at extracted
    · cases extracted
    · cases extracted
      rfl

theorem hasMember_iff_of_extractClass {head : Source.Definition} {shape : ClassHead} {body : Suite}
    {location : Option Location} {model : RecordModel} {name : Text}
    (extracted : extractClass head shape body location = .ok model) :
    body.HasMember name ↔ name ∈ model.fieldNames ∨ name ∈ model.memberNames := by
  rcases extractClass_eq_ok extracted with ⟨-, -, -, fields, -⟩
  rw [RecordModel.fieldNames, fields, memberNames_of_extractClass extracted,
    ← exists_entry_iff_mem, Suite.exists_entry_iff]

theorem mem_generatedMethodNames_iff {head : Source.Definition} {shape : ClassHead} {body : Suite}
    {location : Option Location} {model : RecordModel} {name : Text}
    (extracted : extractClass head shape body location = .ok model) :
    name ∈ model.generatedMethodNames ↔
      ∃ capability ∈ head.requested, name ∈ capability.methodNames := by
  rw [RecordModel.generatedMethodNames, requested_of_extracted extracted, List.mem_flatMap]

/-- A model with no members besides its fields. -/
def RecordModel.withoutMembers (model : RecordModel) : RecordModel :=
  { model with memberNames := [] }

/-- Members besides the fields come into play behind the fields and in front of the scope. -/
theorem RecordModel.firstClash_of_withoutMembers {model : RecordModel} {settings : Settings}
    {scope : Option (List Text)} (free : model.withoutMembers.firstClash settings scope = none) :
    model.firstClash settings scope =
      (model.memberNames.find? model.generatedMethodNames.contains).map .memberReplaced := by
  simp only [firstClash, Option.or_eq_none_iff] at free
  have fresh : (firstDuplicate [] model.fieldNames).map Cause.duplicateField = none := free.1
  have plain : model.fieldNames.findSome? reservedSpelling = none := free.2.1
  have apart : model.fieldNames.findSome? (fieldClash model settings) = none := free.2.2.1
  have scopeFree : ((model.generatedTypeNames settings).find? (scope.getD []).contains).map
      Cause.typeNameTaken = none := free.2.2.2.2
  rw [firstClash, fresh, plain, apart, scopeFree, Option.none_or, Option.none_or, Option.none_or,
    Option.or_none]

/-- What is generated from a model does not depend on its members besides the fields, except that one
with the name of a method stops generation. -/
theorem generate_of_withoutMembers {model : RecordModel} {settings : Settings}
    {scope : Option (List Text)} {artifacts : List Artifact}
    (generated : generate model.withoutMembers settings scope = .ok artifacts) :
    generate model settings scope =
      match model.memberNames.find? model.generatedMethodNames.contains with
      | some name => .error ⟨.memberReplaced name, some model.typeName, model.location⟩
      | none => .ok artifacts := by
  have clash := RecordModel.firstClash_of_withoutMembers (generate_eq_ok generated).2.1
  have free := (generate_eq_ok generated).2.1
  unfold generate RecordModel.checkNames at generated ⊢
  rw [free] at generated
  rw [clash]
  split at generated
  case isTrue => cases generated
  case isFalse whole =>
    have whole : ¬ (model.requests .mutation && !model.requests .destructure) = true := whole
    rw [if_neg whole]
    cases model.memberNames.find? model.generatedMethodNames.contains with
    | some name => rfl
    | none => exact generated

namespace Request

/-- The class of a request has a member with the name of a method that is generated for it. -/
def ReplacesMember (request : Request) : Prop :=
  ∃ capability ∈ request.head.requested, ∃ name ∈ capability.methodNames,
    request.body.HasMember name

def replaced (request : Request) (name : Text) : Diagnostic :=
  ⟨.memberReplaced name, some request.head.role.name, some request.location⟩

theorem refusal_of_replacesMember {request : Request} (replaces : request.ReplacesMember) :
    ∃ diagnostic, request.refusal = some diagnostic := by
  cases verdict : request.verdict with
  | error diagnostic => exact ⟨diagnostic, refusal_eq_some_iff.2 verdict⟩
  | ok found =>
    rcases found with ⟨model, artifacts⟩
    rcases verdict_eq_ok_iff.1 verdict with ⟨shape, role, extracted, -, generated⟩
    rcases replaces with ⟨capability, asked, name, method, has⟩
    have names := namesApart_of_generate generated
    have among := (mem_generatedMethodNames_iff extracted).2 ⟨capability, asked, method⟩
    rcases (hasMember_iff_of_extractClass extracted).1 has with field | other
    · exact absurd among (names.not_method name field)
    · exact absurd among (names.members name other)

/-- If nothing else is wrong with a class, it is refused for the first such member, and accepted if
it has none. -/
theorem verdict_of_withoutMembers {request : Request} {shape : ClassHead} {model : RecordModel}
    {artifacts : List Artifact} (role : request.head.role = .classDefinition shape)
    (extracted : extractClass request.head shape request.body (some request.location) = .ok model)
    (outside : request.around.scopes.head? ≠ some .classScope)
    (generated : generate model.withoutMembers request.around.settings
      (some request.around.scopeNames) = .ok artifacts) :
    (request.ReplacesMember ↔
        ∃ name, request.body.HasMember name ∧ request.refusal = some (request.replaced name)) ∧
      (¬ request.ReplacesMember → request.verdict = .ok (model, artifacts)) := by
  have verdict := verdict_of_class role
  rw [extracted] at verdict
  dsimp only at verdict
  rw [if_neg outside, generate_of_withoutMembers generated] at verdict
  have names := namesApart_of_generate generated
  -- a member with the name of a method is none of the fields
  have replaces : request.ReplacesMember ↔
      ∃ name ∈ model.memberNames, name ∈ model.generatedMethodNames := by
    constructor
    · rintro ⟨capability, asked, name, method, has⟩
      have among := (mem_generatedMethodNames_iff extracted).2 ⟨capability, asked, method⟩
      rcases (hasMember_iff_of_extractClass extracted).1 has with field | other
      · exact absurd among (names.not_method name field)
      · exact ⟨name, other, among⟩
    · rintro ⟨name, other, among⟩
      rcases (mem_generatedMethodNames_iff extracted).1 among with ⟨capability, asked, method⟩
      exact ⟨capability, asked, name, method,
        (hasMember_iff_of_extractClass extracted).2 (.inr other)⟩
  rw [replaces]
  cases found : model.memberNames.find? model.generatedMethodNames.contains with
  | none =>
    rw [found] at verdict
    have free : ¬ ∃ name ∈ model.memberNames, name ∈ model.generatedMethodNames := by
      simpa using found
    refine ⟨iff_of_false free ?_, fun _ => verdict⟩
    rintro ⟨name, -, refused⟩
    rw [refusal_eq_some_iff, verdict] at refused
    cases refused
  | some name =>
    rw [found] at verdict
    have other := List.mem_of_find?_eq_some found
    have among : name ∈ model.generatedMethodNames := by simpa using List.find?_some found
    have typeName : model.typeName = request.head.role.name := by
      rw [(extractClass_eq_ok extracted).1, role]
      rfl
    refine ⟨iff_of_true ⟨name, other, among⟩ ⟨name, ?_, ?_⟩,
      fun free => absurd ⟨name, other, among⟩ free⟩
    · exact (hasMember_iff_of_extractClass extracted).2 (.inr other)
    · rw [refusal_eq_some_iff, verdict, typeName, extractClass_location extracted]
      rfl

end Request

/-! ## Expansion of a class with a member in the way -/

/-- A class of which a direct member has the name of a generated method keeps expansion from
succeeding and is reported at its place.  If nothing else is wrong with the class, it is refused for
the name of a direct member exactly if it has a member of that kind, and accepted otherwise. -/
theorem expand_replaces_iff {settings : Settings} {code : Text} {filename : Option Text}
    {file : SourceFile} {request : Request} (parsed : SourceFile.parse? code = some file)
    (member : request ∈ file.requests settings filename) :
    (request.ReplacesMember → ∀ expansion, expand settings code filename = .ok expansion →
      expansion.success = false ∧ ∃ diagnostic, request.refusal = some diagnostic ∧
        diagnostic.StandsAt (request.placeIn filename) ∧
        diagnostic.format ∈ expansion.errors) ∧
      ∀ shape model artifacts, request.head.role = .classDefinition shape →
        extractClass request.head shape request.body (some request.location) = .ok model →
        request.around.scopes.head? ≠ some .classScope →
        generate model.withoutMembers settings (some request.around.scopeNames) = .ok artifacts →
          (request.ReplacesMember ↔ ∃ name, request.body.HasMember name ∧
            request.refusal = some (request.replaced name)) ∧
          (¬ request.ReplacesMember → request.verdict = .ok (model, artifacts)) := by
  constructor
  · intro replaces expansion returned
    rcases Request.refusal_of_replacesMember replaces with ⟨diagnostic, refused⟩
    rcases reported_of_refusal parsed returned member refused with ⟨failed, stands, reported⟩
    exact ⟨failed, diagnostic, refused, stands, reported⟩
  · intro shape model artifacts role extracted outside generated
    rw [← show request.around.settings = settings from
      (SourceFile.sameFile_of_mem member).settings] at generated
    exact Request.verdict_of_withoutMembers role extracted outside generated

/-- A class with an attribute that has the name of a conversion. -/
def namedMember : Text :=
  "@destructure\nclass P:\n x: A\n into_destruct = y\n"

/-- Whether a class that no definition is around has a member in the way and nothing else against
it. -/
def Request.isHindered (request : Request) : Bool :=
  match request.head.role with
  | .functionDefinition _ => false
  | .classDefinition shape =>
    match extractClass request.head shape request.body (some request.location) with
    | .error _ => false
    | .ok model =>
      request.around.scopes.isEmpty &&
        model.memberNames.any model.generatedMethodNames.contains &&
        (generate model.withoutMembers .default (some request.around.scopeNames)).isOk

/-- The class of the example is refused for its attribute and for nothing else, and its refusal is
reported. -/
theorem expand_namedMember_replaces : ∃ file request expansion name,
    SourceFile.parse? namedMember = some file ∧ request ∈ file.requests .default none ∧
      expand .default namedMember none = .ok expansion ∧ expansion.success = false ∧
      request.body.HasMember name ∧ request.refusal = some (request.replaced name) ∧
      (request.replaced name).format ∈ expansion.errors := by
  have shape : ((SourceFile.parse? namedMember).any fun file =>
      (file.requests .default none).any (·.isHindered)) = true := by decide +kernel
  have returns : (expand .default namedMember none).isOk = true := by decide +kernel
  cases parsed : SourceFile.parse? namedMember with
  | none =>
    rw [parsed] at shape
    cases shape
  | some file =>
    rw [parsed, Option.any_some, List.any_eq_true] at shape
    rcases shape with ⟨request, member, checked⟩
    unfold Request.isHindered at checked
    split at checked
    case h_1 => cases checked
    case h_2 shape role =>
      split at checked
      case h_1 => cases checked
      case h_2 model extracted =>
        rw [Bool.and_eq_true, Bool.and_eq_true, List.isEmpty_iff, List.any_eq_true] at checked
        rcases checked with ⟨⟨top, name, other, among⟩, accepted⟩
        rcases (mem_generatedMethodNames_iff extracted).1 (List.contains_iff_mem.1 among) with
          ⟨capability, asked, method⟩
        have replaces : request.ReplacesMember := ⟨capability, asked, name, method,
          (hasMember_iff_of_extractClass extracted).2 (.inr other)⟩
        cases generated : generate model.withoutMembers .default
            (some request.around.scopeNames) with
        | error diagnostic =>
          rw [generated] at accepted
          cases accepted
        | ok artifacts =>
          cases returned : expand .default namedMember none with
          | error fault =>
            rw [returned] at returns
            cases returns
          | ok expansion =>
            rcases expand_replaces_iff parsed member with ⟨reports, exactly⟩
            rcases reports replaces expansion returned with
              ⟨failed, diagnostic, refused, -, reported⟩
            have outside : request.around.scopes.head? ≠ some .classScope := by simp [top]
            rcases (exactly shape model artifacts role extracted outside generated).1.1 replaces
              with ⟨name, has, same⟩
            cases refused.symm.trans same
            exact ⟨file, request, expansion, name, rfl, member, rfl, failed, has, same, reported⟩

/-- A name that is bound by unpacking is not seen. -/
example : (match expand .default "@destructure\nclass P:\n x: A\n into_destruct, z = y\n" none with
    | .ok expansion => expansion.success
    | .error _ => false) = true := by decide +kernel

end OpenRecord
