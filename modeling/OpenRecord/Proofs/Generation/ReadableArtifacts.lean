import OpenRecord.Generation.Collection
import OpenRecord.Proofs.Code.ReadableTypes
import OpenRecord.Proofs.Generation.Headlines

namespace OpenRecord

/-!
# Artifacts that can be read

All code that is generated for a model is read as statements, if the class, its fields and the generated
types have names of the language, and if the types that are written as they are, and what stands in the
header of a generic class, are phrases.
-/

open Source Code

/-! ## Names -/

/-- What a model hands over as it was written can be read where generated code puts it: the types of
the fields, and what stands behind the name of a generated class. -/
structure RecordModel.Phrased (model : RecordModel) : Prop where
  types : ∀ field ∈ model.fields, Phrase field.declaredType
  header : HeaderPhrase model.headerParameters

/-- A phrased model whose names are names of the language. -/
structure RecordModel.Readable (model : RecordModel) : Prop extends model.Phrased where
  typeName : model.typeName.IsName
  fields : ∀ field ∈ model.fields, field.name.IsName

/-- A model whose types are written as most are: those of the fields and the generic base as names,
literals, subscripts and unions, and the parameters of a generic class as bare names. -/
structure RecordModel.PlainlyTyped (model : RecordModel) : Prop where
  types : ∀ field ∈ model.fields, ∃ form : TypeForm, form.Readable ∧ field.declaredType = form.text
  parameters : model.genericStyle = .typeParameters → model.genericParameters ≠ [] ∧
    ∀ parameter ∈ model.genericParameters, parameter.declaration.IsName
  base : ∀ base ∈ model.genericBase,
    ∃ form : TypeForm, form.Readable ∧ form.isUnion = false ∧ base = form.text

theorem RecordModel.PlainlyTyped.phrased {model : RecordModel} (plain : model.PlainlyTyped) :
    model.Phrased where
  types field member := by
    rcases plain.types field member with ⟨form, readable, same⟩
    rw [same]
    exact readable.phrase
  header := by
    unfold headerParameters
    split
    case h_1 style =>
      rcases plain.parameters style with ⟨solid, named⟩
      exact headerPhrase_names (by simpa using solid) (List.forall_mem_map.2 named)
    case h_2 first later _ base =>
      rcases plain.base _ base with ⟨form, readable, single, same⟩
      rw [same]
      exact headerPhrase_base readable single
    case h_3 => exact .inl rfl

theorem unescaped_of_chars {name : Text} (chars : ∀ x ∈ name, Text.isNameContinue x = true) :
    Unescaped name := by
  intro c member
  have letter := chars c member
  have solid := Text.isBoundary_of_isNameContinue letter
  simp only [Text.isBoundary, Bool.or_eq_false_iff] at solid
  refine ⟨?_, ?_, by simp [solid]⟩ <;> rintro rfl <;> exact absurd letter (by decide)

theorem unescaped_of_isName {name : Text} (named : name.IsName) : Unescaped name :=
  unescaped_of_chars (Text.chars_of_isIdentifier named.1).2

theorem unescaped_append_iff {front back : Text} :
    Unescaped (front ++ back) ↔ Unescaped front ∧ Unescaped back :=
  List.forall_mem_append

theorem Code.Unescaped.unmarked {text : Text} (unescaped : Unescaped text) : Unmarked text :=
  fun c member => ⟨(unescaped c member).2.1, (unescaped c member).1⟩

theorem unmarked_documented {name : Text} (unescaped : Unescaped name) :
    Unmarked (documented name) := by
  rw [documented, unmarked_append_iff, unmarked_append_iff]
  exact ⟨⟨by decide, unescaped.unmarked⟩, by decide⟩

theorem phrase_quote_cons {c : Char} (plain : isMark c = false) (rest : Text) :
    Phrase (quote (c :: rest)) :=
  phrase_quote fun marked => by simp [StartsMarked, plain] at marked

/-- A name applied to the generic parameters is written as a string, whatever these are. -/
theorem RecordModel.phrase_applyGenerics (model : RecordModel) {name : Text} (named : name.IsName) :
    Phrase (quote (model.applyGenerics name)) := by
  rcases List.exists_cons_of_ne_nil (Text.chars_of_isIdentifier named.1).1 with ⟨first, later, rfl⟩
  have letter := (Text.chars_of_isIdentifier named.1).2 first (List.mem_cons_self ..)
  have plain : isMark first = false := by
    by_contra mark
    rw [Bool.not_eq_false, isMark, Bool.or_eq_true, beq_iff_eq, beq_iff_eq] at mark
    rcases mark with rfl | rfl <;> exact absurd letter (by decide)
  unfold applyGenerics
  split
  · exact phrase_quote_cons plain later
  · exact phrase_quote_cons plain _

theorem phrase_callbackType (argument : Text) : Phrase (callbackType argument) :=
  phrase_quote_cons (by decide) _

theorem phrase_none : Phrase "None" := by
  intro nest _
  refine ((scansAs_keyword "None" .noneWord (by decide) nest).mono fun tokens shows =>
    ?_).narrow fun c ends => ends.1
  rcases Shows.exists_singleton shows with ⟨gap, rfl⟩
  exact ⟨_, (IsPrimary.constant gap _ (by decide)).isExpression⟩

theorem readable_untyped {name : Text} (named : name.IsName) : (Parameter.mk name none).Readable :=
  ⟨named, nofun⟩

theorem readable_typed {name type : Text} (named : name.IsName) (phrase : Phrase type) :
    (Parameter.mk name (some type)).Readable :=
  ⟨named, by rintro _ ⟨⟩; exact phrase⟩

/-! ## Bodies of generated methods -/

/-- The words that generated code uses besides the names of the class, its fields and its types. -/
def ownWords : List Text :=
  ["self", "cls", "f", "destruct", "instance", "view", "value", "target", "object", "copy",
    "__setattr__", "__new__", "__init__", "into_destruct", "from_destruct", "reconstruct",
    "substitute", "as_destruct", viewTarget, "ReferenceError"]

theorem isName_of_mem_ownWords : ∀ word ∈ ownWords, word.IsName := by
  decide +kernel

theorem dotted_localAttribute {value field : Text} (first : value.IsName) (second : field.IsName) :
    (localAttribute value field).Dotted :=
  ⟨first, second⟩

theorem isName_self : Text.IsName "self" :=
  isName_of_mem_ownWords _ (by decide)

theorem isName_destruct : Text.IsName "destruct" :=
  isName_of_mem_ownWords _ (by decide)

theorem isName_instance : Text.IsName "instance" :=
  isName_of_mem_ownWords _ (by decide)

theorem dotted_viewed : viewed.Dotted :=
  dotted_localAttribute isName_self (isName_of_mem_ownWords _ (by decide))

theorem readable_rawWrite {instanceName field source : Text} (first : instanceName.IsName)
    (second : field.IsName) (third : source.IsName) :
    (rawWrite instanceName field source).Readable := by
  have function : (localAttribute "object" "__setattr__").Dotted :=
    dotted_localAttribute (isName_of_mem_ownWords _ (by decide)) (isName_of_mem_ownWords _ (by decide))
  exact ⟨⟨function, first, unescaped_of_isName second, dotted_localAttribute third second, trivial⟩,
    show ("object" : Text) ≠ "match" by decide⟩

theorem commandsReadable_append {front back : List Command} (first : CommandsReadable front)
    (second : CommandsReadable back) : CommandsReadable (front ++ back) := by
  rw [commandsReadable_iff] at first second ⊢
  exact List.forall_mem_append.2 ⟨first, second⟩

theorem readable_rawWrites {fields : List Field} {instanceName source : Text}
    (each : ∀ field ∈ fields, field.name.IsName) (first : instanceName.IsName)
    (second : source.IsName) :
    CommandsReadable (fields.map fun field => rawWrite instanceName field.name source) :=
  commandsReadable_iff.2 (List.forall_mem_map.2 fun field member =>
    readable_rawWrite first (each field member) second)

theorem readable_return {name : Text} (named : name.IsName) :
    CommandsReadable [.return (.name name)] :=
  ⟨named, trivial⟩

theorem readable_intoBody {companion : CompanionModel}
    (each : ∀ field ∈ companion.fields, field.name.IsName) (named : companion.name.IsName) :
    CommandsReadable (intoBody companion) := by
  have built : (Term.construct (.name companion.name)
      ((companion.fields.filter (!·.skip)).map fun field =>
        (field.name, localAttribute "self" field.name))).Built := by
    refine ⟨named, List.forall_mem_map.2 fun field member => ?_⟩
    have own := each field (List.mem_of_mem_filter member)
    exact ⟨own, dotted_localAttribute isName_self own⟩
  unfold intoBody
  dsimp only
  split
  · exact ⟨built, trivial⟩
  · refine ⟨⟨isName_destruct, built⟩, commandsReadable_append ?_ (readable_return isName_destruct)⟩
    refine commandsReadable_iff.2 (List.forall_mem_map.2 fun field member => ?_)
    have own := each field (List.mem_of_mem_filter member)
    exact ⟨dotted_localAttribute isName_destruct own, dotted_localAttribute isName_self own⟩

theorem intoBody_ne_nil (companion : CompanionModel) : intoBody companion ≠ [] := by
  unfold intoBody
  dsimp only
  split <;> simp

/-- The refusal of an emptied view. -/
theorem readable_expired {name scope : Text} (first : Unescaped name) (second : Unescaped scope) :
    (expired name scope).Readable := by
  have message : Unescaped (name ++ " used outside of " ++ scope) :=
    unescaped_append_iff.2 ⟨unescaped_append_iff.2 ⟨first, by decide⟩, second⟩
  have error : (Term.name "ReferenceError").Dotted := isName_of_mem_ownWords _ (by decide)
  exact ⟨dotted_viewed, ⟨⟨error, message, trivial⟩, trivial⟩, List.cons_ne_nil _ _⟩

/-! ## Generated classes -/

section Artifacts

variable {model : RecordModel} (readable : model.Readable) {settings : Settings}

include readable in
theorem RecordModel.Readable.companionFields :
    ∀ field ∈ (model.companion settings).fields, field.name.IsName :=
  List.forall_mem_map.2 readable.fields

include readable in
theorem readable_companionArtifact (named : (companionName model.typeName settings).IsName) :
    (companionArtifact model settings).definition.Readable := by
  have record := unescaped_of_isName readable.typeName
  have operation : ∀ {call : Text}, Unescaped call → Unescaped (model.typeName ++ call) :=
    fun unescaped => unescaped_append_iff.2 ⟨record, unescaped⟩
  refine ⟨named, readable.header, ?_, ?_⟩
  · have into := unmarked_documented (operation (show Unescaped ".into_destruct()" by decide))
    have back := unmarked_documented (operation (show Unescaped ".from_destruct()" by decide))
    simp only [unmarked_append_iff, unmarked_documented record, into, back, and_true]
    decide
  · refine List.forall_mem_map.2 (List.forall_mem_map.2 fun field member => ?_)
    exact ⟨readable.fields field member, readable.types field member⟩

theorem readable_viewGetter {name scope : Text} {writable : Bool} {field : Field}
    (named : Unescaped name) (place : Unescaped scope) (own : field.name.IsName)
    (typed : Phrase field.declaredType) : (viewGetter name scope writable field).Readable where
  name := own
  parameters := List.forall_mem_singleton.2 (readable_untyped isName_self)
  result := phrase_quote fun _ => typed
  documentation := nofun
  body := by
    have last : CommandsReadable [.return (.attribute viewed field.name)] :=
      ⟨⟨dotted_viewed, own⟩, trivial⟩
    cases writable with
    | true => exact ⟨readable_expired named place, last⟩
    | false => exact last
  solid := by simp [viewGetter]

theorem readable_viewSetter {name scope : Text} {field : Field} (named : Unescaped name)
    (place : Unescaped scope) (own : field.name.IsName) (typed : Phrase field.declaredType) :
    (viewSetter name scope field).Readable where
  name := own
  parameters := List.forall_mem_cons.2 ⟨readable_untyped isName_self, List.forall_mem_singleton.2
    (readable_typed (isName_of_mem_ownWords _ (by decide)) (phrase_quote fun _ => typed))⟩
  result := phrase_none
  documentation := nofun
  body := by
    have function : (localAttribute "object" "__setattr__").Dotted := dotted_localAttribute
      (isName_of_mem_ownWords _ (by decide)) (isName_of_mem_ownWords _ (by decide))
    have value : (Term.name "value").Readable := isName_of_mem_ownWords _ (by decide)
    exact ⟨readable_expired named place,
      ⟨⟨function, dotted_viewed, unescaped_of_isName own, value, trivial⟩,
        show ("object" : Text) ≠ "match" by decide⟩, trivial⟩
  solid := List.cons_ne_nil _ _

theorem readable_viewInitialiser {target : Text} (typed : Phrase target) :
    (Method.mk .plain "__init__" [⟨"self", none⟩, ⟨"target", some target⟩] "None" none
      [.assign viewed (.name "target")]).Readable where
  name := isName_of_mem_ownWords "__init__" (by decide)
  parameters := List.forall_mem_cons.2 ⟨readable_untyped isName_self, List.forall_mem_singleton.2
    (readable_typed (isName_of_mem_ownWords _ (by decide)) typed)⟩
  result := phrase_none
  documentation := nofun
  body := ⟨⟨dotted_viewed, isName_of_mem_ownWords _ (by decide)⟩, trivial⟩
  solid := List.cons_ne_nil _ _

include readable in
theorem readable_viewClass {name scope : Text} {writable : Bool} (named : name.IsName)
    (place : Unescaped scope) : (viewClass model name writable scope).Readable := by
  have record := unmarked_documented (unescaped_of_isName readable.typeName)
  refine ⟨named, readable.header, ?_, ?_⟩
  · have shown := unmarked_documented place
    cases writable <;>
      simp only [viewClass, Bool.false_eq_true, if_true, if_false, unmarked_append_iff, record, shown,
        and_true] <;>
      decide
  · have slot : (Member.slots [viewTarget]).Readable := ⟨_, rfl, by decide⟩
    refine List.forall_mem_cons.2 ⟨slot, List.forall_mem_cons.2
      ⟨readable_viewInitialiser (model.phrase_applyGenerics readable.typeName), ?_⟩⟩
    intro member among
    rcases List.mem_flatMap.1 among with ⟨field, shown, inside⟩
    have present : field ∈ model.fields := List.mem_of_mem_filter shown
    have own := readable.fields field present
    have typed := readable.types field present
    have unescaped := unescaped_of_isName named
    rcases List.mem_cons.1 inside with rfl | later
    · exact readable_viewGetter unescaped place own typed
    · cases writable with
      | true =>
        rw [List.mem_singleton.1 later]
        exact readable_viewSetter unescaped place own typed
      | false => cases later

/-! ## Generated methods -/

include readable in
theorem readable_intoArtifact (named : (companionName model.typeName settings).IsName) :
    (intoArtifact model (model.companion settings)).definition.Readable :=
  { name := isName_of_mem_ownWords "into_destruct" (by decide)
    parameters := List.forall_mem_singleton.2 (readable_untyped isName_self)
    result := model.phrase_applyGenerics named
    documentation := by
      rintro _ ⟨⟩
      have companion := unmarked_documented (unescaped_of_isName named)
      simp only [RecordModel.companion, unmarked_append_iff, companion, and_true]
      decide
    body := readable_intoBody readable.companionFields named
    solid := intoBody_ne_nil _ }

include readable in
theorem readable_fromArtifact (named : (companionName model.typeName settings).IsName) :
    (fromArtifact model (model.companion settings)).definition.Readable := by
  have allocated : (Command.assign (.name "instance")
      (.call (localAttribute "object" "__new__") [.name "cls"])).Readable :=
    ⟨isName_instance, dotted_localAttribute (isName_of_mem_ownWords _ (by decide))
      (isName_of_mem_ownWords _ (by decide)), isName_of_mem_ownWords _ (by decide), trivial⟩
  exact {
    name := isName_of_mem_ownWords "from_destruct" (by decide)
    parameters := List.forall_mem_cons.2 ⟨readable_untyped (isName_of_mem_ownWords _ (by decide)),
      List.forall_mem_singleton.2 (readable_typed isName_destruct (model.phrase_applyGenerics named))⟩
    result := model.phrase_applyGenerics readable.typeName
    documentation := by
      rintro _ ⟨⟩
      have record := unmarked_documented (unescaped_of_isName readable.typeName)
      simp only [unmarked_append_iff, record, and_true]
      decide
    body := ⟨allocated, commandsReadable_append
      (readable_rawWrites readable.companionFields isName_instance isName_destruct)
      (readable_return isName_instance)⟩
    solid := List.cons_ne_nil _ _ }

include readable in
/-- The method that builds a changed record names the companion in strings only. -/
theorem readable_reconstructArtifact (unescaped : Unescaped (companionName model.typeName settings)) :
    (reconstructArtifact model (model.companion settings)).definition.Readable := by
  have callback : Text.IsName "f" := isName_of_mem_ownWords _ (by decide)
  have edited : CommandsReadable
      [.assign (.name "destruct") (.call (localAttribute "self" "into_destruct") []),
        .evaluate (.call (.name "f") [.name "destruct"]),
        .assign (.name "instance") (.call (localAttribute "copy" "copy") [.name "self"])] :=
    ⟨⟨isName_destruct,
        dotted_localAttribute isName_self (isName_of_mem_ownWords _ (by decide)), trivial⟩,
      ⟨⟨callback, isName_destruct, trivial⟩, by decide⟩,
      ⟨isName_instance, dotted_localAttribute (isName_of_mem_ownWords _ (by decide))
        (isName_of_mem_ownWords _ (by decide)), isName_self, trivial⟩, trivial⟩
  exact {
    name := isName_of_mem_ownWords "reconstruct" (by decide)
    parameters := List.forall_mem_cons.2 ⟨readable_untyped isName_self,
      List.forall_mem_singleton.2 (readable_typed callback (phrase_callbackType _))⟩
    result := model.phrase_applyGenerics readable.typeName
    documentation := by
      rintro _ ⟨⟩
      have companion := unmarked_documented unescaped
      have record := unmarked_documented (unescaped_of_isName readable.typeName)
      simp only [RecordModel.companion, unmarked_append_iff, companion, record, and_true]
      decide
    body := commandsReadable_append (commandsReadable_append edited
      (readable_rawWrites readable.companionFields isName_instance isName_destruct))
      (readable_return isName_instance)
    solid := by simp }

theorem readable_substituteArtifact (named : (mutationViewName model.typeName settings).IsName) :
    (substituteArtifact model settings).definition.Readable := by
  have callback : Text.IsName "f" := isName_of_mem_ownWords _ (by decide)
  have view : Text.IsName "view" := isName_of_mem_ownWords _ (by decide)
  exact {
    name := isName_of_mem_ownWords "substitute" (by decide)
    parameters := List.forall_mem_cons.2 ⟨readable_untyped isName_self,
      List.forall_mem_singleton.2 (readable_typed callback (phrase_callbackType _))⟩
    result := phrase_none
    documentation := by
      rintro _ ⟨⟩
      have shown := unmarked_documented (unescaped_of_isName named)
      simp only [unmarked_append_iff, shown, and_true]
      decide
    body := ⟨⟨view, named, isName_self, trivial⟩,
      ⟨⟨⟨⟨⟨callback, view, trivial⟩, by decide⟩, trivial⟩, List.cons_ne_nil _ _⟩,
        ⟨⟨dotted_localAttribute view (isName_of_mem_ownWords _ (by decide)), trivial⟩, trivial⟩,
        List.cons_ne_nil _ _⟩, trivial⟩
    solid := List.cons_ne_nil _ _ }

theorem readable_asArtifact (named : (referenceViewName model.typeName settings).IsName) :
    (asArtifact model settings).definition.Readable :=
  { name := isName_of_mem_ownWords "as_destruct" (by decide)
    parameters := List.forall_mem_singleton.2 (readable_untyped isName_self)
    result := model.phrase_applyGenerics named
    documentation := by
      rintro _ ⟨⟩
      have shown := unmarked_documented (unescaped_of_isName named)
      simp only [unmarked_append_iff, shown, and_true]
      decide
    body := ⟨⟨named, isName_self, trivial⟩, trivial⟩
    solid := List.cons_ne_nil _ _ }

/-! ## All artifacts -/

include readable in
theorem readable_of_mem_capabilityArtifacts (accepted : settings.Accepted) {capability : Capability}
    (named : (capability.typeName settings model.typeName).IsName) {artifact : Artifact}
    (generated : artifact ∈ capabilityArtifacts model settings capability) :
    artifact.definition.Readable := by
  have chars := (Text.chars_of_isIdentifier readable.typeName.1).2
  have operation : ∀ {call : Text}, Unescaped call → Unescaped (model.typeName ++ call) :=
    fun unescaped => unescaped_append_iff.2 ⟨unescaped_of_isName readable.typeName, unescaped⟩
  cases capability with
  | destructure =>
    simp only [capabilityArtifacts, conversionArtifacts, List.mem_cons, List.not_mem_nil,
      or_false] at generated
    rcases generated with rfl | rfl | rfl
    · exact readable_companionArtifact readable named
    · exact readable_intoArtifact readable named
    · exact readable_fromArtifact readable named
  | mutation =>
    simp only [capabilityArtifacts, List.mem_cons, List.not_mem_nil, or_false] at generated
    rcases generated with rfl | rfl | rfl
    · exact readable_viewClass readable named (operation (by decide))
    · exact readable_reconstructArtifact readable
        (unescaped_of_chars (Capability.destructure.typeName_chars accepted chars))
    · exact readable_substituteArtifact named
  | destructureRef =>
    simp only [capabilityArtifacts, referenceArtifacts, List.mem_cons, List.not_mem_nil,
      or_false] at generated
    rcases generated with rfl | rfl
    · exact readable_viewClass readable named (operation (by decide))
    · exact readable_asArtifact named

end Artifacts

end OpenRecord
