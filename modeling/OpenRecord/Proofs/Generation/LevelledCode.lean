import OpenRecord.Proofs.Code.LevelLines
import OpenRecord.Proofs.Generation.Headlines

namespace OpenRecord

/-!
# Levels of generated code

All code that is generated for a model consists of lines at levels, so that reindentation keeps its
blocks in every unit and behind every margin.  The type expressions that are written as they are
must have no boundary in them for this.  Those that are always written as string literals need not:
these are the applied names of the generated types and the types of callbacks, and with them the
names of the generic parameters.

The type of a field may go over several lines.  The companion then declares the field with this very
type exactly if reindentation keeps the text of the type.
-/

open Code

/-! ## Names and types of a model -/

theorem Text.firm_of_chars {name : Text} (nonempty : name ≠ [])
    (chars : ∀ x ∈ name, isNameContinue x = true) : name.Firm := by
  refine ⟨?_, fun x member => isBoundary_of_isNameContinue (chars x member)⟩
  cases name with
  | nil => exact absurd rfl nonempty
  | cons first later =>
    have other : first ≠ ' ' := by
      rintro rfl
      exact absurd (chars ' ' (List.mem_cons_self ..)) (by decide)
    simpa using other

/-- No type expression of the model that is written as it is has a boundary in it. -/
def RecordModel.UnbrokenTypes (model : RecordModel) : Prop :=
  (∀ field ∈ model.fields, field.declaredType.Unbroken) ∧
    (∀ parameter ∈ model.genericParameters, parameter.declaration.Unbroken) ∧
    ∀ base ∈ model.genericBase, base.Unbroken

/-- This can be told by looking at the type expressions. -/
instance (model : RecordModel) : Decidable model.UnbrokenTypes :=
  inferInstanceAs (Decidable (_ ∧ _ ∧ _))

/-- The names and the type expressions of a model stay on their lines. -/
structure RecordModel.Tidy (model : RecordModel) : Prop where
  typeName : Text.isIdentifier model.typeName = true
  fields : ∀ field ∈ model.fields, Text.isIdentifier field.name = true
  types : model.UnbrokenTypes

namespace RecordModel

variable {model : RecordModel}

theorem Tidy.firm_typeName (tidy : model.Tidy) : model.typeName.Firm :=
  have chars := Text.chars_of_isIdentifier tidy.typeName
  Text.firm_of_chars chars.1 chars.2

theorem Tidy.firm_field (tidy : model.Tidy) : ∀ field ∈ model.fields, field.name.Firm := by
  intro field member
  have chars := Text.chars_of_isIdentifier (tidy.fields field member)
  exact Text.firm_of_chars chars.1 chars.2

theorem Tidy.firm_companionField (tidy : model.Tidy) (settings : Settings) :
    ∀ field ∈ (model.companion settings).fields, field.name.Firm :=
  List.forall_mem_map.2 tidy.firm_field

theorem Tidy.firm_generatedType (tidy : model.Tidy) {settings : Settings}
    (accepted : settings.Accepted) (capability : Capability) :
    (capability.typeName settings model.typeName).Firm :=
  have chars := Text.chars_of_isIdentifier tidy.typeName
  Text.firm_of_chars (capability.typeName_ne_nil chars.1)
    (capability.typeName_chars accepted chars.2)

/-- What stands behind the name of a generated class stays on the line. -/
theorem Tidy.unbroken_headerParameters (tidy : model.Tidy) : model.headerParameters.Unbroken := by
  unfold headerParameters
  split
  · have apart : Text.Unbroken [',', ' '] := by decide
    have joined := Text.unbroken_join apart (List.forall_mem_map.2 tidy.types.2.1)
    exact Text.unbroken_cons_iff.2 ⟨rfl, Text.unbroken_append_iff.2 ⟨joined, by decide⟩⟩
  case h_2 first later _ base =>
    have declared := tidy.types.2.2 (first :: later) base
    exact Text.unbroken_cons_iff.2 ⟨rfl, Text.unbroken_append_iff.2 ⟨declared, by decide⟩⟩
  · exact Text.unbroken_nil

end RecordModel

/-! ## Types as strings -/

/-- A type expression on one line stays there as a string literal. -/
theorem unbroken_quote {type : Text} (unbroken : type.Unbroken) : (quote type).Unbroken := by
  unfold quote
  split
  · exact Text.unbroken_quoted _
  · split
    · exact unbroken
    · exact Text.unbroken_quoted _

/-- One that does not start with a mark is put on one line. -/
theorem unbroken_quote_cons {c : Char} (single : c ≠ Text.singleMark) (double : c ≠ Text.doubleMark)
    (rest : Text) : (quote (c :: rest)).Unbroken := by
  rw [quote, if_neg (by simp [single, double])]
  exact Text.unbroken_quoted _

/-- Hence a name applied to the generic parameters stays on one line whatever these are. -/
theorem RecordModel.unbroken_applyGenerics (model : RecordModel) {name : Text}
    (nonempty : name ≠ []) (chars : ∀ x ∈ name, Text.isNameContinue x = true) :
    (quote (model.applyGenerics name)).Unbroken := by
  rcases List.exists_cons_of_ne_nil nonempty with ⟨first, later, rfl⟩
  have letter := chars first (List.mem_cons_self ..)
  have single : first ≠ Text.singleMark := by
    rintro rfl
    exact absurd letter (by decide)
  have double : first ≠ Text.doubleMark := by
    rintro rfl
    exact absurd letter (by decide)
  unfold applyGenerics
  split
  · exact unbroken_quote_cons single double later
  · exact unbroken_quote_cons single double _

theorem unbroken_callbackType (argument : Text) : (callbackType argument).Unbroken :=
  unbroken_quote_cons (by decide) (by decide) _

theorem RecordModel.Tidy.unbroken_typeName {model : RecordModel} (tidy : model.Tidy) :
    (quote (model.applyGenerics model.typeName)).Unbroken :=
  have chars := Text.chars_of_isIdentifier tidy.typeName
  model.unbroken_applyGenerics chars.1 chars.2

theorem RecordModel.Tidy.unbroken_generatedType {model : RecordModel} (tidy : model.Tidy)
    {settings : Settings} (accepted : settings.Accepted) (capability : Capability) :
    (quote (model.applyGenerics (capability.typeName settings model.typeName))).Unbroken :=
  have chars := Text.chars_of_isIdentifier tidy.typeName
  model.unbroken_applyGenerics (capability.typeName_ne_nil chars.1)
    (capability.typeName_chars accepted chars.2)

theorem unbroken_untyped {name : Text} (unbroken : name.Unbroken) :
    (Parameter.mk name none).text.Unbroken :=
  unbroken_parameter unbroken nofun

theorem unbroken_typed {name type : Text} (unbroken : name.Unbroken) (typed : type.Unbroken) :
    (Parameter.mk name (some type)).text.Unbroken :=
  unbroken_parameter unbroken (by rintro _ ⟨⟩; exact typed)

theorem unbroken_documented {name : Text} (unbroken : name.Unbroken) :
    (documented name).Unbroken := by
  rw [documented, Text.unbroken_append_iff, Text.unbroken_append_iff]
  exact ⟨⟨by decide, unbroken⟩, by decide⟩

/-! ## Bodies of generated methods -/

theorem tidy_localAttribute {value field : Text} (first : value.Firm) (second : field.Unbroken) :
    (localAttribute value field).Tidy :=
  ⟨first, second⟩

/-- A write past the guards of a class. -/
theorem tidy_rawWrite {instanceName field source : Text} (first : instanceName.Firm)
    (second : field.Unbroken) (third : source.Firm) :
    (rawWrite instanceName field source).Tidy :=
  ⟨tidy_localAttribute (by decide) (by decide), first, second,
    tidy_localAttribute third second, trivial⟩

theorem commandsTidy_append {front back : List Command} (first : CommandsTidy front)
    (second : CommandsTidy back) : CommandsTidy (front ++ back) := by
  rw [commandsTidy_iff] at first second ⊢
  exact List.forall_mem_append.2 ⟨first, second⟩

theorem tidy_rawWrites {fields : List Field} {instanceName source : Text}
    (each : ∀ field ∈ fields, field.name.Firm) (first : instanceName.Firm) (second : source.Firm) :
    CommandsTidy (fields.map fun field => rawWrite instanceName field.name source) :=
  commandsTidy_iff.2 (List.forall_mem_map.2 fun field member =>
    tidy_rawWrite first (each field member).2 second)

theorem tidy_return {name : Text} (firm : name.Firm) : CommandsTidy [.return (.name name)] :=
  ⟨firm, trivial⟩

theorem tidy_intoBody {companion : CompanionModel}
    (each : ∀ field ∈ companion.fields, field.name.Firm) (name : companion.name.Firm) :
    CommandsTidy (intoBody companion) := by
  have built : (Term.construct (.name companion.name)
      ((companion.fields.filter (!·.skip)).map fun field =>
        (field.name, localAttribute "self" field.name))).Tidy := by
    refine ⟨name, argumentsTidy_iff.2 (List.forall_mem_map.2 fun field member => ?_)⟩
    have own := each field (List.mem_of_mem_filter member)
    exact ⟨own, tidy_localAttribute (by decide) own.2⟩
  have moved : (Term.name "destruct").Tidy := show Text.Firm _ by decide
  unfold intoBody
  dsimp only
  split
  · exact ⟨built, trivial⟩
  · refine ⟨⟨moved, built⟩, commandsTidy_append ?_ (tidy_return moved)⟩
    refine commandsTidy_iff.2 (List.forall_mem_map.2 fun field member => ?_)
    have own := (each field (List.mem_of_mem_filter member)).2
    exact ⟨tidy_localAttribute (by decide) own, tidy_localAttribute (by decide) own⟩

/-- The refusal of an emptied view. -/
theorem tidy_expired {name scope : Text} (first : name.Unbroken) (second : scope.Unbroken) :
    (expired name scope).Tidy := by
  have message : Text.Unbroken (name ++ " used outside of " ++ scope) :=
    Text.unbroken_append_iff.2 ⟨Text.unbroken_append_iff.2 ⟨first, by decide⟩, second⟩
  have error : (Term.name "ReferenceError").Tidy := show Text.Firm _ by decide
  exact ⟨tidy_localAttribute (by decide) (by decide), ⟨error, message, trivial⟩, trivial⟩

/-! ## Generated classes -/

section Artifacts

variable {model : RecordModel} {settings : Settings} (accepted : settings.Accepted)
  (tidy : model.Tidy)

include accepted tidy in
theorem tidy_companionArtifact : (companionArtifact model settings).definition.Tidy := by
  have record := tidy.firm_typeName.2
  have operation : ∀ {call : Text}, call.Unbroken → Text.Unbroken (model.typeName ++ call) :=
    fun unbroken => Text.unbroken_append_iff.2 ⟨record, unbroken⟩
  refine ⟨(tidy.firm_generatedType accepted .destructure).2, tidy.unbroken_headerParameters, ?_, ?_⟩
  · refine Text.Unbroken.flush_paragraph (Text.unbroken_append_iff.2
      ⟨by decide, unbroken_documented record⟩) (Text.Firm.flushFrom ?_)
    have start : Text.Firm ("Produced by " ++
        documented (model.typeName ++ ".into_destruct()")) :=
      Text.Firm.append (by decide) (unbroken_documented (operation (by decide)))
    exact ((start.append (by decide)).append
      (unbroken_documented (operation (by decide)))).append (by decide)
  · refine List.forall_mem_map.2 (List.forall_mem_map.2 fun field member => ?_)
    exact ⟨tidy.firm_field field member, tidy.types.1 field member⟩

/-- The method that reads a property. -/
theorem tidy_viewGetter {name scope : Text} {writable : Bool} {field : Field}
    (named : name.Unbroken) (place : scope.Unbroken) (own : field.name.Firm)
    (typed : field.declaredType.Unbroken) : (viewGetter name scope writable field).Tidy where
  name := own.2
  parameters := List.forall_mem_singleton.2 (unbroken_untyped (by decide))
  result := unbroken_quote typed
  documentation := nofun
  body := by
    have last : CommandsTidy [.return (.attribute viewed field.name)] :=
      ⟨⟨tidy_localAttribute (by decide) (by decide), own.2⟩, trivial⟩
    cases writable with
    | true => exact ⟨tidy_expired named place, last⟩
    | false => exact last

/-- The method that writes a property. -/
theorem tidy_viewSetter {name scope : Text} {field : Field} (named : name.Unbroken)
    (place : scope.Unbroken) (own : field.name.Firm) (typed : field.declaredType.Unbroken) :
    (viewSetter name scope field).Tidy where
  name := own.2
  parameters := List.forall_mem_cons.2 ⟨unbroken_untyped (by decide),
    List.forall_mem_singleton.2 (unbroken_typed (by decide) (unbroken_quote typed))⟩
  result := show Text.Unbroken ("None" : Text) by decide
  documentation := nofun
  body := by
    have value : (Term.name "value").Tidy := show Text.Firm _ by decide
    exact ⟨tidy_expired named place,
      ⟨tidy_localAttribute (by decide) (by decide),
        tidy_localAttribute (by decide) (by decide), own.2, value, trivial⟩, trivial⟩

theorem tidy_viewInitialiser {target : Text} (typed : target.Unbroken) :
    (Method.mk .plain "__init__" [⟨"self", none⟩, ⟨"target", some target⟩] "None" none
      [.assign viewed (.name "target")]).Tidy where
  name := show Text.Unbroken ("__init__" : Text) by decide
  parameters := List.forall_mem_cons.2 ⟨unbroken_untyped (by decide),
    List.forall_mem_singleton.2 (unbroken_typed (by decide) typed)⟩
  result := show Text.Unbroken ("None" : Text) by decide
  documentation := nofun
  body := ⟨⟨tidy_localAttribute (by decide) (by decide), show Text.Firm _ by decide⟩, trivial⟩

include tidy in
theorem tidy_viewClass {name scope : Text} {writable : Bool} (named : name.Unbroken)
    (place : scope.Unbroken) : (viewClass model name writable scope).Tidy := by
  have record := unbroken_documented tidy.firm_typeName.2
  refine ⟨named, tidy.unbroken_headerParameters, ?_, ?_⟩
  · refine Text.Unbroken.flush ?_
    have shown := unbroken_documented place
    cases writable <;>
      simp only [viewClass, Bool.false_eq_true, if_true, if_false, Text.unbroken_append_iff, record,
        shown, and_true] <;>
      decide
  · refine List.forall_mem_cons.2 ⟨List.forall_mem_singleton.2 (show Text.Unbroken _ by decide),
      List.forall_mem_cons.2 ⟨tidy_viewInitialiser tidy.unbroken_typeName, ?_⟩⟩
    intro member among
    rcases List.mem_flatMap.1 among with ⟨field, shown, inside⟩
    have present : field ∈ model.fields := List.mem_of_mem_filter shown
    have own := tidy.firm_field field present
    have typed := tidy.types.1 field present
    rcases List.mem_cons.1 inside with rfl | later
    · exact tidy_viewGetter named place own typed
    · cases writable with
      | true =>
        rw [List.mem_singleton.1 later]
        exact tidy_viewSetter named place own typed
      | false => cases later

/-! ## Generated methods -/

include accepted tidy in
/-- The method that turns a record into its companion. -/
theorem tidy_intoArtifact :
    (intoArtifact model (model.companion settings)).definition.Tidy := by
  have companion : (model.companion settings).name.Firm :=
    tidy.firm_generatedType accepted .destructure
  exact {
    name := show Text.Unbroken ("into_destruct" : Text) by decide
    parameters := List.forall_mem_singleton.2 (unbroken_untyped (by decide))
    result := tidy.unbroken_generatedType accepted .destructure
    documentation := by
      rintro _ ⟨⟩
      exact Text.Unbroken.flush_paragraph (Text.unbroken_append_iff.2
        ⟨by decide, unbroken_documented companion.2⟩) (by decide)
    body := tidy_intoBody (tidy.firm_companionField settings) companion }

include tidy in
/-- The method that turns a companion into a record. -/
theorem tidy_fromArtifact (accepted : settings.Accepted) :
    (fromArtifact model (model.companion settings)).definition.Tidy := by
  have allocated : (Command.assign (.name "instance")
      (.call (localAttribute "object" "__new__") [.name "cls"])).Tidy :=
    ⟨show Text.Firm _ by decide, tidy_localAttribute (by decide) (by decide),
      show Text.Firm _ by decide, trivial⟩
  exact {
    name := show Text.Unbroken ("from_destruct" : Text) by decide
    parameters := List.forall_mem_cons.2 ⟨unbroken_untyped (by decide), List.forall_mem_singleton.2
      (unbroken_typed (by decide) (tidy.unbroken_generatedType accepted .destructure))⟩
    result := tidy.unbroken_typeName
    documentation := by
      rintro _ ⟨⟩
      refine Text.Unbroken.flush ?_
      simp only [Text.unbroken_append_iff, unbroken_documented tidy.firm_typeName.2, and_true]
      decide
    body := ⟨allocated, commandsTidy_append
      (tidy_rawWrites (tidy.firm_companionField settings) (by decide) (by decide))
      (tidy_return (by decide))⟩ }

include accepted tidy in
/-- The method that builds a changed record. -/
theorem tidy_reconstructArtifact :
    (reconstructArtifact model (model.companion settings)).definition.Tidy := by
  have companion : (model.companion settings).name.Firm :=
    tidy.firm_generatedType accepted .destructure
  have local' : ∀ {name : Text}, name.Firm → (Term.name name).Tidy := fun firm => firm
  have edited : CommandsTidy
      [.assign (.name "destruct") (.call (localAttribute "self" "into_destruct") []),
        .evaluate (.call (.name "f") [.name "destruct"]),
        .assign (.name "instance") (.call (localAttribute "copy" "copy") [.name "self"])] :=
    ⟨⟨local' (by decide), tidy_localAttribute (by decide) (by decide), trivial⟩,
      ⟨local' (by decide), local' (by decide), trivial⟩,
      ⟨local' (by decide), tidy_localAttribute (by decide) (by decide), local' (by decide),
        trivial⟩, trivial⟩
  exact {
    name := show Text.Unbroken ("reconstruct" : Text) by decide
    parameters := List.forall_mem_cons.2 ⟨unbroken_untyped (by decide),
      List.forall_mem_singleton.2 (unbroken_typed (by decide) (unbroken_callbackType _))⟩
    result := tidy.unbroken_typeName
    documentation := by
      rintro _ ⟨⟩
      refine Text.Unbroken.flush_paragraph ?_ (by decide)
      simp only [Text.unbroken_append_iff, unbroken_documented companion.2,
        unbroken_documented tidy.firm_typeName.2, and_true]
      decide
    body := commandsTidy_append (commandsTidy_append edited
      (tidy_rawWrites (tidy.firm_companionField settings) (by decide) (by decide)))
      (tidy_return (by decide)) }

include accepted tidy in
/-- The method that changes a record in place. -/
theorem tidy_substituteArtifact : (substituteArtifact model settings).definition.Tidy := by
  have view : (mutationViewName model.typeName settings).Firm :=
    tidy.firm_generatedType accepted .mutation
  have local' : ∀ {name : Text}, name.Firm → (Term.name name).Tidy := fun firm => firm
  exact {
    name := show Text.Unbroken ("substitute" : Text) by decide
    parameters := List.forall_mem_cons.2 ⟨unbroken_untyped (by decide),
      List.forall_mem_singleton.2 (unbroken_typed (by decide) (unbroken_callbackType _))⟩
    result := show Text.Unbroken ("None" : Text) by decide
    documentation := by
      rintro _ ⟨⟩
      refine Text.Unbroken.flush_paragraph ?_ (by decide)
      rw [Text.unbroken_append_iff]
      exact ⟨by decide, unbroken_documented view.2⟩
    body := ⟨⟨local' (by decide), local' view, local' (by decide), trivial⟩,
      ⟨⟨⟨local' (by decide), local' (by decide), trivial⟩, trivial⟩,
        ⟨tidy_localAttribute (by decide) (by decide), trivial⟩, trivial⟩, trivial⟩ }

include accepted tidy in
/-- The method that returns the read-only view. -/
theorem tidy_asArtifact : (asArtifact model settings).definition.Tidy := by
  have view : (referenceViewName model.typeName settings).Firm :=
    tidy.firm_generatedType accepted .destructureRef
  exact {
    name := show Text.Unbroken ("as_destruct" : Text) by decide
    parameters := List.forall_mem_singleton.2 (unbroken_untyped (by decide))
    result := tidy.unbroken_generatedType accepted .destructureRef
    documentation := by
      rintro _ ⟨⟩
      refine Text.Unbroken.flush ?_
      simp only [Text.unbroken_append_iff, unbroken_documented view.2, and_true]
      decide
    body := ⟨⟨view, show Text.Firm _ by decide, trivial⟩, trivial⟩ }

/-! ## All artifacts -/

include accepted tidy in
theorem tidy_of_mem_capabilityArtifacts {capability : Capability} {artifact : Artifact}
    (generated : artifact ∈ capabilityArtifacts model settings capability) :
    artifact.definition.Tidy := by
  have operation : ∀ {call : Text}, call.Unbroken → Text.Unbroken (model.typeName ++ call) :=
    fun unbroken => Text.unbroken_append_iff.2 ⟨tidy.firm_typeName.2, unbroken⟩
  cases capability with
  | destructure =>
    simp only [capabilityArtifacts, conversionArtifacts, List.mem_cons, List.not_mem_nil,
      or_false] at generated
    rcases generated with rfl | rfl | rfl
    · exact tidy_companionArtifact accepted tidy
    · exact tidy_intoArtifact accepted tidy
    · exact tidy_fromArtifact tidy accepted
  | mutation =>
    simp only [capabilityArtifacts, List.mem_cons, List.not_mem_nil, or_false] at generated
    rcases generated with rfl | rfl | rfl
    · exact tidy_viewClass tidy (tidy.firm_generatedType accepted .mutation).2
        (operation (by decide))
    · exact tidy_reconstructArtifact accepted tidy
    · exact tidy_substituteArtifact accepted tidy
  | destructureRef =>
    simp only [capabilityArtifacts, referenceArtifacts, List.mem_cons, List.not_mem_nil,
      or_false] at generated
    rcases generated with rfl | rfl
    · exact tidy_viewClass tidy (tidy.firm_generatedType accepted .destructureRef).2
        (operation (by decide))
    · exact tidy_asArtifact accepted tidy

end Artifacts

/-- Reindentation changes indentation only.  Lines at levels are written with the same levels in
another unit and behind a margin, an empty line staying empty, and with the unit of emitted code and
no margin nothing is changed.  All code that any capability generates for a tidy model consists of
such lines, so that it is the same lines at the same levels wherever it is put. -/
theorem reindent_keeps_levels :
    (∀ (lines : List LevelLine) (unit margin : Text),
      reindent (emit (lines.map (·.emitted))) unit margin =
        emit (lines.map (·.print unit margin))) ∧
    (∀ lines : List LevelLine,
      reindent (emit (lines.map (·.emitted))) indentUnit [] = emit (lines.map (·.emitted))) ∧
    ∀ {values : SettingValues} {settings : Settings} {model : RecordModel},
      Settings.check values = .ok settings → model.Tidy →
      ∀ (capability : Capability), ∀ artifact ∈ capabilityArtifacts model settings capability,
        ∃ lines : List LevelLine, artifact.code = emit (lines.map (·.emitted)) ∧
          ∀ unit margin,
            reindent artifact.code unit margin = emit (lines.map (·.print unit margin)) := by
  refine ⟨reindent_emit, fun lines => reindent_emit lines indentUnit [], ?_⟩
  intro values settings model checked tidy capability artifact member
  have accepted := Settings.accepted_of_check checked
  rcases (tidy_of_mem_capabilityArtifacts accepted tidy member).exists_levels with ⟨lines, written⟩
  refine ⟨lines, written, fun unit margin => ?_⟩
  rw [show artifact.code = _ from written]
  exact reindent_emit lines unit margin

/-- A class with one field and a generic base. -/
def boxModel : RecordModel :=
  { typeName := "Box"
    genericStyle := .genericBase
    genericParameters := [⟨"T", "T"⟩]
    genericBase := some "Generic[T]"
    fields := [⟨"items", "list[T]", 0, .isPublic, false⟩]
    capabilities := ⟨true, true, true⟩
    memberNames := []
    location := none }

/-- Its writable view behind two spaces, with tabs for levels. -/
theorem reindent_keeps_levels_box :
    Settings.check .empty = .ok Settings.default ∧ boxModel.Tidy ∧
      ∃ lines : List LevelLine,
        (mutationViewArtifact boxModel Settings.default).code = emit (lines.map (·.emitted)) ∧
          reindent (mutationViewArtifact boxModel Settings.default).code ['\t'] [' ', ' '] =
            emit (lines.map (·.print ['\t'] [' ', ' '])) := by
  have tidy : boxModel.Tidy := ⟨by decide +kernel, by decide +kernel, by decide +kernel⟩
  have member : mutationViewArtifact boxModel Settings.default ∈
      capabilityArtifacts boxModel Settings.default .mutation := List.mem_cons_self ..
  rcases reindent_keeps_levels.2.2 Settings.check_empty tidy .mutation _ member with
    ⟨lines, written, placed⟩
  exact ⟨Settings.check_empty, tidy, lines, written, placed _ _⟩

/-! ## Types of several lines -/

namespace Field

/-- What a companion says of a field behind the colon. -/
def declared (field : Field) : Text :=
  field.declaredType ++
    if field.skip then (" = dataclasses.field(init=False, repr=False, compare=False)" : Text) else []

/-- The declaration of a field, one level deep. -/
def declaration (unit margin : Text) (field : Field) : Text :=
  margin ++ unit ++ (field.name ++ ": " ++ field.declared) ++ ['\n']

theorem lines_declared (field : Field) :
    (Member.field field.name field.declaredType field.skip).lines =
      [field.name ++ ": " ++ field.declared] := by
  cases hidden : field.skip <;> simp [Member.lines, declared, hidden]

theorem memberLines_declared (fields : List Field) :
    memberLines (fields.map fun field => .field field.name field.declaredType field.skip) =
      fields.map fun field => (field.name ++ ": " ++ field.declared : Text) := by
  induction fields with
  | nil => rfl
  | cons first later ih =>
    cases later with
    | nil => exact first.lines_declared
    | cons second others => exact congrArg₂ (· ++ ·) first.lines_declared ih

/-- Reindentation finds a declaration again exactly if what it says behind the colon is kept. -/
theorem reindent_declaration_iff {field : Field} (named : field.name.Firm) {unit margin : Text}
    (units : unit.Unbroken) (front : margin.Unbroken) :
    reindent (field.declaration indentUnit []) unit margin = field.declaration unit margin ↔
      KeptBy unit margin field.declared := by
  have colon : (field.name ++ ": ").Firm := named.append (by decide)
  simpa [declaration, repeated] using reindent_eq_iff colon units front 1

theorem indent_declared (fields : List Field) :
    indent (fields.map fun field => field.name ++ ": " ++ field.declared) 1 =
      fields.map fun field => (indentUnit ++ (field.name ++ ": " ++ field.declared) : Text) := by
  rw [indent, List.map_map]
  refine List.map_congr_left fun field _ => ?_
  rw [Function.comp_apply, if_neg (by simp)]
  rfl

end Field

/-- A class that only declares fields does so one by one at its end. -/
theorem exists_lines_declared {code : ClassCode} {fields : List Field}
    (members : code.members = fields.map fun field =>
      .field field.name field.declaredType field.skip) :
    ∃ top, top ≠ [] ∧ code.lines = top ++ fields.map fun field =>
      (indentUnit ++ (field.name ++ ": " ++ field.declared) : Text) := by
  have apart (above : List Text) (header : Text) (text below : List Text) :
      above ++ header :: indent (text ++ [] :: below) 1 =
        above ++ header :: indent (text ++ [[]]) 1 ++ indent below 1 := by
    simp [indent]
  rw [ClassCode.lines, apart, members, Field.memberLines_declared, Field.indent_declared]
  exact ⟨_, List.append_ne_nil_of_right_ne_nil _ (List.cons_ne_nil _ _), rfl⟩

/-- The companion declares its fields one by one.  Reindentation handles each declaration by itself
and finds it again exactly if what it says of the field behind the colon is kept. -/
theorem reindent_companion {model : RecordModel} (settings : Settings)
    (named : ∀ field ∈ model.fields, field.name.Firm) :
    (∃ top, (companionArtifact model settings).code =
        top ++ (model.companion settings).fields.flatMap (Field.declaration indentUnit []) ∧
      ∀ unit margin, reindent (companionArtifact model settings).code unit margin =
        reindent top unit margin ++ (model.companion settings).fields.flatMap fun field =>
          reindent (field.declaration indentUnit []) unit margin) ∧
    ∀ field ∈ (model.companion settings).fields, ∀ unit margin : Text,
      unit.Unbroken → margin.Unbroken →
        (reindent (field.declaration indentUnit []) unit margin = field.declaration unit margin ↔
          KeptBy unit margin field.declared) := by
  have firm : ∀ field ∈ (model.companion settings).fields, field.name.Firm :=
    List.forall_mem_map.2 named
  refine ⟨?_, fun field member unit margin => Field.reindent_declaration_iff (firm field member)⟩
  have parts : ∃ top, top ≠ [] ∧ (companionArtifact model settings).definition.lines =
      top ++ (model.companion settings).fields.map fun field =>
        (indentUnit ++ (field.name ++ ": " ++ field.declared) : Text) :=
    exists_lines_declared rfl
  rcases parts with ⟨top, nonempty, split⟩
  have code : (companionArtifact model settings).code = emit _ := congrArg emit split
  refine ⟨emit top, ?_, fun unit margin => ?_⟩
  · rw [code, emit_eq_flatMap (by simp [nonempty]), emit_eq_flatMap nonempty, List.flatMap_append,
      List.flatMap_map]
    rfl
  · rw [code, reindent_emit_eq_flatMap (by simp [nonempty]), reindent_emit_eq_flatMap nonempty,
      List.flatMap_append, List.flatMap_map]
    rfl

/-- Two blanks that start the second line of a literal are lost. -/
example : KeptBy indentUnit [] "Literal[\"\"\"a\nb\"\"\"]" ∧
    ¬KeptBy indentUnit [] "Literal[\"\"\"a\n  b\"\"\"]" := by
  decide

end OpenRecord
