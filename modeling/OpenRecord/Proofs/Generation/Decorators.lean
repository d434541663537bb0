import OpenRecord.Proofs.Code.EmittedLines
import OpenRecord.Proofs.Generation.Headlines

namespace OpenRecord

/-!
# Decorators of generated code

Generated code has four kinds of decorators: of dataclasses, of class methods, and of the methods
that read and write the properties of a view.  If no type expression of a model has a line that
starts with an at sign, other than possibly the first one, then wherever an artifact of the model is
put no other decorator can be read from it.

Fields have to be names for this, since a property is named after its field.
-/

namespace Source

/-! ## Decorators of properties -/

theorem lexeme_at_word {c : Char} {rest : Text} (word : isWordChar c = true) :
    lexeme [] [] ('@' :: c :: rest) = some ⟨⟨[], .symbol .at, ['@']⟩, [], c :: rest⟩ := by
  have single : ('=' == c) = false := beq_eq_false_iff_ne.2 (ne_of_isWordChar word (by decide)).symm
  have known : symbol ('@' :: c :: rest) = some (.at, ['@'], c :: rest) := by
    simp [symbol, symbols, List.find?, List.isPrefixOf, single]
  change (symbol ('@' :: c :: rest)).bind _ = _
  rw [known]
  rfl

namespace DecoratorLine

/-- The decorator of the method that reads a property. -/
def property : DecoratorLine where
  chars := "@property"
  tokens := [⟨[], .symbol .at, ['@']⟩, ⟨[], .name, "property"⟩]
  value := .name "property"
  head := rfl
  unbroken := by decide
  scanned _ _ _ := rfl
  readable := rfl

/-- The tokens of the decorator of the method that writes a property. -/
def setterTokens (name : Text) : List Token :=
  [⟨[], .symbol .at, ['@']⟩, ⟨[], .name, name⟩, ⟨[], .symbol .dot, ['.']⟩, ⟨[], .name, "setter"⟩]

/-- It is scanned as these if the property has a name. -/
theorem logicalLine_setter {name : Text} (identifier : Text.isIdentifier name = true)
    (free : Keyword.ofText? name = none) (context : LineContext) (fuel : Nat) (rest : Text) :
    logicalLine context (fuel + ('@' :: (name ++ ".setter")).length + 1) []
        ('@' :: (name ++ ".setter") ++ '\n' :: rest) =
      some (setterTokens name, ⟨[], .read context.usual ['\n']⟩, rest) := by
  have spelled := Text.chars_of_isIdentifier identifier
  have word : ∀ x ∈ name, isWordChar x = true :=
    fun x member => isWordChar_of_isNameContinue (spelled.2 x member)
  have tail : logicalLine context (fuel + name.length + 7) [] (".setter" ++ '\n' :: rest) =
      some ([⟨[], .symbol .dot, ['.']⟩, ⟨[], .name, "setter"⟩],
        ⟨[], .read context.usual ['\n']⟩, rest) := rfl
  rcases List.exists_cons_of_ne_nil spelled.1 with ⟨first, later, rfl⟩
  have start := word first (List.mem_cons_self ..)
  have letter : Text.isAsciiDigit first = false := by
    rw [Text.isIdentifier, Bool.and_eq_true] at identifier
    exact isAsciiDigit_of_isNameStart identifier.1
  have named : lineStep context [] (first :: later ++ (".setter" ++ '\n' :: rest)) =
      some (.go ⟨⟨[], .name, first :: later⟩, [], ".setter" ++ '\n' :: rest⟩) := by
    rw [← List.nil_append (first :: later ++ _), List.cons_append,
      lineStep_append (by simp) (startsToken_of_isWordChar start), lexeme_word start letter,
      ← List.cons_append]
    change (wordLexeme [] [] (first :: later ++ '.' :: ("setter" ++ '\n' :: rest))).map _ = _
    rw [wordLexeme_append word (by decide) (by decide), free, if_pos identifier]
    rfl
  have sign : lineStep context [] ('@' :: (first :: later ++ (".setter" ++ '\n' :: rest))) =
      some (.go ⟨⟨[], .symbol .at, ['@']⟩, [], first :: later ++ (".setter" ++ '\n' :: rest)⟩) := by
    have opens : StartsToken '@' := ⟨by decide, by decide, by decide, by decide⟩
    rw [← List.nil_append ('@' :: _), lineStep_append (by simp) opens, List.cons_append]
    exact congrArg (Option.map LineStep.go) (lexeme_at_word start)
  have whole := logicalLine_go sign (logicalLine_go named tail)
  have fits : fuel + ('@' :: (first :: later ++ ".setter")).length + 1 =
      fuel + (first :: later).length + 7 + 1 + 1 := by
    simp
    omega
  rw [fits, setterTokens]
  simpa using whole

/-- The decorator of the method that writes a property. -/
def setter (name : Text) (identifier : Text.isIdentifier name = true)
    (free : Keyword.ofText? name = none) : DecoratorLine where
  chars := '@' :: (name ++ ".setter")
  tokens := setterTokens name
  value := .attribute (.name name) "setter"
  head := rfl
  unbroken := by
    have name : name.all (!Text.isBoundary ·) = true := List.all_eq_true.2 fun x member => by
      simp [Text.isBoundary_of_isNameContinue ((Text.chars_of_isIdentifier identifier).2 x member)]
    rw [List.all_cons, List.all_append, name]
    decide
  scanned := logicalLine_setter identifier free
  readable := rfl

end DecoratorLine

/-- The decorators of generated code. -/
inductive Expression.Emitted : Expression → Prop
  | dataclass : Emitted DecoratorLine.dataclass.value
  | classmethod : Emitted DecoratorLine.classmethod.value
  | property : Emitted DecoratorLine.property.value
  | setter (name : Text) : Emitted (.attribute (.name name) "setter")

end Source

open Source Code

/-! ## Names and types of a model -/

theorem Text.signless_of_chars {name : Text} (chars : ∀ x ∈ name, isNameContinue x = true) :
    '@' ∉ name :=
  fun member => absurd (chars '@' member) (by decide)

/-- The name of the class is an identifier, and so are those of the fields, which are not reserved
either. -/
structure RecordModel.Spelled (model : RecordModel) : Prop where
  typeName : Text.isIdentifier model.typeName = true
  fields : ∀ field ∈ model.fields,
    Text.isIdentifier field.name = true ∧ Keyword.ofText? field.name = none

/-- No type expression of the model has a line that starts with an at sign, except that its first
line may do so. -/
def RecordModel.SteadyTypes (model : RecordModel) : Prop :=
  (∀ field ∈ model.fields, field.declaredType.Steady) ∧
    (∀ parameter ∈ model.genericParameters, parameter.declaration.Steady) ∧
    ∀ base ∈ model.genericBase, base.Steady

/-- This can be told by looking at the type expressions. -/
instance (model : RecordModel) : Decidable model.SteadyTypes :=
  inferInstanceAs (Decidable (_ ∧ _ ∧ _))

/-- What stands behind the name of a generated class starts no line with an at sign. -/
theorem RecordModel.level_headerParameters {model : RecordModel} (steady : model.SteadyTypes) :
    model.headerParameters.Level := by
  have bracket : Text.Level [']'] := Text.level_of_not_mem (by decide)
  have parenthesis : Text.Level [')'] := Text.level_of_not_mem (by decide)
  unfold headerParameters
  split
  · have joined : Text.Steady
        (Text.join [',', ' '] (model.genericParameters.map (·.declaration))) :=
      Text.steady_join (List.forall_mem_map.2 steady.2.1)
    exact (joined.append bracket).level_cons rfl
  case h_2 first later _ base =>
    have declared := steady.2.2 (first :: later) base
    exact (declared.append parenthesis).level_cons rfl
  · exact Text.level_of_not_mem List.not_mem_nil

/-- The name of a generated type, applied to the generic parameters, is steady as a string. -/
theorem RecordModel.steady_applyGenerics (model : RecordModel) {name : Text} (nonempty : name ≠ [])
    (chars : ∀ x ∈ name, Text.isNameContinue x = true) :
    (quote (model.applyGenerics name)).Steady := by
  rcases List.exists_cons_of_ne_nil nonempty with ⟨first, later, rfl⟩
  have letter := chars first (List.mem_cons_self ..)
  have single : first ≠ Text.singleMark := by
    rintro rfl
    exact absurd letter (by decide)
  have double : first ≠ Text.doubleMark := by
    rintro rfl
    exact absurd letter (by decide)
  unfold applyGenerics
  split
  · exact steady_quote_cons single double later
  · exact steady_quote_cons single double _

theorem steady_callbackType (argument : Text) : (callbackType argument).Steady :=
  steady_quote_cons (by decide) (by decide) _

/-! ## Bodies of generated methods -/

theorem signless_localAttribute {value field : Text} (first : '@' ∉ value) (second : '@' ∉ field) :
    (localAttribute value field).Signless :=
  ⟨first, second⟩

/-- A write past the guards of a class. -/
theorem signless_rawWrite {instanceName field source : Text} (first : '@' ∉ instanceName)
    (second : '@' ∉ field) (third : '@' ∉ source) :
    (rawWrite instanceName field source).Signless :=
  ⟨signless_localAttribute (by decide) (by decide), first, second,
    signless_localAttribute third second, trivial⟩

/-- Commands in a row have no at sign if those of its parts have none. -/
theorem commandsSignless_append {front back : List Command} (first : CommandsSignless front)
    (second : CommandsSignless back) : CommandsSignless (front ++ back) := by
  rw [commandsSignless_iff] at first second ⊢
  exact List.forall_mem_append.2 ⟨first, second⟩

theorem signless_rawWrites {fields : List Field} {instanceName source : Text}
    (plain : ∀ field ∈ fields, '@' ∉ field.name) (first : '@' ∉ instanceName)
    (second : '@' ∉ source) :
    CommandsSignless (fields.map fun field => rawWrite instanceName field.name source) :=
  commandsSignless_iff.2 (List.forall_mem_map.2 fun field member =>
    signless_rawWrite first (plain field member) second)

theorem signless_intoBody {companion : CompanionModel}
    (plain : ∀ field ∈ companion.fields, '@' ∉ field.name) (name : '@' ∉ companion.name) :
    CommandsSignless (intoBody companion) := by
  have built : (Term.construct (.name companion.name)
      ((companion.fields.filter (!·.skip)).map fun field =>
        (field.name, localAttribute "self" field.name))).Signless := by
    refine ⟨name, argumentsSignless_iff.2 (List.forall_mem_map.2 fun field member => ?_)⟩
    have own := plain field (List.mem_of_mem_filter member)
    exact ⟨own, signless_localAttribute (by decide) own⟩
  have last : CommandsSignless [.return (.name "destruct")] := ⟨show '@' ∉ _ by decide, trivial⟩
  unfold intoBody
  dsimp only
  split
  · exact ⟨built, trivial⟩
  · refine ⟨⟨show '@' ∉ _ by decide, built⟩, commandsSignless_append ?_ last⟩
    refine commandsSignless_iff.2 (List.forall_mem_map.2 fun field member => ?_)
    have own := plain field (List.mem_of_mem_filter member)
    exact ⟨signless_localAttribute (by decide) own, signless_localAttribute (by decide) own⟩

/-- The refusal of an emptied view. -/
theorem signless_expired {name scope : Text} (first : '@' ∉ name) (second : '@' ∉ scope) :
    (expired name scope).Signless := by
  have message : '@' ∉ (name ++ " used outside of " ++ scope : Text) := by simp [first, second]
  have error : (Term.name "ReferenceError").Signless := show '@' ∉ _ by decide
  exact ⟨signless_localAttribute (by decide) (by decide), ⟨error, message, trivial⟩, trivial⟩

/-! ## Generated classes -/

section Artifacts

variable {model : RecordModel} {settings : Settings} (accepted : settings.Accepted)
  (spelled : model.Spelled) (steady : model.SteadyTypes)

theorem signless_documented {name : Text} (plain : '@' ∉ name) : '@' ∉ documented name := by
  simp [documented, plain]

include spelled in
theorem RecordModel.Spelled.signless_typeName : '@' ∉ model.typeName :=
  Text.signless_of_chars (Text.chars_of_isIdentifier spelled.typeName).2

include spelled in
theorem RecordModel.Spelled.signless_field :
    ∀ field ∈ model.fields, '@' ∉ field.name := fun field member =>
  Text.signless_of_chars (Text.chars_of_isIdentifier (spelled.fields field member).1).2

include spelled in
theorem RecordModel.Spelled.signless_companionField :
    ∀ field ∈ (model.companion settings).fields, '@' ∉ field.name :=
  List.forall_mem_map.2 spelled.signless_field

include accepted spelled in
/-- A generated type has a name without at signs, and its name with the generic parameters is steady
as a string. -/
theorem RecordModel.Spelled.generatedType (capability : Capability) :
    '@' ∉ capability.typeName settings model.typeName ∧
      (quote (model.applyGenerics (capability.typeName settings model.typeName))).Steady := by
  have chars := Text.chars_of_isIdentifier spelled.typeName
  have letters := capability.typeName_chars accepted chars.2
  exact ⟨Text.signless_of_chars letters,
    model.steady_applyGenerics (capability.typeName_ne_nil chars.1) letters⟩

include spelled in
/-- The name of the class with its generic parameters is steady as a string, too. -/
theorem RecordModel.Spelled.steady_typeName :
    (quote (model.applyGenerics model.typeName)).Steady :=
  have chars := Text.chars_of_isIdentifier spelled.typeName
  model.steady_applyGenerics chars.1 chars.2

include accepted spelled steady in
theorem steady_companionArtifact :
    (companionArtifact model settings).definition.Steady Expression.Emitted := by
  have name := (spelled.generatedType accepted .destructure).1
  have record := spelled.signless_typeName
  refine ⟨name, RecordModel.level_headerParameters steady, ?_, ?_, fun _ => .dataclass⟩
  · simp [documented, record]
  · refine List.forall_mem_map.2 (List.forall_mem_map.2 fun field member => ?_)
    exact ⟨spelled.signless_field field member, steady.1 field member⟩

theorem level_untyped {name : Text} (plain : '@' ∉ name) : (Parameter.mk name none).text.Level :=
  level_parameter plain nofun

theorem level_typed {name type : Text} (plain : '@' ∉ name) (typed : type.Steady) :
    (Parameter.mk name (some type)).text.Level :=
  level_parameter plain (by rintro _ ⟨⟩; exact typed)

/-- The method that reads a property. -/
theorem steady_viewGetter {name scope : Text} {writable : Bool} {field : Field} (plain : '@' ∉ name)
    (place : '@' ∉ scope) (own : '@' ∉ field.name) (typed : field.declaredType.Steady) :
    (viewGetter name scope writable field).Steady Expression.Emitted where
  name := own
  parameters := List.forall_mem_singleton.2 (level_untyped (by decide))
  result := steady_quote typed
  documentation := nofun
  body := by
    have last : CommandsSignless [.return (.attribute viewed field.name)] :=
      ⟨⟨signless_localAttribute (by decide) (by decide), own⟩, trivial⟩
    cases writable with
    | true => exact ⟨signless_expired plain place, last⟩
    | false => exact last
  decorators := List.forall_mem_singleton.2 ⟨.property, .property, rfl⟩

/-- The method that writes a property. -/
theorem steady_viewSetter {name scope : Text} {field : Field} (plain : '@' ∉ name)
    (place : '@' ∉ scope) (identifier : Text.isIdentifier field.name = true)
    (free : Keyword.ofText? field.name = none) (typed : field.declaredType.Steady) :
    (viewSetter name scope field).Steady Expression.Emitted where
  name := Text.signless_of_chars (Text.chars_of_isIdentifier identifier).2
  parameters := List.forall_mem_cons.2 ⟨level_untyped (by decide),
    List.forall_mem_singleton.2 (level_typed (by decide) (steady_quote typed))⟩
  result := show Text.Steady ("None" : Text) by decide
  documentation := nofun
  body := by
    have own := Text.signless_of_chars (Text.chars_of_isIdentifier identifier).2
    have value : (Term.name "value").Signless := show '@' ∉ _ by decide
    exact ⟨signless_expired plain place,
      ⟨signless_localAttribute (by decide) (by decide),
        signless_localAttribute (by decide) (by decide), own, value, trivial⟩, trivial⟩
  decorators := List.forall_mem_singleton.2 ⟨.setter field.name identifier free, .setter _, rfl⟩

theorem steady_viewInitialiser {target : Text} (typed : target.Steady) :
    (Method.mk .plain "__init__" [⟨"self", none⟩, ⟨"target", some target⟩] "None" none
      [.assign viewed (.name "target")]).Steady Expression.Emitted where
  name := show '@' ∉ ("__init__" : Text) by decide
  parameters := List.forall_mem_cons.2 ⟨level_untyped (by decide),
    List.forall_mem_singleton.2 (level_typed (by decide) typed)⟩
  result := show Text.Steady ("None" : Text) by decide
  documentation := nofun
  body := ⟨⟨signless_localAttribute (by decide) (by decide), show '@' ∉ _ by decide⟩, trivial⟩
  decorators := nofun

include spelled steady in
theorem steady_viewClass {name scope : Text} {writable : Bool} (plain : '@' ∉ name)
    (place : '@' ∉ scope) :
    (viewClass model name writable scope).Steady Expression.Emitted := by
  have record := spelled.signless_typeName
  refine ⟨plain, RecordModel.level_headerParameters steady, ?_, ?_, nofun⟩
  · cases writable <;> simp [viewClass, documented, record, place]
  · refine List.forall_mem_cons.2 ⟨List.forall_mem_singleton.2 (show '@' ∉ viewTarget by decide),
      List.forall_mem_cons.2 ⟨steady_viewInitialiser spelled.steady_typeName, ?_⟩⟩
    intro member among
    rcases List.mem_flatMap.1 among with ⟨field, shown, inside⟩
    have present : field ∈ model.fields := List.mem_of_mem_filter shown
    have named := spelled.fields field present
    have typed := steady.1 field present
    rcases List.mem_cons.1 inside with rfl | later
    · exact steady_viewGetter plain place (spelled.signless_field field present) typed
    · cases writable with
      | true =>
        rw [List.mem_singleton.1 later]
        exact steady_viewSetter plain place named.1 named.2 typed
      | false => cases later

/-! ## Generated methods -/

include accepted spelled in
/-- The method that turns a record into its companion. -/
theorem steady_intoArtifact :
    (intoArtifact model (model.companion settings)).definition.Steady Expression.Emitted := by
  have companion : '@' ∉ (model.companion settings).name :=
    (spelled.generatedType accepted .destructure).1
  exact {
    name := show '@' ∉ ("into_destruct" : Text) by decide
    parameters := List.forall_mem_singleton.2 (level_untyped (by decide))
    result := (spelled.generatedType accepted .destructure).2
    documentation := by
      rintro _ ⟨⟩
      simp [documented, companion]
    body := signless_intoBody spelled.signless_companionField companion
    decorators := nofun }

include accepted spelled in
/-- The method that turns a companion into a record. -/
theorem steady_fromArtifact :
    (fromArtifact model (model.companion settings)).definition.Steady Expression.Emitted := by
  have record := spelled.signless_typeName
  have allocated : (Command.assign (.name "instance")
      (.call (localAttribute "object" "__new__") [.name "cls"])).Signless :=
    ⟨show '@' ∉ _ by decide, signless_localAttribute (by decide) (by decide),
      show '@' ∉ _ by decide, trivial⟩
  have last : CommandsSignless [.return (.name "instance")] := ⟨show '@' ∉ _ by decide, trivial⟩
  exact {
    name := show '@' ∉ ("from_destruct" : Text) by decide
    parameters := List.forall_mem_cons.2 ⟨level_untyped (by decide),
      List.forall_mem_singleton.2
        (level_typed (by decide) (spelled.generatedType accepted .destructure).2)⟩
    result := spelled.steady_typeName
    documentation := by
      rintro _ ⟨⟩
      simp [documented, record]
    body := ⟨allocated, commandsSignless_append
      (signless_rawWrites spelled.signless_companionField (by decide) (by decide)) last⟩
    decorators := List.forall_mem_singleton.2 ⟨.classmethod, .classmethod, rfl⟩ }

include accepted spelled in
/-- The method that builds a changed record. -/
theorem steady_reconstructArtifact :
    (reconstructArtifact model (model.companion settings)).definition.Steady
      Expression.Emitted := by
  have record := spelled.signless_typeName
  have companion : '@' ∉ (model.companion settings).name :=
    (spelled.generatedType accepted .destructure).1
  have local' : ∀ {name : Text}, '@' ∉ name → (Term.name name).Signless := fun plain => plain
  have edited : CommandsSignless
      [.assign (.name "destruct") (.call (localAttribute "self" "into_destruct") []),
        .evaluate (.call (.name "f") [.name "destruct"]),
        .assign (.name "instance") (.call (localAttribute "copy" "copy") [.name "self"])] :=
    ⟨⟨local' (by decide), signless_localAttribute (by decide) (by decide), trivial⟩,
      ⟨local' (by decide), local' (by decide), trivial⟩,
      ⟨local' (by decide), signless_localAttribute (by decide) (by decide), local' (by decide),
        trivial⟩, trivial⟩
  have last : CommandsSignless [.return (.name "instance")] := ⟨local' (by decide), trivial⟩
  exact {
    name := show '@' ∉ ("reconstruct" : Text) by decide
    parameters := List.forall_mem_cons.2 ⟨level_untyped (by decide),
      List.forall_mem_singleton.2 (level_typed (by decide) (steady_callbackType _))⟩
    result := spelled.steady_typeName
    documentation := by
      rintro _ ⟨⟩
      simp only [List.mem_append, not_or, signless_documented record,
        signless_documented companion, not_false_eq_true, and_true]
      decide
    body := commandsSignless_append (commandsSignless_append edited
      (signless_rawWrites spelled.signless_companionField (by decide) (by decide))) last
    decorators := nofun }

include accepted spelled in
/-- The method that changes a record in place. -/
theorem steady_substituteArtifact :
    (substituteArtifact model settings).definition.Steady Expression.Emitted := by
  have view : '@' ∉ mutationViewName model.typeName settings :=
    (spelled.generatedType accepted .mutation).1
  have local' : ∀ {name : Text}, '@' ∉ name → (Term.name name).Signless := fun plain => plain
  exact {
    name := show '@' ∉ ("substitute" : Text) by decide
    parameters := List.forall_mem_cons.2 ⟨level_untyped (by decide),
      List.forall_mem_singleton.2 (level_typed (by decide) (steady_callbackType _))⟩
    result := show Text.Steady ("None" : Text) by decide
    documentation := by
      rintro _ ⟨⟩
      simp [documented, view]
    body := ⟨⟨local' (by decide), local' view, local' (by decide), trivial⟩,
      ⟨⟨⟨local' (by decide), local' (by decide), trivial⟩, trivial⟩,
        ⟨signless_localAttribute (by decide) (by decide), trivial⟩, trivial⟩, trivial⟩
    decorators := nofun }

include accepted spelled in
/-- The method that returns the read-only view. -/
theorem steady_asArtifact :
    (asArtifact model settings).definition.Steady Expression.Emitted := by
  have view : '@' ∉ referenceViewName model.typeName settings :=
    (spelled.generatedType accepted .destructureRef).1
  exact {
    name := show '@' ∉ ("as_destruct" : Text) by decide
    parameters := List.forall_mem_singleton.2 (level_untyped (by decide))
    result := (spelled.generatedType accepted .destructureRef).2
    documentation := by
      rintro _ ⟨⟩
      simp [documented, view]
    body := ⟨⟨view, show '@' ∉ _ by decide, trivial⟩, trivial⟩
    decorators := nofun }

/-! ## All artifacts -/

include accepted spelled steady in
theorem steady_of_mem_synthesize {artifact : Artifact}
    (member : artifact ∈ synthesize model settings) :
    artifact.definition.Steady Expression.Emitted := by
  rcases List.mem_flatMap.1 member with ⟨capability, -, generated⟩
  have operation : ∀ {call : Text}, '@' ∉ call → '@' ∉ model.typeName ++ call := fun plain => by
    simp [spelled.signless_typeName, plain]
  cases capability with
  | destructure =>
    simp only [capabilityArtifacts, conversionArtifacts, List.mem_cons, List.not_mem_nil,
      or_false] at generated
    rcases generated with rfl | rfl | rfl
    · exact steady_companionArtifact accepted spelled steady
    · exact steady_intoArtifact accepted spelled
    · exact steady_fromArtifact accepted spelled
  | mutation =>
    simp only [capabilityArtifacts, List.mem_cons, List.not_mem_nil, or_false] at generated
    rcases generated with rfl | rfl | rfl
    · exact steady_viewClass spelled steady (spelled.generatedType accepted .mutation).1
        (operation (by decide))
    · exact steady_reconstructArtifact accepted spelled
    · exact steady_substituteArtifact accepted spelled
  | destructureRef =>
    simp only [capabilityArtifacts, referenceArtifacts, List.mem_cons, List.not_mem_nil,
      or_false] at generated
    rcases generated with rfl | rfl
    · exact steady_viewClass spelled steady (spelled.generatedType accepted .destructureRef).1
        (operation (by decide))
    · exact steady_asArtifact accepted spelled

end Artifacts

end OpenRecord
