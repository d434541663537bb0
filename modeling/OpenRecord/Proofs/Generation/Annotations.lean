import OpenRecord.Proofs.Code.QuotedTypes
import OpenRecord.Proofs.Generation.WellFormed
import OpenRecord.Proofs.Record.ClassBodies
import OpenRecord.Proofs.Source.DeclaredTypes

namespace OpenRecord

/-!
# Types of parameters and results

Types in generated methods are written as string literals, so that nothing is evaluated when a
method is defined.  Whether a type expression is such a literal already is decided by its first
character alone.  So a type that starts with a literal and goes on with something else is left as it
is, and a literal with letters in front of its mark is quoted once more.  These are the only two
ways to go wrong, and names applied to generic parameters are quoted properly whatever the
parameters are.

The fields of the companion are not the subject here; their types are written as they were declared.
-/

open Code Source

/-! ## Quoting -/

/-- A type is quoted properly: what is written are string literals; it is the type itself if that is
made of string literals, and otherwise its value is the type. -/
def QuotesAsString (nameOf : Text → Option Char) (type : Text) : Prop :=
  LiteralRun (quote type) ∧ (LiteralRun type → quote type = type) ∧
    (¬LiteralRun type → literalValue? nameOf (quote type) = some type)

theorem literalRun_quoted (text : Text) : LiteralRun (Text.quoted text) := by
  have scanned := @lexeme_quoted [] [] text [] (by decide)
  rw [List.append_nil] at scanned
  have marks := isMark_chooseMark text
  refine .last scanned ?_
  -- no letter stands in front of the mark
  have bare : (Text.quoted text).takeWhile (!isMark ·) = [] :=
    List.takeWhile_cons_of_neg (by simp [marks])
  rw [Token.isString, bare]
  rfl

theorem quoted_ne (text : Text) (bare : ¬StartsMarked text) : Text.quoted text ≠ text := by
  intro same
  rw [← same] at bare
  exact bare (isMark_chooseMark text)

/-- What is written for a type is made of string literals if the type is, and whenever it does not
start with a mark. -/
theorem literalRun_quote_iff {type : Text} :
    LiteralRun (quote type) ↔ (StartsMarked type → LiteralRun type) := by
  by_cases marked : StartsMarked type
  · rw [quote_of_startsMarked marked]
    exact ⟨fun run _ => run, fun run => run marked⟩
  · rw [quote_eq_quoted marked]
    exact iff_of_true (literalRun_quoted type) fun first => absurd first marked

/-- A type is quoted properly exactly if it starts with a mark in the one case that it is made of
string literals. -/
theorem quotesAsString_iff {nameOf : Text → Option Char} {type : Text} :
    QuotesAsString nameOf type ↔ (StartsMarked type ↔ LiteralRun type) := by
  by_cases marked : StartsMarked type
  · rw [QuotesAsString, quote_of_startsMarked marked, iff_true_left marked]
    exact ⟨fun quotes => quotes.1, fun run => ⟨run, fun _ => rfl, fun none => absurd run none⟩⟩
  · rw [QuotesAsString, quote_eq_quoted marked, iff_false_left marked]
    constructor
    · exact fun quotes run => quoted_ne type marked (quotes.2.1 run)
    · exact fun none => ⟨literalRun_quoted type, fun run => absurd run none,
        fun _ => literalValue?_quoted nameOf type⟩

/-! ## Applied names -/

/-- A text that begins with a word, and goes on with neither a word nor a mark, is quoted
properly. -/
theorem quotesAsString_word {nameOf : Text → Option Char} {word rest : Text} (nonempty : word ≠ [])
    (chars : ∀ x ∈ word, isWordChar x = true)
    (stops : ∀ c ∈ rest.head?, isWordChar c = false ∧ isMark c = false) :
    QuotesAsString nameOf (word ++ rest) := by
  rw [quotesAsString_iff]
  refine iff_of_false ?_ fun run => ?_
  · rcases List.exists_cons_of_ne_nil nonempty with ⟨first, later, rfl⟩
    intro marked
    have outside := isWordChar_of_isMark (show isMark first = true from marked)
    rw [chars first (List.mem_cons_self ..)] at outside
    cases outside
  · rcases run.exists_string with ⟨token, behind, scanned, string⟩
    refine kind_of_lexeme_word nonempty chars (fun c first => ⟨(stops c first).1, ?_⟩) scanned
      (Token.kind_of_isString string)
    rw [(stops c first).2]
    nofun

/-- A name applied to the generic parameters of a model is quoted properly. -/
theorem quotesAsString_applyGenerics (nameOf : Text → Option Char) (model : RecordModel)
    {name : Text} (nonempty : name ≠ []) (chars : ∀ x ∈ name, Text.isNameContinue x = true) :
    QuotesAsString nameOf (model.applyGenerics name) := by
  have words : ∀ x ∈ name, isWordChar x = true :=
    fun x member => isWordChar_of_isNameContinue (chars x member)
  unfold RecordModel.applyGenerics
  split
  · have alone : QuotesAsString nameOf (name ++ []) := quotesAsString_word nonempty words nofun
    rwa [List.append_nil] at alone
  · rw [List.append_assoc]
    refine quotesAsString_word nonempty words ?_
    rintro _ ⟨⟩
    exact ⟨by decide, by decide⟩

def callbackTypeOf (argument : Text) : Text :=
  "typing.Callable[[" ++ argument ++ "], object]"

theorem quotesAsString_callbackTypeOf (nameOf : Text → Option Char) (argument : Text) :
    QuotesAsString nameOf (callbackTypeOf argument) := by
  have shape : callbackTypeOf argument =
      ("typing" : Text) ++ (".Callable[[" ++ argument ++ "], object]" : Text) := rfl
  rw [shape]
  refine quotesAsString_word (by decide) (List.all_eq_true.1 (by decide)) ?_
  rintro _ ⟨⟩
  exact ⟨by decide, by decide⟩

/-! ## Types of methods -/

/-- The types of the parameters and the result of a method, as they are written. -/
def Code.Method.annotations (method : Method) : List Text :=
  method.parameters.filterMap (·.type) ++ [method.result]

/-- The same of a part of a class. -/
def Code.Member.annotations : Member → List Text
  | .method code => code.annotations
  | _ => []

def Code.Definition.annotations : Definition → List Text
  | .type code => code.members.flatMap (·.annotations)
  | .method code => code.annotations

/-- A written type of which nothing is evaluated but string literals and the constant for no
value. -/
def Constant (written : Text) : Prop :=
  written = "None" ∨ LiteralRun written

theorem constant_quote_iff {type : Text} :
    Constant (quote type) ↔ (StartsMarked type → LiteralRun type) := by
  rw [Constant, ← literalRun_quote_iff, or_iff_right]
  by_cases marked : StartsMarked type
  · rw [quote_of_startsMarked marked]
    rintro rfl
    cases marked
  · rw [quote_eq_quoted marked]
    intro same
    have first : StartsMarked (Text.quoted type) := isMark_chooseMark type
    rw [same] at first
    cases first

theorem QuotesAsString.constant {nameOf : Text → Option Char} {type : Text}
    (quotes : QuotesAsString nameOf type) : Constant (quote type) :=
  .inr quotes.1

section Artifacts

variable {model : RecordModel} {settings : Settings}

theorem annotations_viewClass (name scope : Text) (writable : Bool) :
    (Definition.type (viewClass model name writable scope)).annotations =
      quote (model.applyGenerics model.typeName) :: ("None" : Text) ::
        model.exposedFields.flatMap fun field =>
          quote field.declaredType ::
            if writable then [quote field.declaredType, ("None" : Text)] else [] := by
  simp only [Definition.annotations, viewClass, List.flatMap_cons, List.flatMap_assoc]
  cases writable <;> rfl

theorem constant_viewClass_iff {name scope : Text} {writable : Bool}
    (own : Constant (quote (model.applyGenerics model.typeName))) :
    (∀ written ∈ (Definition.type (viewClass model name writable scope)).annotations,
        Constant written) ↔
      ∀ field ∈ model.exposedFields, Constant (quote field.declaredType) := by
  rw [annotations_viewClass]
  constructor
  · intro all field member
    refine all _ (List.mem_cons_of_mem _ (List.mem_cons_of_mem _ ?_))
    exact List.mem_flatMap.2 ⟨field, member, List.mem_cons_self ..⟩
  · intro all
    rw [List.forall_mem_cons, List.forall_mem_cons, List.forall_mem_flatMap]
    refine ⟨own, .inl rfl, fun field member => List.forall_mem_cons.2 ⟨all field member, ?_⟩⟩
    cases writable with
    | false => nofun
    | true =>
      exact List.forall_mem_cons.2 ⟨all field member, List.forall_mem_singleton.2 (.inl rfl)⟩

/-- No types of parameters or results are in a companion. -/
theorem annotations_companionArtifact :
    (companionArtifact model settings).definition.annotations = [] := by
  unfold companionArtifact
  dsimp only [Definition.annotations]
  rw [List.flatMap_map, List.flatMap_eq_nil_iff]
  exact fun field _ => rfl

variable (own : Constant (quote (model.applyGenerics model.typeName)))
  (generated : ∀ capability : Capability,
    Constant (quote (model.applyGenerics (capability.typeName settings model.typeName))))

include own generated

/-- The types that the artifacts of a capability are written with are constant, but for those of the
fields in a view. -/
theorem constant_capabilityArtifacts_iff (capability : Capability) :
    (∀ artifact ∈ capabilityArtifacts model settings capability,
        ∀ written ∈ artifact.definition.annotations, Constant written) ↔
      (capability ≠ .destructure →
        ∀ field ∈ model.exposedFields, Constant (quote field.declaredType)) := by
  have callback : ∀ argument, Constant (callbackType argument) :=
    fun argument => (quotesAsString_callbackTypeOf (fun _ => none) argument).constant
  cases capability with
  | destructure =>
    refine iff_of_true ?_ (absurd rfl)
    refine List.forall_mem_cons.2 ⟨?_, List.forall_mem_cons.2 ⟨?_, List.forall_mem_singleton.2 ?_⟩⟩
    · rw [annotations_companionArtifact]
      nofun
    · exact List.forall_mem_singleton.2 (generated .destructure)
    · exact List.forall_mem_cons.2 ⟨generated .destructure, List.forall_mem_singleton.2 own⟩
  | mutation =>
    rw [forall_prop_of_true (by decide), ← constant_viewClass_iff own]
    refine List.forall_mem_cons.trans (and_iff_left ?_)
    refine List.forall_mem_cons.2 ⟨?_, List.forall_mem_singleton.2 ?_⟩
    · exact List.forall_mem_cons.2 ⟨callback _, List.forall_mem_singleton.2 own⟩
    · exact List.forall_mem_cons.2 ⟨callback _, List.forall_mem_singleton.2 (.inl rfl)⟩
  | destructureRef =>
    rw [forall_prop_of_true (by decide), ← constant_viewClass_iff own]
    refine List.forall_mem_cons.trans (and_iff_left ?_)
    exact List.forall_mem_singleton.2 (List.forall_mem_singleton.2 (generated .destructureRef))

/-- All types that the artifacts of a model are written with are constant exactly if no view is
requested or the types of the exposed fields are written so. -/
theorem constant_synthesize_iff :
    (∀ artifact ∈ synthesize model settings, ∀ written ∈ artifact.definition.annotations,
        Constant written) ↔
      (model.hasView = true →
        ∀ field ∈ model.exposedFields, Constant (quote field.declaredType)) := by
  unfold synthesize
  rw [List.forall_mem_flatMap]
  simp only [constant_capabilityArtifacts_iff own generated]
  constructor
  · intro all viewed
    rw [RecordModel.hasView, Bool.or_eq_true] at viewed
    rcases viewed with asks | asks
    · exact all .mutation (mem_requested.2 asks) (by decide)
    · exact all .destructureRef (mem_requested.2 asks) (by decide)
  · intro all capability requested other
    have asks := mem_requested.1 requested
    cases capability with
    | destructure => exact absurd rfl other
    | mutation => exact all (by rw [RecordModel.hasView, asks]; rfl)
    | destructureRef => exact all (by rw [RecordModel.hasView, asks, Bool.or_true])

end Artifacts

/-! ## Classes of a file -/

/-- The small statements that stand directly in a lawful class body are lawful. -/
theorem form_showsStrings {body : Suite} (lawful : body.Obeys stringLaw) {item : Item}
    (member : .small item ∈ body.direct) : item.form.ShowsStrings := by
  cases body with
  | inline items ending =>
    rcases List.mem_map.1 member with ⟨_, among, ⟨⟩⟩
    exact lawful _ among
  | block opening indent statements foot =>
    rcases List.mem_flatMap.1 member with ⟨statement, among, direct⟩
    have obeys := statementsObey_iff.1 lawful statement among
    cases statement with
    | simple above items ending =>
      rcases List.mem_map.1 direct with ⟨_, among, ⟨⟩⟩
      exact obeys _ among
    | definition head inner => cases List.mem_singleton.1 direct
    | compound clauses => cases List.mem_singleton.1 direct
  | cases opening indent clauses foot => cases member

theorem showStrings_of_mem_fieldDeclarations {body : Suite} (lawful : body.Obeys stringLaw) :
    ∀ declaration ∈ body.fieldDeclarations, ShowStrings declaration.typeTokens := by
  intro declaration member
  rcases List.mem_filterMap.1 (List.mem_filter.1 member).1 with ⟨statement, among, declares⟩
  cases statement with
  | small item =>
    have shows := form_showsStrings lawful among
    unfold DirectStatement.declaration? Item.declaration? at declares
    dsimp only at declares
    split at declares
    case h_1 form =>
      cases declares
      rw [form] at shows
      exact shows
    · cases declares
  | definition head => cases declares
  | compound clauses => cases declares

theorem readsBody_of_extract {head : Source.Definition} {body : Suite} {location : Option Location}
    {model : RecordModel} (extracted : extract (.definition head body) location = .ok model) :
    model.ReadsBody body := by
  unfold extract at extracted
  dsimp only at extracted
  split at extracted
  case h_1 shape role =>
    rcases extractClass_reads head shape body location with
      ⟨-, cause, -, refused⟩ | ⟨-, other, same, reads⟩
    · cases refused.symm.trans extracted
    · cases same.symm.trans extracted
      exact reads
  · cases extracted

theorem RecordModel.ReadsBody.forall_exposedFields {model : RecordModel} {body : Suite}
    (reads : model.ReadsBody body) (holds : Text → Prop) :
    (∀ field ∈ model.exposedFields, holds field.declaredType) ↔
      ∀ declaration ∈ body.fieldDeclarations, isSkipped declaration.type = false →
        holds (render declaration.typeTokens) := by
  unfold RecordModel.exposedFields
  rw [reads.fields]
  constructor
  · intro all declaration member exposed
    rcases List.getElem_of_mem member with ⟨place, inside, same⟩
    refine all (declaration.field place) (List.mem_filter.2 ⟨?_, ?_⟩)
    · exact List.mem_mapIdx.2 ⟨place, inside, by rw [same]⟩
    · rw [Bool.not_eq_true']
      exact exposed
  · intro all field member
    rcases List.mem_filter.1 member with ⟨among, exposed⟩
    rcases List.mem_mapIdx.1 among with ⟨place, inside, rfl⟩
    rw [Bool.not_eq_true'] at exposed
    exact all _ (List.getElem_mem inside) exposed

/-- Types in generated methods are string literals exactly as far as the first character of a
declared type tells what it is.  For every class of a file that is accepted: whether a declared type
is made of string literals can be told from its tokens, and it is quoted properly exactly if it
starts with a mark in the one case that all its tokens are strings.  The names of the class and of
the generated types with the generic parameters, and the types of callbacks with these, are quoted
properly.  And no generated method has a type that is evaluated when the method is defined, exactly
if no view is requested or every type of an exposed field that starts with a mark consists of
strings. -/
theorem annotations_constant_iff (nameOf : Text → Option Char) {values : SettingValues}
    {settings : Settings} {text : Text} {file : SourceFile} {filename : Option Text}
    {list : StatementList} {head : Source.Definition} {body : Suite} {location : Option Location}
    {model : RecordModel} (checked : Settings.check values = .ok settings)
    (parsed : SourceFile.parse? text = some file) (among : list ∈ file.lists settings filename)
    (member : .definition head body ∈ list.body)
    (extracted : extract (.definition head body) location = .ok model) :
    (∀ declaration ∈ body.fieldDeclarations,
      let type := render declaration.typeTokens
      let strings := ∀ token ∈ declaration.typeTokens, token.isString = true
      (LiteralRun type ↔ strings) ∧
        (QuotesAsString nameOf type ↔ (StartsMarked type ↔ strings))) ∧
    (∀ name ∈ model.typeName :: Capability.all.map (·.typeName settings model.typeName),
      QuotesAsString nameOf (model.applyGenerics name) ∧
        QuotesAsString nameOf (callbackTypeOf (model.applyGenerics name))) ∧
    ((∀ artifact ∈ synthesize model settings, ∀ written ∈ artifact.definition.annotations,
        Constant written) ↔
      (model.hasView = true → ∀ declaration ∈ body.fieldDeclarations,
        isSkipped declaration.type = false → StartsMarked (render declaration.typeTokens) →
          ∀ token ∈ declaration.typeTokens, token.isString = true)) := by
  have lawful := statementsObey_iff.1
    ((SourceFile.within_of_mem among).obeys stringLaw (showStrings_of_parse? parsed)) _ member
  have shows := showStrings_of_mem_fieldDeclarations lawful.2.2
  have reads := readsBody_of_extract extracted
  have accepted := Settings.accepted_of_check checked
  have chars := Text.chars_of_isIdentifier (isName_of_extract parsed among member extracted).1.1
  have own := quotesAsString_applyGenerics nameOf model chars.1 chars.2
  have generated : ∀ capability : Capability,
      QuotesAsString nameOf (model.applyGenerics (capability.typeName settings model.typeName)) :=
    fun capability => quotesAsString_applyGenerics nameOf model (capability.typeName_ne_nil chars.1)
      (capability.typeName_chars accepted chars.2)
  refine ⟨fun declaration inside => ?_, fun name inside => ?_, ?_⟩
  · have run : LiteralRun _ ↔ _ := shows declaration inside
    refine ⟨run, ?_⟩
    rw [quotesAsString_iff, run]
  · refine ⟨?_, quotesAsString_callbackTypeOf nameOf _⟩
    rcases List.mem_cons.1 inside with rfl | inside
    · exact own
    · rcases List.mem_map.1 inside with ⟨capability, -, rfl⟩
      exact generated capability
  · rw [constant_synthesize_iff own.constant fun capability => (generated capability).constant,
      reads.forall_exposedFields fun type => Constant (quote type)]
    refine imp_congr_right fun _ => forall₂_congr fun declaration inside => ?_
    have run : LiteralRun _ ↔ _ := shows declaration inside
    rw [constant_quote_iff, run]

/-- A class with a field whose type starts with a literal and goes on with an operator. -/
def unionClass : Text :=
  "@destructure_ref\nclass P: x: \"A\" | B\n"

/-- Whether a declaration of an exposed field has a type that starts with a mark without being made
of strings. -/
def Declaration.isMixed (declaration : Declaration) : Bool :=
  !isSkipped declaration.type && decide (StartsMarked (render declaration.typeTokens)) &&
    !declaration.typeTokens.all (·.isString)

/-- Whether a statement is a class that asks for a view and has such a declaration. -/
def Source.Statement.isMixed : Statement → Bool
  | .definition head body =>
    (extract (.definition head body) none).toOption.any (·.hasView) &&
      body.fieldDeclarations.any (·.isMixed)
  | _ => false

/-- The type of that field is not quoted, and a method of the view has a type that is evaluated. -/
theorem unionClass_annotations : ∃ settings file head body model,
    Settings.check .empty = .ok settings ∧ SourceFile.parse? unionClass = some file ∧
      file.body = [.definition head body] ∧ extract (.definition head body) none = .ok model ∧
      (∃ declaration ∈ body.fieldDeclarations,
        ¬QuotesAsString (fun _ => none) (render declaration.typeTokens)) ∧
      ∃ artifact ∈ synthesize model settings, ∃ written ∈ artifact.definition.annotations,
        ¬Constant written := by
  have checked : Settings.check .empty = .ok ⟨"Destruct", "Ref", "View", true⟩ := by decide +kernel
  have readable : ((SourceFile.parse? unionClass).any fun file =>
      file.body.length == 1 && file.body.all (·.isMixed)) = true := by decide +kernel
  cases parsed : SourceFile.parse? unionClass with
  | none =>
    rw [parsed] at readable
    cases readable
  | some file =>
    rw [parsed, Option.any_some, Bool.and_eq_true, beq_iff_eq, List.length_eq_one_iff] at readable
    rcases readable with ⟨⟨statement, alone⟩, fitting⟩
    rw [alone, List.all_cons, Bool.and_eq_true] at fitting
    have own := fitting.1
    cases statement with
    | simple => cases own
    | compound => cases own
    | definition head body =>
      rw [Statement.isMixed, Bool.and_eq_true] at own
      cases extracted : extract (.definition head body) none with
      | error diagnostic =>
        rw [extracted] at own
        cases own.1
      | ok model =>
        rw [extracted] at own
        have viewed : model.hasView = true := own.1
        rcases List.any_eq_true.1 own.2 with ⟨declaration, inside, mixed⟩
        rw [Declaration.isMixed, Bool.and_eq_true, Bool.and_eq_true, Bool.not_eq_true',
          decide_eq_true_eq, Bool.not_eq_true', List.all_eq_false] at mixed
        rcases mixed with ⟨⟨exposed, marked⟩, token, among, other⟩
        have member : .definition head body ∈ file.body := by
          rw [alone]
          exact List.mem_singleton_self _
        have top : ⟨topOfFile ⟨"Destruct", "Ref", "View", true⟩ none file, file.body⟩ ∈
            file.lists ⟨"Destruct", "Ref", "View", true⟩ none := List.mem_cons_self ..
        have known := annotations_constant_iff (fun _ => none) checked parsed top member extracted
        have unquoted : ¬QuotesAsString (fun _ => none) (render declaration.typeTokens) :=
          fun quotes => other (((known.1 declaration inside).2.1 quotes).1 marked token among)
        refine ⟨_, file, head, body, model, checked, rfl, alone, extracted,
          ⟨declaration, inside, unquoted⟩, ?_⟩
        by_contra constant
        simp only [not_exists, not_and, not_not] at constant
        exact other (known.2.2.1 constant viewed declaration inside exposed marked token among)

end OpenRecord
