import OpenRecord.Proofs.Code.QuotedTypes
import OpenRecord.Proofs.Code.ReadableCommands

namespace OpenRecord
namespace Code

/-!
# Definitions that can be read

Methods and classes are emitted as rows and blocks if their names are names of the language, their types
are phrases and their documentation needs no escapes.  So the code of such a definition is read as one
statement.  A type is a phrase if it is scanned, wherever an expression may stand, as tokens of which one
expression is read.  Types that are quoted always are.
-/

open Source

/-! ## Types -/

/-- A type expression that is read as an expression wherever one may stand. -/
def Phrase (type : Text) : Prop :=
  ∀ nest, PlainNest nest →
    ScansAs nest nest EndsPhrase type fun tokens => ∃ value, IsExpression value tokens

theorem phrase_quoted (type : Text) : Phrase (Text.quoted type) := by
  intro nest _
  have marks := isMark_chooseMark type
  have scans := scansAs_quoted marks (guarded_flatMap_escape marks type) nest
  refine (scans.mono fun tokens shows => ?_).narrow fun c ends => ends.1.2
  rcases Shows.exists_singleton shows with ⟨gap, rfl⟩
  exact ⟨_, (IsPrimary.literal gap _).isExpression⟩

/-- A type that starts with a mark is left as it is, and every other one is quoted. -/
theorem phrase_quote {type : Text} (phrase : StartsMarked type → Phrase type) :
    Phrase (quote type) := by
  by_cases marked : StartsMarked type
  · rw [quote_of_startsMarked marked]
    exact phrase marked
  · rw [quote_eq_quoted marked]
    exact phrase_quoted type

/-! ## Methods -/

def Parameter.Readable (parameter : Parameter) : Prop :=
  parameter.name.IsName ∧ ∀ type, parameter.type = some type → Phrase type

theorem symbol_colon : symbol [':'] = some (.colon, [':'], []) := by decide

theorem Parameter.Readable.scansAs {parameter : Parameter} (readable : parameter.Readable)
    {nest : List Nest} (plain : PlainNest nest) :
    ScansAs nest nest EndsPhrase parameter.text IsParameter ∧ Begins EndsSymbol parameter.text := by
  rcases parameter with ⟨name, type⟩
  rcases readable with ⟨named, typed⟩
  have called := scansAs_name named nest
  cases type with
  | none =>
    refine ⟨(called.mono fun tokens shows => ?_).narrow fun c ends => ends.1, begins_of_isName named⟩
    rcases Shows.exists_singleton shows with ⟨gap, rfl⟩
    exact .plain rfl
  | some type =>
    have colon : ScansAs nest nest EndsSymbol [':'] (Shows [(.symbol .colon, [':'])]) :=
      scansAs_symbol plain symbol_colon rfl
    have declared := colon.append (typed type rfl nest plain)
      (separates_space plain) (begins_cons (by decide) _)
    have whole := called.append declared (separates_nothing plain)
      (begins_cons (by decide) _)
    have shape : (Parameter.mk name (some type)).text = name ++ ([] ++ ([':'] ++ ([' '] ++ type))) := by
      simp [Parameter.text]
    rw [shape]
    refine ⟨whole.mono ?_, (begins_of_isName named).append _⟩
    rintro _ ⟨_, _, rfl, first, _, tokens, rfl, second, value, read⟩
    rcases Shows.exists_singleton first with ⟨gap, rfl⟩
    rcases Shows.exists_singleton second with ⟨colonGap, rfl⟩
    exact .typed rfl rfl read

/-- A method whose header and commands can be read. -/
structure Method.Readable (method : Method) : Prop where
  name : method.name.IsName
  parameters : ∀ parameter ∈ method.parameters, parameter.Readable
  result : Phrase method.result
  documentation : ∀ text, method.documentation = some text → Unmarked text
  body : CommandsReadable method.body
  solid : method.body ≠ []

theorem isRow_function {method : Method} (readable : method.Readable) (place : Nat → Text → Text) :
    IsRow place ("def " ++ method.name ++ inParentheses (method.parameters.map (·.text)) ++ " -> " ++
      method.result ++ ":") [] fun tokens => ∃ head, Heads head .definition ∧ IsHeader head tokens := by
  have space := separates_space .outside
  have joint := separates_nothing .outside
  have word := scansAs_keyword "def" .defWord (by decide) []
  have arrow : ScansAs [] [] EndsSymbol ['-', '>'] (Shows [(.symbol .arrow, ['-', '>'])]) :=
    scansAs_symbol .outside (by decide) rfl
  have list := scansAs_enclosed .outside (inside_join (.bracket .closeRound []) ParameterList
    .none (fun _ parameter => .last parameter)
    (fun _ _ _ parameter separates later => .more parameter separates later)
    (List.forall_mem_map.2 fun parameter member =>
      (readable.parameters parameter member).scansAs (.bracket .closeRound [])))
  have result := (readable.result [] .outside).append scansAs_colon joint (begins_cons (by decide) _)
  have typed := arrow.append result space (begins_cons (by decide) _)
  have behind := list.append typed space (begins_cons (by decide) _)
  have named := (scansAs_name readable.name []).append behind joint (begins_cons (by decide) _)
  have whole := word.append named space (begins_cons (by decide) _)
  have row := isRow_header place .definition whole ?_
  · simpa [inParentheses] using row
  · rintro _ ⟨_, _, rfl, first, _, _, rfl, second, _, _, rfl, ⟨openGap, closeGap, parameters, known, rfl⟩,
      _, _, rfl, third, tokens, _, rfl, ⟨value, read⟩, last⟩
    rcases Shows.exists_singleton first with ⟨gap, rfl⟩
    rcases Shows.exists_singleton second with ⟨nameGap, rfl⟩
    rcases Shows.exists_singleton third with ⟨arrowGap, rfl⟩
    rcases Shows.exists_singleton last with ⟨colonGap, rfl⟩
    rcases exists_isHeader_function method.name known read gap nameGap openGap closeGap arrowGap
      colonGap "def" ['('] [')'] ['-', '>'] [':'] with ⟨role, -, header⟩
    exact ⟨_, .definition role, by simpa using header⟩

/-- An at sign in front of a name with attributes. -/
theorem isRow_decorator {term : Term} (dotted : term.Dotted) (place : Nat → Text → Text) :
    IsRow place ('@' :: term.line) [] fun tokens =>
      ∃ value, IsHeader (.decorator value) tokens := by
  have sign : ScansAs [] [] EndsSymbol ['@'] (Shows [(.symbol .at, ['@'])]) :=
    scansAs_symbol .outside (by decide) rfl
  have whole := sign.append (dotted.scansAs .outside) (separates_nothing .outside) dotted.begins
  refine isRow_line place (whole.mono ?_) (by decide)
  rintro _ ⟨_, _, rfl, first, reads⟩
  rcases Shows.exists_singleton first with ⟨gap, rfl⟩
  exact ⟨_, isHeader_decorator rfl reads.primary⟩

/-- The shapes of a definition, which has a decorator or none. -/
def IsDefinition (shapes : List PartShape) : Prop :=
  shapes ∈ [[.definition], [.decorator, .definition]]

theorem IsDefinition.grouped {shapes : List PartShape} (defines : IsDefinition shapes) :
    Grouped shapes := by
  simp only [IsDefinition, List.mem_cons, List.not_mem_nil, or_false] at defines
  rcases defines with rfl | rfl
  · exact .definition .none
  · exact .decorated .none

/-- The lines of a method are those of one definition. -/
theorem Method.Readable.exists_codeLines {method : Method} (readable : method.Readable)
    {level : Nat → Text} {place : Nat → Text → Text} (placing : Placing level place) :
    ∃ shapes, CodeLines place method.lines shapes ∧ IsDefinition shapes := by
  have commands := isBody_commandLines placing readable.body readable.solid
  have inner : ∃ inner, IsBody place inner ∧ method.lines = method.decoratorLines ++
      ("def " ++ method.name ++ inParentheses (method.parameters.map (·.text)) ++ " -> " ++
        method.result ++ ":") :: indent inner 1 := by
    unfold Method.lines
    cases documented : method.documentation with
    | none => exact ⟨_, commands, by simp⟩
    | some text =>
      have own := isBody_docstring placing (readable.documentation text documented)
      refine ⟨_, own.append commands.isCode, ?_⟩
      dsimp only
      rw [docstring_eq_indent]
      simp [indent]
  rcases inner with ⟨inner, body, same⟩
  have code := codeLines_block (isRow_function readable place) body .none
  rw [List.append_nil] at code
  have decorated : ∀ {term : Term}, term.Dotted →
      CodeLines place (['@' :: term.line] ++ (("def " ++ method.name ++
        inParentheses (method.parameters.map (·.text)) ++ " -> " ++ method.result ++ ":") ::
          indent inner 1)) [.decorator, .definition] :=
    fun dotted => .decorator (isRow_decorator dotted place) code
  rw [same]
  unfold Method.decoratorLines
  split
  · exact ⟨_, code, by simp [IsDefinition]⟩
  · have ofClass : (Term.name "classmethod").Dotted := show Text.IsName _ by decide +kernel
    exact ⟨_, decorated ofClass, by simp [IsDefinition]⟩
  · have getter : (Term.name "property").Dotted := show Text.IsName _ by decide +kernel
    exact ⟨_, decorated getter, by simp [IsDefinition]⟩
  · have setter : (Term.attribute (.name method.name) "setter").Dotted :=
      ⟨readable.name, by decide +kernel⟩
    exact ⟨_, by simpa [Term.line] using decorated setter, by simp [IsDefinition]⟩

/-! ## Classes -/

/-- A part of a class that can be read; only one attribute is ever listed. -/
def Member.Readable : Member → Prop
  | .slots names => ∃ name, names = [name] ∧ Unescaped name
  | .field name type _ => name.IsName ∧ Phrase type
  | .method code => code.Readable

theorem isBody_slots {name : Text} (unescaped : Unescaped name) (place : Nat → Text → Text) :
    IsBody place (Member.slots [name]).lines := by
  have space := separates_space .outside
  have within : PlainNest [.bracket .closeRound] := .bracket _ _
  have slots : Text.IsName "__slots__" := by decide +kernel
  have target := scansAs_name slots []
  have equal := scansAs_equal .outside
  have listed := (scansAs_string unescaped [.bracket .closeRound]).append (scansAs_comma within)
    (separates_nothing within) (begins_cons (by decide) _)
  have tuple := scansAs_enclosed .outside (.inr ⟨listed.narrow fun c ends => ends.2,
    begins_cons (by decide) _⟩)
  have assigned := equal.append tuple space (begins_cons (by decide) _)
  have whole := target.append assigned space (begins_cons (by decide) _)
  have body := isBody_of_scans place whole (by decide) ?_
  · simpa [Member.lines] using body
  · rintro _ ⟨_, _, rfl, first, _, _, rfl, second, openGap, closeGap, _, ⟨_, _, rfl, third, fourth⟩, rfl⟩
    rcases Shows.exists_singleton first with ⟨gap, rfl⟩
    rcases Shows.exists_singleton second with ⟨equalGap, rfl⟩
    rcases Shows.exists_singleton third with ⟨literalGap, rfl⟩
    rcases Shows.exists_singleton fourth with ⟨commaGap, rfl⟩
    have value := (IsPrimary.literal literalGap (Term.string name).line).alone openGap commaGap closeGap
      ['('] [','] [')']
    exact ⟨_, isItem_assignment (IsPrimary.name gap "__slots__") rfl rfl value (by rintro _ ⟨⟩ _ _ _ ⟨⟩)⟩

/-- A value with a name in front of it, in a list of arguments. -/
def NamedValue (tokens : List Token) : Prop :=
  ∃ name equal value inner, tokens = name :: equal :: inner ∧ name.kind = .name ∧
    equal.kind = .symbol .equal ∧ IsPrimary value inner

theorem scansAs_flag {name : Text} (named : name.IsName) {nest : List Nest} (plain : PlainNest nest) :
    ScansAs nest nest EndsPhrase (name ++ "=False") NamedValue ∧
      Begins EndsSymbol (name ++ "=False") := by
  have joint := separates_nothing plain
  have equal := scansAs_equal plain
  have flag := (show (Term.boolean false).Readable from trivial).scansAs plain
  have assigned := equal.append flag joint (begins_cons (by decide) _)
  have whole := (scansAs_name named nest).append assigned joint (begins_cons (by decide) _)
  refine ⟨whole.mono ?_, (begins_of_isName named).append _⟩
  rintro _ ⟨_, _, rfl, first, _, _, rfl, second, reads⟩
  rcases Shows.exists_singleton first with ⟨gap, rfl⟩
  rcases Shows.exists_singleton second with ⟨equalGap, rfl⟩
  rcases reads.primary with ⟨value, primary⟩
  exact ⟨_, _, value, _, rfl, rfl, rfl, primary⟩

/-- What is written behind the type of a hidden field. -/
theorem scansAs_hidden : ScansAs [] [] EndsPhrase
    "dataclasses.field(init=False, repr=False, compare=False)"
    fun tokens => ∃ value, IsPrimary value tokens := by
  have dotted : (Term.attribute (.name "dataclasses") "field").Dotted :=
    ⟨show Text.IsName _ by decide +kernel, by decide +kernel⟩
  have flags : ∀ text ∈ (["init", "repr", "compare"] : List Text).map (· ++ ("=False" : Text)),
      ScansAs [.bracket .closeRound] [.bracket .closeRound] EndsPhrase text NamedValue ∧
        Begins EndsSymbol text :=
    List.forall_mem_map.2 fun name member => scansAs_flag
      ((show ∀ name ∈ (["init", "repr", "compare"] : List Text), name.IsName by decide +kernel)
        name member) (.bracket _ _)
  have list := scansAs_enclosed .outside (inside_join (.bracket .closeRound [])
    (fun tokens => ∀ phase, phase ≠ .mapping → ArgumentList phase tokens)
    (fun phase _ => .none phase) ?_ ?_ flags)
  · have whole := (dotted.scansAs .outside).append list (separates_nothing .outside)
      (begins_cons (by decide) _)
    refine (whole.mono ?_).narrow fun c ends => ends.2
    rintro _ ⟨_, _, rfl, reads, openGap, closeGap, inner, known, rfl⟩
    exact ⟨_, reads.primary.withCall (known .positional nofun) openGap closeGap ['('] [')']⟩
  · rintro _ ⟨name, equal, value, inner, rfl, called, assigns, primary⟩ phase unmapped
    exact .lastNamed unmapped called assigns primary
  · rintro _ comma later ⟨name, equal, value, inner, rfl, called, assigns, primary⟩ separates known phase
      unmapped
    exact .moreNamed unmapped called assigns primary separates (known .keyword nofun)

theorem isBody_field {name type : Text} (named : name.IsName) (phrase : Phrase type) (hidden : Bool)
    (place : Nat → Text → Text) : IsBody place (Member.field name type hidden).lines := by
  have space := separates_space .outside
  have joint := separates_nothing .outside
  have called := scansAs_name named []
  have typed := phrase [] .outside
  have equal := scansAs_equal .outside
  cases hidden with
  | false =>
    have declared := scansAs_colon.append typed space (begins_cons (by decide) _)
    have whole := called.append declared joint (begins_cons (by decide) _)
    have body := isBody_of_scans place whole (by decide) ?_
    · simpa [Member.lines] using body
    · rintro _ ⟨_, _, rfl, first, _, tokens, rfl, second, value, read⟩
      rcases Shows.exists_singleton first with ⟨gap, rfl⟩
      rcases Shows.exists_singleton second with ⟨colonGap, rfl⟩
      have item : IsItem (.declaration (.name name) value tokens)
          (⟨gap, .name, name⟩ :: ⟨colonGap, .symbol .colon, [':']⟩ :: (tokens ++ [])) :=
        isItem_declaration rfl rfl read (.inl rfl)
      exact ⟨_, by simpa using item⟩
  | true =>
    have valued := equal.append scansAs_hidden space (begins_cons (by decide) _)
    have behind := typed.append valued space (begins_cons (by decide) _)
    have declared := scansAs_colon.append behind space (begins_cons (by decide) _)
    have whole := called.append declared joint (begins_cons (by decide) _)
    have body := isBody_of_scans place whole (by decide) ?_
    · simpa [Member.lines] using body
    · rintro _ ⟨_, _, rfl, first, _, _, rfl, second, tokens, _, rfl, ⟨type, read⟩, _, back, rfl, third,
        value, primary⟩
      rcases Shows.exists_singleton first with ⟨gap, rfl⟩
      rcases Shows.exists_singleton second with ⟨colonGap, rfl⟩
      rcases Shows.exists_singleton third with ⟨equalGap, rfl⟩
      have item : IsItem (.declaration (.name name) type tokens)
          (⟨gap, .name, name⟩ :: ⟨colonGap, .symbol .colon, [':']⟩ ::
            (tokens ++ ⟨equalGap, .symbol .equal, ['=']⟩ :: back)) :=
        isItem_declaration rfl rfl read (.inr ⟨_, value, back, rfl, rfl, primary⟩)
      exact ⟨_, item⟩

/-- What stands between the name of a class and the colon: nothing, or something in brackets. -/
def HeaderPhrase (parameters : Text) : Prop :=
  parameters = [] ∨
    Begins EndsWord parameters ∧ ScansAs [] [] EndsPhrase parameters IsClassTail

/-- A class whose header and parts can be read. -/
structure ClassCode.Readable (code : ClassCode) : Prop where
  name : code.name.IsName
  parameters : HeaderPhrase code.parameters
  documentation : Unmarked code.documentation
  members : ∀ member ∈ code.members, member.Readable

theorem isRow_class {name parameters : Text} (named : name.IsName)
    (phrase : HeaderPhrase parameters) (place : Nat → Text → Text) :
    IsRow place ("class " ++ name ++ parameters ++ ":") [] fun tokens =>
      ∃ head, Heads head .definition ∧ IsHeader head tokens := by
  have space := separates_space .outside
  have joint := separates_nothing .outside
  have word := scansAs_keyword "class" .classWord (by decide) []
  have called := scansAs_name named []
  rcases phrase with rfl | ⟨begins, scans⟩
  · have behind := called.append scansAs_colon joint (begins_cons (by decide) _)
    have whole := word.append behind space (begins_cons (by decide) _)
    have row := isRow_header place .definition whole ?_
    · simpa using row
    · rintro _ ⟨_, _, rfl, first, _, _, rfl, second, third⟩
      rcases Shows.exists_singleton first with ⟨gap, rfl⟩
      rcases Shows.exists_singleton second with ⟨nameGap, rfl⟩
      rcases Shows.exists_singleton third with ⟨colonGap, rfl⟩
      rcases exists_isHeader_class name isClassTail_nil gap nameGap colonGap "class" [':']
        with ⟨role, -, header⟩
      exact ⟨_, .definition role, header⟩
  · have tail := scans.append scansAs_colon joint (begins_cons (by decide) _)
    have behind := called.append tail joint (begins.append _)
    have whole := word.append behind space (begins_cons (by decide) _)
    have row := isRow_header place .definition whole ?_
    · simpa using row
    · rintro _ ⟨_, _, rfl, first, _, _, rfl, second, tokens, _, rfl, known, third⟩
      rcases Shows.exists_singleton first with ⟨gap, rfl⟩
      rcases Shows.exists_singleton second with ⟨nameGap, rfl⟩
      rcases Shows.exists_singleton third with ⟨colonGap, rfl⟩
      rcases exists_isHeader_class name known gap nameGap colonGap "class" [':']
        with ⟨role, -, header⟩
      exact ⟨_, .definition role, header⟩

section Placed

variable {level : Nat → Text} {place : Nat → Text → Text} (placing : Placing level place)

include placing

theorem Member.Readable.isCode {member : Member} (readable : member.Readable) :
    IsCode place member.lines := by
  cases member with
  | slots names =>
    rcases readable with ⟨name, rfl, unescaped⟩
    exact (isBody_slots unescaped place).isCode
  | field name type hidden => exact (isBody_field readable.1 readable.2 hidden place).isCode
  | method code =>
    rcases Method.Readable.exists_codeLines readable placing with ⟨shapes, code, defines⟩
    exact ⟨shapes, code, defines.grouped⟩

theorem isCode_memberLines {members : List Member} (each : ∀ member ∈ members, member.Readable) :
    IsCode place (memberLines members) := by
  fun_induction memberLines members with
  | case1 => exact ⟨[], .none, .none⟩
  | case2 only => exact (each only (List.mem_cons_self ..)).isCode placing
  | case3 first name type hidden later ih =>
    rw [List.forall_mem_cons] at each
    exact (each.1.isCode placing).append (ih each.2)
  | case4 first later _ _ ih =>
    rw [List.forall_mem_cons] at each
    exact (each.1.isCode placing).append (ih each.2).empty

/-- The lines of a class are those of one definition. -/
theorem ClassCode.Readable.exists_codeLines {code : ClassCode} (readable : code.Readable) :
    ∃ shapes, CodeLines place code.lines shapes ∧ IsDefinition shapes := by
  have members := isCode_memberLines placing readable.members
  have body := (isBody_docstring placing readable.documentation).append members.empty
  have lines := codeLines_block (isRow_class readable.name readable.parameters place) body .none
  rw [List.append_nil] at lines
  unfold ClassCode.lines
  split
  · have dotted : (Term.attribute (.name "dataclasses") "dataclass").Dotted :=
      ⟨show Text.IsName _ by decide +kernel, by decide +kernel⟩
    exact ⟨_, .decorator (isRow_decorator dotted place) lines, by simp [IsDefinition]⟩
  · exact ⟨_, lines, by simp [IsDefinition]⟩

end Placed

/-- A definition that can be read. -/
def Definition.Readable : Definition → Prop
  | .type code => code.Readable
  | .method code => code.Readable

theorem map_emittedAt_zero (lines : List Text) : lines.map (emittedAt 0) = lines := by
  refine (List.map_congr_left fun line _ => ?_).trans (List.map_id lines)
  unfold emittedAt
  split
  case isTrue empty => exact empty.symm
  case isFalse => rfl

/-- A definition starts with an at sign or one of the words in front of its name. -/
theorem Definition.head_lines (definition : Definition) :
    ∃ c first later, definition.lines = (c :: first) :: later ∧ c ∈ ['@', 'c', 'd'] := by
  cases definition with
  | type code =>
    change ∃ c first later, code.lines = (c :: first) :: later ∧ _
    unfold ClassCode.lines
    split <;> exact ⟨_, _, _, rfl, by decide⟩
  | method code =>
    change ∃ c first later, code.lines = (c :: first) :: later ∧ _
    unfold Method.lines Method.decoratorLines
    split <;> exact ⟨_, _, _, rfl, by decide⟩

/-- The code of a definition that can be read is one statement. -/
theorem Definition.Readable.exists_statement {definition : Definition}
    (readable : definition.Readable) :
    ∃ statement, Statement.parse? definition.text = some statement := by
  have code : ∃ shapes, CodeLines emittedAt definition.lines shapes ∧ IsDefinition shapes := by
    cases definition with
    | type code => exact ClassCode.Readable.exists_codeLines placing_emittedAt readable
    | method code => exact Method.Readable.exists_codeLines readable placing_emittedAt
  rcases code with ⟨shapes, code, defines⟩
  rcases definition.head_lines with ⟨c, first, later, split, sign⟩
  have written : definition.text = feeds (definition.lines.map (emittedAt 0)) := by
    rw [map_emittedAt_zero]
    exact emit_eq_flatMap (by simp [split])
  rw [written]
  refine code.exists_statement placing_emittedAt defines fun rest marked => ?_
  rw [map_emittedAt_zero, split] at marked
  cases marked
  exact absurd sign (by decide)

end Code
end OpenRecord
