import OpenRecord.Generation.Collection
import OpenRecord.Proofs.Code.Reindentation
import OpenRecord.Proofs.Record.GeneratedNames
import OpenRecord.Proofs.Source.OpeningStatement

namespace OpenRecord

/-!
# Headlines of generated code

Every artifact starts with the headline of a definition of its name, below at most one decorator
line that requests nothing.  Reindentation puts this headline behind the margin and changes nothing
else about it, whatever the texts of types further on contain.
-/

open Source

/-! ## Headlines and reindentation -/

theorem Text.isBoundary_of_isNameContinue {c : Char} (continues : isNameContinue c = true) :
    isBoundary c = false := by
  cases boundary : isBoundary c with
  | false => rfl
  | true =>
    simp only [isBoundary, isBreak, Bool.or_eq_true, beq_iff_eq, or_assoc] at boundary
    rcases boundary with rfl | rfl | rfl | rfl | rfl | rfl | rfl | rfl | rfl | rfl <;>
      exact absurd continues (by decide +kernel)

theorem Source.Opening.unbroken (opening : Opening) :
    ∀ x ∈ opening.text, Text.isBoundary x = false := by
  have word : ∀ x ∈ opening.opener.text, Text.isBoundary x = false := by
    have letters : opening.opener.text.all (!Text.isBoundary ·) = true := by
      cases opening.opener <;> decide
    simpa using letters
  have name : ∀ x ∈ opening.name, Text.isBoundary x = false :=
    fun x member => Text.isBoundary_of_isNameContinue (opening.name_chars x member)
  have behind : Text.isBoundary opening.behind = false := by
    have each : [':', '(', '['].all (!Text.isBoundary ·) = true := by decide
    simpa using List.all_eq_true.1 each opening.behind opening.behind_mem
  rw [Opening.text, List.forall_mem_append, List.forall_mem_cons, List.forall_mem_append]
  exact ⟨word, by decide, name, by simpa using behind⟩

theorem Source.Opening.exists_cons (opening : Opening) :
    ∃ c later, opening.text = c :: later ∧ c ≠ ' ' := by
  unfold Opening.text
  cases opening.opener with
  | classWord => exact ⟨_, _, rfl, by decide⟩
  | defWord => exact ⟨_, _, rfl, by decide⟩

theorem Source.Opening.reindent_append (opening : Opening) (unit margin rest : Text) :
    ∃ tail, Code.reindent (opening.text ++ rest) unit margin =
      margin ++ (opening.text ++ tail) := by
  have unbroken := opening.unbroken
  rcases opening.exists_cons with ⟨c, later, written, solid⟩
  rw [written] at unbroken ⊢
  exact Code.reindent_append solid unbroken unit margin rest

/-- Code that starts with a headline starts with the same headline behind the margin when it has
been reindented. -/
theorem Source.Headline.reindent_append (headline : Headline) (unit margin rest : Text) :
    ∃ tail, Code.reindent (headline.text [] ++ rest) unit margin =
      headline.text margin ++ tail := by
  rcases headline with ⟨decorator, opening⟩
  rcases opening.reindent_append unit margin rest with ⟨tail, below⟩
  cases decorator with
  | none => exact ⟨tail, by simpa [Headline.text] using below⟩
  | some decorator =>
    rcases decorator with ⟨chars, tokens, value, head, unbroken, -, -⟩
    rcases List.head?_eq_some_iff.1 head with ⟨inner, rfl⟩
    have nonempty : opening.text ++ rest ≠ [] := by
      rcases opening.exists_cons with ⟨c, later, written, -⟩
      simp [written]
    have plain : ∀ x ∈ '@' :: inner, Text.isBoundary x = false := by simpa using unbroken
    have first := Code.reindent_append_feed (by decide) plain nonempty unit margin
    refine ⟨tail, ?_⟩
    simp only [Headline.text, List.nil_append, List.append_assoc, List.cons_append] at first ⊢
    rw [first, below]

/-! ## Headlines of definitions -/

/-- Code whose first line starts with an opening starts with a headline of it. -/
theorem Source.Opening.exists_headline {opening : Opening} {first tail : Text} {later : List Text}
    (written : first = opening.text ++ tail) :
    ∃ rest, Code.emit (first :: later) = Headline.text ⟨none, opening⟩ [] ++ rest := by
  subst written
  rcases Code.emit_cons (opening.text ++ tail) later with ⟨behind, emitted⟩
  refine ⟨tail ++ behind, ?_⟩
  rw [emitted]
  simp [Headline.text]

theorem Source.DecoratorLine.exists_headline (decorator : DecoratorLine) {opening : Opening}
    {first tail : Text} {later : List Text} (written : first = opening.text ++ tail) :
    ∃ rest, Code.emit (decorator.chars :: first :: later) =
      Headline.text ⟨some decorator, opening⟩ [] ++ rest := by
  rw [Code.emit_cons_cons]
  rcases Opening.exists_headline written with ⟨rest, emitted⟩
  rw [emitted]
  exact ⟨rest, by simp [Headline.text]⟩

/-- The first line of a class starts with an opening of its name. -/
theorem Code.ClassCode.exists_opening {code : ClassCode} (nonempty : code.name ≠ [])
    (chars : ∀ x ∈ code.name, Text.isNameContinue x = true)
    (parameters : code.parameters = [] ∨
      ∃ c later, code.parameters = c :: later ∧ c ∈ ['(', '[']) :
    ∃ (opening : Opening) (tail : Text), opening.name = code.name ∧
      ("class " ++ code.name ++ code.parameters ++ ":" : Text) = opening.text ++ tail := by
  rcases parameters with none_there | ⟨c, later, some_there, bracket⟩
  · refine ⟨⟨.classWord, code.name, nonempty, chars, ':', by decide⟩, [], rfl, ?_⟩
    simp [none_there, Opening.text, Opener.text]
  · refine ⟨⟨.classWord, code.name, nonempty, chars, c, List.mem_cons_of_mem _ bracket⟩,
      later ++ ":", rfl, ?_⟩
    simp [some_there, Opening.text, Opener.text]

theorem Code.ClassCode.exists_headline {code : ClassCode} (nonempty : code.name ≠ [])
    (chars : ∀ x ∈ code.name, Text.isNameContinue x = true)
    (parameters : code.parameters = [] ∨
      ∃ c later, code.parameters = c :: later ∧ c ∈ ['(', '[']) :
    ∃ (headline : Headline) (rest : Text), emit code.lines = headline.text [] ++ rest ∧
      headline.name = code.name ∧
      headline.decorator = if code.derived then some .dataclass else none := by
  rcases ClassCode.exists_opening nonempty chars parameters with ⟨opening, tail, named, written⟩
  unfold ClassCode.lines
  cases code.derived with
  | false =>
    rcases Opening.exists_headline written with ⟨rest, emitted⟩
    exact ⟨_, rest, emitted, named, rfl⟩
  | true =>
    rcases DecoratorLine.dataclass.exists_headline written with ⟨rest, emitted⟩
    exact ⟨_, rest, emitted, named, rfl⟩

/-- The code of a method starts with its headline, unless the method is a property. -/
theorem Code.Method.exists_headline {code : Method} (nonempty : code.name ≠ [])
    (chars : ∀ x ∈ code.name, Text.isNameContinue x = true)
    (role : code.role = .plain ∨ code.role = .ofClass) :
    ∃ (headline : Headline) (rest : Text), emit code.lines = headline.text [] ++ rest ∧
      headline.name = code.name ∧
      headline.decorator = if code.role = .ofClass then some .classmethod else none := by
  have written : ("def " ++ code.name ++ inParentheses (code.parameters.map (·.text)) ++ " -> " ++
      code.result ++ ":" : Text) =
      Opening.text ⟨.defWord, code.name, nonempty, chars, '(', by decide⟩ ++
        (Text.join [',', ' '] (code.parameters.map (·.text)) ++ [')'] ++ " -> " ++
          code.result ++ ":") := by
    simp [Opening.text, Opener.text, inParentheses]
  unfold Method.lines Method.decoratorLines
  rcases role with role | role <;> rw [role]
  · rcases Opening.exists_headline written with ⟨rest, emitted⟩
    exact ⟨_, rest, emitted, rfl, rfl⟩
  · rcases DecoratorLine.classmethod.exists_headline written with ⟨rest, emitted⟩
    exact ⟨_, rest, emitted, rfl, rfl⟩

/-! ## Headlines of artifacts -/

/-- What stands behind the name of a generated class is nothing or starts with a bracket. -/
theorem RecordModel.headerParameters_cases (model : RecordModel) :
    model.headerParameters = [] ∨
      ∃ c later, model.headerParameters = c :: later ∧ c ∈ ['(', '['] := by
  unfold headerParameters
  split
  · exact .inr ⟨_, _, rfl, by decide⟩
  · exact .inr ⟨_, _, rfl, by decide⟩
  · exact .inl rfl

/-- An artifact of a model is a class of the name that one of the requested capabilities gives, or
a method of one of them. -/
theorem mem_synthesize {model : RecordModel} {settings : Settings} {artifact : Artifact}
    (member : artifact ∈ synthesize model settings) :
    ∃ capability ∈ model.requested,
      (artifact.name = capability.typeName settings model.typeName ∧
        artifact.placement = .besideClass ∧
        ∃ code, artifact.definition = .type code ∧ code.name = artifact.name ∧
          code.parameters = model.headerParameters) ∨
      (artifact.name ∈ capability.methodNames ∧ artifact.placement = .inClass ∧
        ∃ code, artifact.definition = .method code ∧ code.name = artifact.name ∧
          (code.role = .plain ∨ code.role = .ofClass)) := by
  rcases List.mem_flatMap.1 member with ⟨capability, requested, generated⟩
  refine ⟨capability, requested, ?_⟩
  cases capability with
  | destructure =>
    simp only [capabilityArtifacts, conversionArtifacts, List.mem_cons, List.not_mem_nil,
      or_false] at generated
    rcases generated with rfl | rfl | rfl
    · exact .inl ⟨rfl, rfl, _, rfl, rfl, rfl⟩
    · exact .inr ⟨.head _, rfl, _, rfl, rfl, .inl rfl⟩
    · exact .inr ⟨.tail _ (.head _), rfl, _, rfl, rfl, .inr rfl⟩
  | mutation =>
    simp only [capabilityArtifacts, List.mem_cons, List.not_mem_nil, or_false] at generated
    rcases generated with rfl | rfl | rfl
    · exact .inl ⟨rfl, rfl, _, rfl, rfl, rfl⟩
    · exact .inr ⟨.head _, rfl, _, rfl, rfl, .inl rfl⟩
    · exact .inr ⟨.tail _ (.head _), rfl, _, rfl, rfl, .inl rfl⟩
  | destructureRef =>
    simp only [capabilityArtifacts, referenceArtifacts, List.mem_cons, List.not_mem_nil,
      or_false] at generated
    rcases generated with rfl | rfl
    · exact .inl ⟨rfl, rfl, _, rfl, rfl, rfl⟩
    · exact .inr ⟨.head _, rfl, _, rfl, rfl, .inl rfl⟩

theorem Capability.methodNames_chars {capability : Capability} {name : Text}
    (member : name ∈ capability.methodNames) :
    name ≠ [] ∧ ∀ x ∈ name, Text.isNameContinue x = true := by
  have each : capability.methodNames.all
      (fun known => !known.isEmpty && known.all Text.isNameContinue) = true := by
    cases capability <;> decide
  simpa using List.all_eq_true.1 each name member

/-- The code of an artifact starts with a headline of its name, and the decorator in it is one of
two. -/
theorem Artifact.exists_headline {model : RecordModel} {settings : Settings} {artifact : Artifact}
    (accepted : settings.Accepted) (nonempty : model.typeName ≠ [])
    (chars : ∀ x ∈ model.typeName, Text.isNameContinue x = true)
    (member : artifact ∈ synthesize model settings) :
    ∃ (headline : Headline) (rest : Text), artifact.code = headline.text [] ++ rest ∧
      headline.name = artifact.name ∧
      headline.decorator ∈ [none, some .dataclass, some .classmethod] := by
  unfold code
  rcases mem_synthesize member with ⟨capability, -, ⟨name, -, code, same, named, parameters⟩ |
    ⟨name, -, code, same, named, role⟩⟩
  · rw [same]
    have headed := code.exists_headline
      (by rw [named, name]; exact capability.typeName_ne_nil nonempty)
      (by rw [named, name]; exact capability.typeName_chars accepted chars)
      (by rw [parameters]; exact model.headerParameters_cases)
    rcases headed with ⟨headline, rest, written, headed, decorator⟩
    refine ⟨headline, rest, written, headed.trans named, ?_⟩
    rw [decorator]
    cases code.derived <;> simp
  · rw [same]
    have spelled := Capability.methodNames_chars name
    rw [← named] at spelled
    rcases code.exists_headline spelled.1 spelled.2 role with
      ⟨headline, rest, written, headed, decorator⟩
    refine ⟨headline, rest, written, headed.trans named, ?_⟩
    rw [decorator]
    split <;> simp

end OpenRecord
