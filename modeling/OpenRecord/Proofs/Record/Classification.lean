import OpenRecord.Proofs.Record.TypeSpellings

namespace OpenRecord

/-!
# How far the classification of a class depends on spelling

The names of a class are classified: some are fields, of which some are skipped, and others are other
members.  A type may be written with other white space between its tokens, in parentheses or as a
literal.  None of this changes the type, and all of it may change the classification, since one
question is asked of the text of the type and another one of the expression that it is.

For each of the three ways the main statement names the condition under which the classification stays
the same.  It is about one declaration at a time, so that the types of a class may be rewritten one
after the other.  Expressions are compared without the tokens of their subscripts, in which the white
space of the file is kept.
-/

open Source

/-! ## Types without their tokens -/

namespace Source.Expression

mutual

/-- An expression without the tokens of its subscripts. -/
def bare : Expression → Expression
  | .attribute value identifier => .attribute value.bare identifier
  | .subscript value elements => .subscript value.bare (bareElements elements)
  | .call function => .call function.bare
  | .tuple items => .tuple (bareItems items)
  | .list items => .list (bareItems items)
  | .starred value => .starred value.bare
  | expression => expression

def bareElements : List (Option Expression × List Token) → List (Option Expression × List Token)
  | [] => []
  | (none, _) :: later => (none, []) :: bareElements later
  | (some value, _) :: later => (some value.bare, []) :: bareElements later

/-- Expressions without the tokens of their subscripts. -/
def bareItems : List Expression → List Expression
  | [] => []
  | first :: later => first.bare :: bareItems later

end

/-- The tokens of a subscript are no part of a dotted name. -/
theorem dottedName_bare (expression : Expression) :
    expression.bare.dottedName = expression.dottedName := by
  fun_induction dottedName expression with
  | case1 identifier => rfl
  | case2 identifier => rfl
  | case3 value identifier empty ih => simp only [bare, dottedName, ih, empty]
  | case4 value identifier named ih =>
    simp only [bare, dottedName, ih]
  | case5 expression => cases expression <;> simp_all [bare, dottedName]

theorem lastSegment_bare : ∀ expression : Expression,
    expression.bare.lastSegment = expression.lastSegment
  | .subscript value _ => congrArg (Text.afterLast '.') (dottedName_bare value)
  | .attribute value identifier =>
    congrArg (Text.afterLast '.') (dottedName_bare (.attribute value identifier))
  | .name _ | .constant _ | .call _ | .literal | .tuple _ | .list _ | .starred _ | .other => rfl

end Source.Expression

/-- Whether an expression is the marker of a skipped field does not depend on tokens. -/
theorem isSkipMarker_bare (tokens : List Token) : ∀ marker : Expression,
    isSkipMarker (some marker.bare, []) = isSkipMarker (some marker, tokens)
  | .call function => congrArg (· == _) function.lastSegment_bare
  | .subscript value elements => congrArg (· == _) (Expression.subscript value elements).lastSegment_bare
  | .attribute value identifier =>
    congrArg (· == _) (Expression.attribute value identifier).lastSegment_bare
  | .name _ | .constant _ | .literal | .tuple _ | .list _ | .starred _ | .other => rfl

theorem any_isSkipMarker_bareElements (elements : List (Option Expression × List Token)) :
    (Expression.bareElements elements).any isSkipMarker = elements.any isSkipMarker := by
  induction elements with
  | nil => rfl
  | cons element later ih =>
    rcases element with ⟨_ | marker, tokens⟩
    · simp only [Expression.bareElements, List.any_cons, isSkipMarker, ih]
    · simp only [Expression.bareElements, List.any_cons, isSkipMarker_bare tokens marker, ih]

/-- Whether a type marks a skipped field does not depend on tokens. -/
theorem isSkipped_bare (type : Expression) : isSkipped type.bare = isSkipped type := by
  cases type with
  | subscript value elements =>
    rcases elements with _ | ⟨⟨_ | first, tokens⟩, markers⟩
    · rfl
    all_goals
      simp only [Expression.bare, Expression.bareElements, isSkipped, value.lastSegment_bare,
        any_isSkipMarker_bareElements]
  | _ => rfl

/-! ## Declarations written in another way -/

/-- A token with the white space in front of it taken off. -/
def Source.Token.compact (token : Token) : Token :=
  { token with
    gap := [.chars ((token.gap.flatMap (·.print ⟨[], ['\n']⟩)).filter (!isGap ·))] }

namespace Declaration

/-- The text of a type without the white space between its tokens. -/
def compact (declaration : Declaration) : Text :=
  render (declaration.typeTokens.map (·.compact))

/-- White space does not show in the name that a type starts with. -/
def IsTight (declaration : Declaration) : Prop :=
  typeHead (render declaration.typeTokens) = typeHead declaration.compact

/-- Other white space stands between the tokens of the type. -/
structure Relaid (declaration other : Declaration) : Prop where
  tokens : other.typeTokens.map (·.compact) = declaration.typeTokens.map (·.compact)
  type : other.type.bare = declaration.type.bare

/-- The type is written in parentheses, which leave no trace in an expression. -/
structure Parenthesized (declaration other : Declaration) : Prop where
  text : render other.typeTokens = '(' :: render declaration.typeTokens ++ [')']
  type : other.type = declaration.type

structure Quoted (declaration other : Declaration) : Prop where
  text : ∃ opening closing : Text, (∀ c ∈ opening, isMark c = true) ∧
    (∀ c ∈ closing, isMark c = true) ∧
    render other.typeTokens = opening ++ render declaration.typeTokens ++ closing
  type : other.type = .literal

/-- Two declarations are classified alike: neither is a field, or both are, with the same mark. -/
def Alike (declaration other : Declaration) : Prop :=
  other.isWrapped = declaration.isWrapped ∧
    (declaration.isWrapped = false → isSkipped other.type = isSkipped declaration.type)

/-- White space may be put into the compact text of a type so that its text comes out. -/
theorem spread_compact (declaration : Declaration) :
    Text.Spread isGap declaration.compact (render declaration.typeTokens) := by
  have own (token : Token) :
      Text.Spread isGap (token.compact.print ⟨[], ['\n']⟩) (token.print ⟨[], ['\n']⟩) := by
    refine .append ?_ (.refl _)
    simpa [Token.compact, Piece.print] using Text.Spread.filter isGap _
  have all (tokens : List Token) : Text.Spread isGap
      (printTokens ⟨[], ['\n']⟩ (tokens.map (·.compact))) (printTokens ⟨[], ['\n']⟩ tokens) := by
    induction tokens with
    | nil => exact .nil
    | cons token later ih => exact (own token).append ih
  refine Text.Spread.strip (fun c blank => by simp [isGap, blank]) ?_
  cases declaration.typeTokens with
  | nil => exact .nil
  | cons first later => exact (Text.Spread.refl first.text).append (all later)

/-- A declaration is no field exactly if it would be none without white space and white space does
not show in the name that its type starts with. -/
theorem isWrapped_iff (declaration : Declaration) :
    declaration.isWrapped = true ↔
      isNonFieldType declaration.compact = true ∧ declaration.IsTight :=
  isNonFieldType_spread_iff declaration.spread_compact

variable {declaration other : Declaration}

/-- White space between the tokens of a type matters only where it shows in the name of a type that
keeps a declaration from being a field. -/
theorem Relaid.alike_iff (relaid : declaration.Relaid other) :
    declaration.Alike other ↔
      (isNonFieldType declaration.compact = true → (declaration.IsTight ↔ other.IsTight)) := by
  have same : other.compact = declaration.compact := congrArg render relaid.tokens
  have marked : isSkipped other.type = isSkipped declaration.type := by
    rw [← isSkipped_bare, relaid.type, isSkipped_bare]
  rw [Alike, Bool.eq_iff_iff, other.isWrapped_iff, declaration.isWrapped_iff, same]
  constructor
  · intro alike wrapped
    simpa [wrapped] using alike.1.symm
  · exact fun alike => ⟨and_congr_right fun wrapped => (alike wrapped).symm, fun _ => marked⟩

/-- Parentheses matter only around a type that keeps a declaration from being a field, unless it is
subscripted and its name is behind a dot. -/
theorem Parenthesized.alike_iff (parenthesized : declaration.Parenthesized other) :
    declaration.Alike other ↔
      (declaration.isWrapped = true → '[' ∈ render declaration.typeTokens ∧
        '.' ∈ Text.before '[' (render declaration.typeTokens)) := by
  have wrapped : other.isWrapped = true ↔ declaration.isWrapped = true ∧
      '[' ∈ render declaration.typeTokens ∧
        '.' ∈ Text.before '[' (render declaration.typeTokens) := by
    rw [isWrapped, parenthesized.text]
    exact isNonFieldType_parentheses_iff
  rw [Alike, Bool.eq_iff_iff, wrapped, parenthesized.type]
  simp

/-- A literal matters only for a type that marks a field as skipped. -/
theorem Quoted.alike_iff (quoted : declaration.Quoted other) :
    declaration.Alike other ↔ (isSkipped declaration.type = true → declaration.isWrapped = true) := by
  rcases quoted.text with ⟨opening, closing, opens, closes, text⟩
  have wrapped : other.isWrapped = declaration.isWrapped := by
    rw [isWrapped, text]
    exact isNonFieldType_quoted opens closes
  rw [Alike, wrapped, quoted.type]
  cases declaration.isWrapped <;> simp [isSkipped]

end Declaration

/-! ## The classification of a class -/

/-- Which names are fields and which of them are skipped, and which names are other members. -/
abbrev Classification := List (Text × Bool) × List Text

def RecordModel.classification (model : RecordModel) : Classification :=
  (model.fields.map fun field => (field.name, field.skip), model.memberNames)

def Source.Suite.classification (body : Suite) : Classification :=
  (body.fieldDeclarations.map fun field => (field.name, isSkipped field.type),
    body.direct.flatMap (·.memberNames))

/-- The classification of the names of a class, unless the class is refused. -/
def Source.Definition.classify? (head : Source.Definition) (body : Suite)
    (location : Option Location) : Option Classification :=
  (extract (.definition head body) location).toOption.map (·.classification)

theorem Source.Suite.isEmpty_classification_iff (body : Suite) :
    body.classification.1 = [] ↔ body.fieldDeclarations = [] :=
  List.map_eq_nil_iff

/-- Two class bodies differ in the type of one declaration. -/
def Source.Suite.Reannotates (body other : Suite) (declaration respelled : Declaration) : Prop :=
  ∃ before after item changed, body.direct = before ++ .small item :: after ∧
    other.direct = before ++ .small changed :: after ∧ item.declaration? = some declaration ∧
    changed.declaration? = some respelled ∧ respelled.name = declaration.name

theorem Source.Item.assigned_of_declaration {item : Item} {declaration : Declaration}
    (declares : item.declaration? = some declaration) : item.assigned = [] := by
  unfold declaration? at declares
  unfold assigned
  split at declares
  case h_1 name type typeTokens form => rw [form]
  case h_2 => cases declares

theorem memberNames_of_declaration {item : Item} {declaration : Declaration}
    (declares : item.declaration? = some declaration) :
    (DirectStatement.small item).memberNames =
      if declaration.isWrapped then [declaration.name] else [] := by
  rw [DirectStatement.memberNames, item.assigned_of_declaration declares, declares]
  cases wrapped : declaration.isWrapped <;> simp [wrapped]

theorem isWrapped_of_no_fields {body : Suite} {item : Item} {declaration : Declaration}
    (none : body.fieldDeclarations = []) (member : .small item ∈ body.direct)
    (declares : item.declaration? = some declaration) : declaration.isWrapped = true := by
  have found : declaration ∈ body.direct.filterMap (·.declaration?) :=
    List.mem_filterMap.2 ⟨.small item, member, declares⟩
  have other := List.filter_eq_nil_iff.1 none declaration found
  simpa using other

section Bodies

variable {body other : Suite} {declaration respelled : Declaration}

/-- Bodies that differ in one type classify alike exactly if the declaration is classified alike. -/
theorem classification_eq_iff (reannotates : body.Reannotates other declaration respelled) :
    other.classification = body.classification ↔ declaration.Alike respelled := by
  rcases reannotates with ⟨before, after, item, changed, own, others, declares, redeclares, name⟩
  have first : (DirectStatement.small item).declaration? = some declaration := declares
  have second : (DirectStatement.small changed).declaration? = some respelled := redeclares
  simp only [Suite.classification, Suite.fieldDeclarations_eq_flatMap, own, others,
    List.flatMap_append, List.flatMap_cons, List.map_append, first, second,
    memberNames_of_declaration declares, memberNames_of_declaration redeclares,
    Prod.mk.injEq, Declaration.Alike]
  cases wrapped : declaration.isWrapped <;> cases changes : respelled.isWrapped <;>
    simp [wrapped, changes, name]

/-- If neither body has a field, the changed declaration is none in either. -/
theorem alike_of_no_fields (reannotates : body.Reannotates other declaration respelled)
    (none : body.fieldDeclarations = []) (still : other.fieldDeclarations = []) :
    declaration.Alike respelled := by
  rcases reannotates with ⟨before, after, item, changed, own, others, declares, redeclares, -⟩
  have wrapped := isWrapped_of_no_fields none (by simp [own]) declares
  have changes := isWrapped_of_no_fields still (by simp [others]) redeclares
  refine ⟨changes.trans wrapped.symm, fun field => ?_⟩
  rw [wrapped] at field
  cases field

variable {head : Source.Definition} {shape : ClassHead}

theorem classify?_cases (role : head.role = .classDefinition shape) (body : Suite)
    (location : Option Location) :
    (((∃ base ∈ shape.bases, base.IsRejected) ∨ body.fieldDeclarations = []) ∧
        head.classify? body location = none) ∨
      (¬ ((∃ base ∈ shape.bases, base.IsRejected) ∨ body.fieldDeclarations = []) ∧
        head.classify? body location = some body.classification) := by
  have own : extract (.definition head body) location = extractClass head shape body location := by
    simp only [extract, role]
  rw [Source.Definition.classify?, own]
  rcases extractClass_reads head shape body location with
    ⟨refused, cause, -, same⟩ | ⟨accepted, model, same, reads⟩
  · exact .inl ⟨refused, by rw [same]; rfl⟩
  · refine .inr ⟨accepted, ?_⟩
    have marks (fields : List Declaration) :
        (fields.mapIdx Declaration.field).map (fun field => (field.name, field.skip)) =
          fields.map fun field => (field.name, isSkipped field.type) := by
      refine List.ext_getElem (by simp) fun place first second => ?_
      simp [Declaration.field]
    rw [same]
    simp only [Except.toOption, Option.map_some, RecordModel.classification, Suite.classification,
      reads.fields, reads.memberNames, marks]

/-- Bodies that differ in one type give a class the same classification exactly if the declaration is
classified alike, unless the class is refused for a base. -/
theorem classify?_eq_iff (role : head.role = .classDefinition shape)
    (accepted : ¬ ∃ base ∈ shape.bases, base.IsRejected)
    (reannotates : body.Reannotates other declaration respelled) (location : Option Location) :
    head.classify? other location = head.classify? body location ↔ declaration.Alike respelled := by
  have fields (same : other.classification = body.classification) :
      other.fieldDeclarations = [] ↔ body.fieldDeclarations = [] := by
    rw [← body.isEmpty_classification_iff, ← same, other.isEmpty_classification_iff]
  rcases classify?_cases role body location with ⟨refused, before⟩ | ⟨taken, before⟩ <;>
    rcases classify?_cases role other location with ⟨refuses, after⟩ | ⟨takes, after⟩ <;>
    rw [before, after]
  case inl.inl =>
    exact iff_of_true rfl (alike_of_no_fields reannotates (refused.resolve_left accepted)
      (refuses.resolve_left accepted))
  case inl.inr =>
    refine iff_of_false nofun fun alike => takes (.inr ?_)
    exact (fields ((classification_eq_iff reannotates).2 alike)).2 (refused.resolve_left accepted)
  case inr.inl =>
    refine iff_of_false nofun fun alike => taken (.inr ?_)
    exact (fields ((classification_eq_iff reannotates).2 alike)).1 (refuses.resolve_left accepted)
  case inr.inr => rw [Option.some.injEq, classification_eq_iff reannotates]

theorem classify?_of_rejected (role : head.role = .classDefinition shape)
    (rejected : ∃ base ∈ shape.bases, base.IsRejected) (body : Suite) (location : Option Location) :
    head.classify? body location = none := by
  rcases classify?_cases role body location with ⟨-, same⟩ | ⟨accepted, -⟩
  · exact same
  · exact absurd (.inl rejected) accepted

/-- What the classification of a class depends on when one type is spelled in another way.  With
other white space it stays the same unless the type is one that keeps a declaration from being a field
and white space shows in its name in one of the spellings only; in parentheses, unless such a type is
not subscripted or its name is not behind a dot; and as a literal, unless the type marks a field as
skipped.  A class that is refused for a base is refused however its types are spelled. -/
theorem classify?_respelled_iff (role : head.role = .classDefinition shape)
    (reannotates : body.Reannotates other declaration respelled) (location : Option Location) :
    ((∃ base ∈ shape.bases, base.IsRejected) →
        head.classify? other location = head.classify? body location) ∧
      ((¬ ∃ base ∈ shape.bases, base.IsRejected) →
        (declaration.Relaid respelled →
          (head.classify? other location = head.classify? body location ↔
            (isNonFieldType declaration.compact = true →
              (declaration.IsTight ↔ respelled.IsTight)))) ∧
        (declaration.Parenthesized respelled →
          (head.classify? other location = head.classify? body location ↔
            (declaration.isWrapped = true → '[' ∈ render declaration.typeTokens ∧
              '.' ∈ Text.before '[' (render declaration.typeTokens)))) ∧
        (declaration.Quoted respelled →
          (head.classify? other location = head.classify? body location ↔
            (isSkipped declaration.type = true → declaration.isWrapped = true)))) := by
  constructor
  · intro rejected
    rw [classify?_of_rejected role rejected, classify?_of_rejected role rejected]
  · intro accepted
    rw [classify?_eq_iff role accepted reannotates location]
    exact ⟨Declaration.Relaid.alike_iff, Declaration.Parenthesized.alike_iff,
      Declaration.Quoted.alike_iff⟩

end Bodies

/-- The body of a class with a certain declaration and one of a plain field. -/
def bodyDeclaring (declaration : Declaration) : Suite :=
  .inline [⟨[], .declaration (.name declaration.name) declaration.type declaration.typeTokens, none⟩,
    ⟨[], .declaration (.name "y") (.name "int") [⟨[.chars [' ']], .name, "int"⟩], none⟩]
    ⟨[], .usual⟩

def classVariable : Declaration :=
  ⟨"k", .name "ClassVar", [⟨[.chars [' ']], .name, "ClassVar"⟩]⟩

def classVariableInParentheses : Declaration :=
  ⟨"k", .name "ClassVar", [⟨[.chars [' ']], .symbol .openRound, ['(']⟩, ⟨[], .name, "ClassVar"⟩,
    ⟨[], .symbol .closeRound, [')']⟩]⟩

/-- Parentheses make a field of a class variable. -/
theorem classVariable_becomes_field :
    classVariable.Parenthesized classVariableInParentheses ∧
      oneLineHead.classify? (bodyDeclaring classVariable) none =
        some ([(['y'], false)], [['k']]) ∧
      oneLineHead.classify? (bodyDeclaring classVariableInParentheses) none ≠
        oneLineHead.classify? (bodyDeclaring classVariable) none := by
  have parenthesized : classVariable.Parenthesized classVariableInParentheses :=
    ⟨by decide, rfl⟩
  have reannotates : (bodyDeclaring classVariable).Reannotates
      (bodyDeclaring classVariableInParentheses) classVariable classVariableInParentheses :=
    ⟨[], _, _, _, rfl, rfl, rfl, rfl, rfl⟩
  have accepted : ¬ ∃ base ∈ ClassHead.bases ⟨"P", [], []⟩, base.IsRejected := by
    rintro ⟨base, member, -⟩
    cases member
  have role : oneLineHead.role = .classDefinition ⟨"P", [], []⟩ := rfl
  have exactly := classify?_respelled_iff role reannotates none
  refine ⟨parenthesized, by decide, ?_⟩
  rw [Ne, (exactly.2 accepted).2.1 parenthesized]
  decide

end OpenRecord
