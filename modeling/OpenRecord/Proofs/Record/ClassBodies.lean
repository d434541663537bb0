import Mathlib.Data.List.Basic
import OpenRecord.Expansion.Splice
import OpenRecord.Proofs.Source.DeclaredNames

namespace OpenRecord

/-!
# What the model of a class takes from its body

The statements that stand directly in a class body are listed here in textual order, without regard
to whether the body is a block or stands on the line of the header.  The fields of a model are the
declarations among them that say nothing else about their type, numbered in that order, and its other
members are what each statement adds on its own.  Names that are declared or bound twice stay twice.

A class is refused for its bases or for a lack of fields, and for nothing else.  Whether a type keeps
a declaration from being a field is decided on the text of the type; which spellings of a type have
the same outcome is not the subject here.
-/

open Source

/-! ## Direct statements -/

/-- A statement that stands directly in a class body. -/
inductive DirectStatement
  | small (item : Item)
  | definition (head : Source.Definition)
  | compound (clauses : List Clause)

/-- The direct statements of a line or of a compound statement. -/
def Source.Statement.direct : Statement → List DirectStatement
  | .simple _ items _ => items.map .small
  | .definition head _ => [.definition head]
  | .compound clauses => [.compound clauses]

def Source.Suite.direct : Suite → List DirectStatement
  | .inline items _ => items.map .small
  | .block _ _ body _ => body.flatMap (·.direct)
  | .cases _ _ _ _ => []

structure Declaration where
  name : Text
  type : Expression
  typeTokens : List Token

/-- Whether the type of a declaration makes it something else than a field. -/
def Declaration.isWrapped (declaration : Declaration) : Bool :=
  isNonFieldType (render declaration.typeTokens)

/-- The field of a declaration at a place among the fields. -/
def Declaration.field (order : Nat) (declaration : Declaration) : Field :=
  { name := declaration.name
    declaredType := render declaration.typeTokens
    order
    visibility := .ofName declaration.name
    skip := isSkipped declaration.type }

def Source.Expression.simpleName? : Expression → Option Text
  | .name identifier => some identifier
  | _ => none

/-- The declaration that a small statement is, if it declares a simple name. -/
def Source.Item.declaration? (item : Item) : Option Declaration :=
  match item.form with
  | .declaration (.name name) type typeTokens => some ⟨name, type, typeTokens⟩
  | _ => none

def Source.Item.assigned (item : Item) : List Expression :=
  match item.form with
  | .assignment targets => targets
  | _ => []

/-- The declaration that a direct statement is, if it declares a simple name. -/
def DirectStatement.declaration? : DirectStatement → Option Declaration
  | .small item => item.declaration?
  | _ => none

/-- The members besides the fields that a direct statement makes: the declared name if the
declaration is no field, the name of a definition, and each assigned simple name. -/
def DirectStatement.memberNames : DirectStatement → List Text
  | .small item =>
    (item.declaration?.toList.filter (·.isWrapped)).map (·.name) ++
      item.assigned.filterMap (·.simpleName?)
  | .definition head => [head.role.name]
  | .compound _ => []

/-- The declarations that make the fields of a class. -/
def Source.Suite.fieldDeclarations (body : Suite) : List Declaration :=
  (body.direct.filterMap (·.declaration?)).filter (!·.isWrapped)

/-- A model has the fields and the members of a class body. -/
structure RecordModel.ReadsBody (model : RecordModel) (body : Suite) : Prop where
  fields : model.fields = body.fieldDeclarations.mapIdx Declaration.field
  memberNames : model.memberNames = body.direct.flatMap (·.memberNames)

/-! ## Entries of direct statements -/

def DirectStatement.entries : DirectStatement → List BodyEntry
  | .small item => item.entries
  | .definition head => [.member head.role.name]
  | .compound _ => []

theorem Source.Suite.entries_eq_flatMap_direct (body : Suite) :
    body.entries = body.direct.flatMap (·.entries) := by
  have own (statement : Statement) : statement.entries = statement.direct.flatMap (·.entries) := by
    cases statement with
    | simple above items ending =>
      simp only [Statement.entries, Statement.direct, List.flatMap_map, DirectStatement.entries]
    | definition head inner => rfl
    | compound clauses => rfl
  cases body with
  | inline items ending => simp only [entries, direct, List.flatMap_map, DirectStatement.entries]
  | block opening indent body foot =>
    simp only [entries, direct, List.flatMap_assoc, own]
  | cases opening indent clauses foot => rfl

theorem Source.Item.entries_eq (item : Item) :
    item.entries =
      (item.declaration?.toList.filter (!·.isWrapped)).map
          (fun found => .field found.name found.type found.typeTokens) ++
        (DirectStatement.small item).memberNames.map .member := by
  rcases item with ⟨tokens, form, separator⟩
  cases form with
  | declaration target type typeTokens =>
    cases target with
    | name name =>
      have same : Declaration.isWrapped ⟨name, type, typeTokens⟩ =
        isNonFieldType (render typeTokens) := rfl
      cases wrapped : isNonFieldType (render typeTokens) <;>
        simp [entries, declaration?, assigned, DirectStatement.memberNames, same, wrapped]
    | _ => rfl
  | assignment targets =>
    simp only [entries, declaration?, assigned, DirectStatement.memberNames, Option.toList_none,
      List.filter_nil, List.map_nil, List.nil_append, List.map_filterMap]
    congr 1
    funext target
    cases target <;> rfl
  | _ => rfl

def BodyEntry.declaration? : BodyEntry → Option Declaration
  | .field name type typeTokens => some ⟨name, type, typeTokens⟩
  | .member _ => none

def BodyEntry.member? : BodyEntry → Option Text
  | .field _ _ _ => none
  | .member name => some name

theorem fieldsFrom_eq_mapIdx (order : Nat) (entries : List BodyEntry) :
    fieldsFrom order entries =
      (entries.filterMap (·.declaration?)).mapIdx fun place => Declaration.field (order + place) := by
  induction entries generalizing order with
  | nil => rfl
  | cons first later ih =>
    cases first with
    | member name => exact ih order
    | field name type typeTokens =>
      have shifted (place : Nat) : order + 1 + place = order + (place + 1) :=
        Nat.succ_add_eq_add_succ order place
      simp only [fieldsFrom, ih, shifted, List.filterMap_cons, BodyEntry.declaration?,
        List.mapIdx_cons]
      rfl

theorem membersOf_eq_filterMap (entries : List BodyEntry) :
    membersOf entries = entries.filterMap (·.member?) := by
  induction entries with
  | nil => rfl
  | cons first later ih =>
    cases first with
    | member name => exact congrArg (name :: ·) ih
    | field name type typeTokens => exact ih

theorem DirectStatement.filterMap_declaration?_entries (statement : DirectStatement) :
    statement.entries.filterMap (·.declaration?) =
      statement.declaration?.toList.filter (!·.isWrapped) := by
  cases statement with
  | small item =>
    simp [entries, Item.entries_eq, declaration?, BodyEntry.declaration?]
  | definition head => rfl
  | compound clauses => rfl

theorem DirectStatement.filterMap_member?_entries (statement : DirectStatement) :
    statement.entries.filterMap (·.member?) = statement.memberNames := by
  cases statement with
  | small item =>
    simp [entries, Item.entries_eq, BodyEntry.member?]
  | definition head => rfl
  | compound clauses => rfl

theorem Source.Suite.fieldDeclarations_eq_flatMap (body : Suite) :
    body.fieldDeclarations =
      body.direct.flatMap fun statement => statement.declaration?.toList.filter (!·.isWrapped) := by
  rw [fieldDeclarations, List.filterMap_eq_flatMap_toList, List.filter_flatMap]

/-! ## Names of fields -/

/-- A declared field has a name of the language, if the file was read. -/
theorem spelled_of_mem_entries {body : Suite} (lawful : body.Obeys declarationLaw) {name : Text}
    {type : Expression} {typeTokens : List Token} (member : .field name type typeTokens ∈ body.entries) :
    name.IsName := by
  have declared : ∀ {items : List Item}, (∀ item ∈ items, item.form.DeclaresNames) →
      .field name type typeTokens ∈ items.flatMap (·.entries) → name.IsName := by
    intro items names inside
    rcases List.mem_flatMap.1 inside with ⟨item, among, entry⟩
    have own := names item among
    unfold Item.entries at entry
    split at entry
    case h_1 form =>
      rw [form] at own
      split at entry
      · cases List.mem_singleton.1 entry
      · cases List.mem_singleton.1 entry
        exact own
    · rcases List.mem_filterMap.1 entry with ⟨target, -, made⟩
      split at made <;> cases made
    · cases entry
  cases body with
  | inline items ending => exact declared lawful member
  | cases opening indent clauses foot => cases member
  | block opening indent statements foot =>
    rcases List.mem_flatMap.1 member with ⟨statement, among, entry⟩
    have own := statementsObey_iff.1 lawful statement among
    cases statement with
    | simple above items ending => exact declared own entry
    | definition head suite => cases List.mem_singleton.1 entry
    | compound clauses => cases entry

theorem exists_entry_of_mem_fieldsFrom {field : Field} {entries : List BodyEntry} {order : Nat}
    (member : field ∈ fieldsFrom order entries) :
    ∃ type typeTokens, .field field.name type typeTokens ∈ entries := by
  fun_induction fieldsFrom order entries with
  | case1 => cases member
  | case2 order name later ih =>
    rcases ih member with ⟨type, typeTokens, inside⟩
    exact ⟨type, typeTokens, List.mem_cons_of_mem _ inside⟩
  | case3 order name type typeTokens later ih =>
    rcases List.mem_cons.1 member with rfl | behind
    · exact ⟨type, typeTokens, List.mem_cons_self ..⟩
    · rcases ih behind with ⟨type', typeTokens', inside⟩
      exact ⟨type', typeTokens', List.mem_cons_of_mem _ inside⟩

/-! ## Fields and members of a body -/

theorem Source.Suite.fieldsFrom_entries (body : Suite) :
    fieldsFrom 0 body.entries = body.fieldDeclarations.mapIdx Declaration.field := by
  rw [fieldsFrom_eq_mapIdx, entries_eq_flatMap_direct, List.filterMap_flatMap,
    fieldDeclarations_eq_flatMap]
  simp only [DirectStatement.filterMap_declaration?_entries, Nat.zero_add]

theorem Source.Suite.membersOf_entries (body : Suite) :
    membersOf body.entries = body.direct.flatMap (·.memberNames) := by
  rw [membersOf_eq_filterMap, entries_eq_flatMap_direct, List.filterMap_flatMap]
  simp only [DirectStatement.filterMap_member?_entries]

/-- Statements at the end of a class body contribute behind its own.  It makes no difference that a
body on the line of the header becomes a block. -/
theorem Source.Suite.entries_appended {body : Suite} {unit : Text} {added : List Statement}
    (plain : ∀ opening indent clauses foot, body ≠ .cases opening indent clauses foot) :
    (body.appended unit added).entries = body.entries ++ added.flatMap (·.entries) := by
  cases body with
  | inline items ending =>
    have own (item : Item) : item.ownLine.entries = item.entries := List.flatMap_singleton ..
    simp only [appended, entries, List.flatMap_append, List.flatMap_map, own]
  | block opening indent body foot => simp only [appended, entries, List.flatMap_append]
  | cases opening indent clauses foot => exact absurd rfl (plain opening indent clauses foot)

/-- The block that a body becomes when nothing is added to it contributes what the body does. -/
theorem Source.Suite.entries_appended_nil (body : Suite) (unit : Text) :
    (body.appended unit []).entries = body.entries := by
  cases body with
  | cases opening indent clauses foot => rfl
  | _ =>
    rw [entries_appended (by rintro _ _ _ _ ⟨⟩), List.flatMap_nil, List.append_nil]

/-! ## Bases -/

/-- The names of the base classes that keep a class from having fields of its own. -/
def rejectedBases : List Text :=
  enumerationBases ++ tupleBases ++ (["TypedDict"] : List Text)

/-- A base class, not a starred one, that ends in a rejected name. -/
def Source.Argument.IsRejected (base : Argument) : Prop :=
  base.stars = 0 ∧ base.value.lastSegment ∈ rejectedBases

theorem isSome_baseProblem_iff (base : Argument) :
    (baseProblem base).isSome ↔ base.IsRejected := by
  unfold baseProblem Shape.ofName? Source.Argument.IsRejected rejectedBases
  by_cases plain : base.stars = 0
  · rw [if_neg (not_not_intro plain)]
    split
    · simp_all
    · split
      · simp_all
      · split <;> simp_all
  · simp [plain]

/-- A base class is refused because of the shape it gives. -/
theorem kind_of_baseProblem {base : Argument} {cause : Cause}
    (problem : baseProblem base = some cause) : cause.kind = .unsupportedShape := by
  unfold baseProblem at problem
  split at problem
  · cases problem
  · rcases Option.map_eq_some_iff.1 problem with ⟨shape, -, rfl⟩
    rfl

/-! ## The model of a class -/

/-- A class is refused for its first rejected base, or for a lack of fields, and otherwise has the
fields and the members of its body. -/
theorem extractClass_reads (head : Source.Definition) (shape : ClassHead) (body : Suite)
    (location : Option Location) :
    (((∃ base ∈ shape.bases, base.IsRejected) ∨ body.fieldDeclarations = []) ∧
        ∃ cause, cause.kind = .unsupportedShape ∧
          extractClass head shape body location = .error ⟨cause, some shape.name, location⟩) ∨
      (¬ ((∃ base ∈ shape.bases, base.IsRejected) ∨ body.fieldDeclarations = []) ∧
        ∃ model, extractClass head shape body location = .ok model ∧ model.ReadsBody body) := by
  unfold extractClass
  cases problem : shape.bases.findSome? baseProblem with
  | some cause =>
    rcases List.exists_of_findSome?_eq_some problem with ⟨base, member, found⟩
    have rejected := (isSome_baseProblem_iff base).1 (Option.isSome_of_eq_some found)
    exact .inl ⟨.inl ⟨base, member, rejected⟩, cause, kind_of_baseProblem found, rfl⟩
  | none =>
    have accepted : ¬ ∃ base ∈ shape.bases, base.IsRejected := by
      rintro ⟨base, member, rejected⟩
      rw [← isSome_baseProblem_iff, List.findSome?_eq_none_iff.1 problem base member] at rejected
      cases rejected
    dsimp only
    rw [body.fieldsFrom_entries, body.membersOf_entries]
    cases declarations : body.fieldDeclarations with
    | nil => exact .inl ⟨.inr rfl, .noFields, rfl, rfl⟩
    | cons first later =>
      rw [List.mapIdx_cons]
      refine .inr ⟨?_, _, rfl, ?_, rfl⟩
      · rintro (rejected | ⟨⟨⟩⟩)
        exact accepted rejected
      · rw [declarations, List.mapIdx_cons]

theorem kind_of_extract {statement : Statement} {location : Option Location}
    {diagnostic : Diagnostic} (refused : extract statement location = .error diagnostic) :
    diagnostic.cause.kind = .unsupportedShape := by
  unfold extract at refused
  split at refused
  case h_1 head body =>
    split at refused
    case h_1 shape role =>
      rcases extractClass_reads head shape body location with
        ⟨-, cause, kind, same⟩ | ⟨-, model, same, -⟩
      · cases same.symm.trans refused
        exact kind
      · cases same.symm.trans refused
    case h_2 =>
      cases refused
      rfl
  case h_2 =>
    cases refused
    rfl

/-- Extraction loses nothing of a class.  An accepted class has the fields and the members of its
body, in textual order, and has them in the same way when its body becomes a block.  A class is
refused exactly if a base class is rejected or no field is declared, and always for its shape. -/
theorem extract_reads_class {head : Source.Definition} {shape : ClassHead}
    (role : head.role = .classDefinition shape) (body : Suite) (location : Option Location) :
    (∀ model, extract (.definition head body) location = .ok model → model.ReadsBody body) ∧
      (∀ unit, extract (.definition head (body.appended unit [])) location =
        extract (.definition head body) location) ∧
      ((∃ cause, cause.kind = .unsupportedShape ∧
          extract (.definition head body) location = .error ⟨cause, some shape.name, location⟩) ↔
        (∃ base ∈ shape.bases, base.IsRejected) ∨ body.fieldDeclarations = []) ∧
      ∀ diagnostic, extract (.definition head body) location = .error diagnostic →
        diagnostic.cause.kind = .unsupportedShape := by
  have own (body : Suite) :
      extract (.definition head body) location = extractClass head shape body location := by
    simp only [extract, role]
  have block (unit : Text) : extractClass head shape (body.appended unit []) location =
      extractClass head shape body location := by
    unfold extractClass
    rw [body.entries_appended_nil]
  refine ⟨?_, fun unit => (own _).trans ((block unit).trans (own _).symm), ?_,
    fun diagnostic => kind_of_extract⟩
  all_goals
    rw [own]
    rcases extractClass_reads head shape body location with
      ⟨unsound, cause, kind, refused⟩ | ⟨sound, model, extracted, reads⟩
  · intro model extracted
    cases refused.symm.trans extracted
  · intro other same
    cases extracted.symm.trans same
    exact reads
  · exact iff_of_true ⟨cause, kind, refused⟩ unsound
  · refine iff_of_false ?_ sound
    rintro ⟨cause, -, refused⟩
    cases extracted.symm.trans refused

def oneLineBody : Suite :=
  let declaration (name type : Text) : Item :=
    ⟨[], .declaration (.name name) (.name type) [⟨[.chars [' ']], .name, type⟩], none⟩
  .inline [declaration "x" "A", declaration "k" "ClassVar",
    ⟨[], .assignment [.name "y", .name "z"], none⟩, declaration "x" "B"] ⟨[], .usual⟩

def oneLineHead : Source.Definition :=
  ⟨[], [], [], [], .classDefinition ⟨"P", [], []⟩, ⟨1, 0⟩⟩

/-- A name that is declared twice makes two fields, and each target of an assignment makes a
member. -/
theorem extract_oneLine : ∃ model,
    extract (.definition oneLineHead oneLineBody) none = .ok model ∧
      extract (.definition oneLineHead (oneLineBody.appended [' '] [])) none = .ok model ∧
      model.ReadsBody oneLineBody ∧
      model.fields.map (fun field => (field.name, field.declaredType, field.order)) =
        ([("x", "A", 0), ("x", "B", 1)] : List (Text × Text × Nat)) ∧
      model.memberNames = (["k", "y", "z"] : List Text) := by
  rcases @extract_reads_class oneLineHead _ rfl oneLineBody none with ⟨reads, block, -, -⟩
  cases extracted : extract (.definition oneLineHead oneLineBody) none with
  | error diagnostic => cases extracted
  | ok model =>
    refine ⟨model, rfl, (block _).trans extracted, reads model extracted, ?_, ?_⟩
    · rw [(reads model extracted).fields]
      decide
    · rw [(reads model extracted).memberNames]
      decide

end OpenRecord
