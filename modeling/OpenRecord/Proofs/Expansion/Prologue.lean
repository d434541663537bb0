import OpenRecord.Proofs.Expansion.ImportPlaces
import OpenRecord.Proofs.Source.LiteralRuns

namespace OpenRecord

/-!
# The prologue of a file

The prologue of a file is its documentation with the imports from `__future__` behind it.  It is made
of small statements and not of lines: documentation may share its line with others, as imports may,
and it may be several string literals in a row.

Imports are added behind lines, and only behind those on which a small statement of the prologue
stands alone; documentation in several literals counts as none.  So the main statement does not say
that a prologue stays in front of the imports that are added, but which part of it does.
-/

open Source

/-! ## Small statements of a prologue -/

/-- Whether a small statement is an expression of string literals, in parentheses or not. -/
def Source.Item.documents (item : Item) : Bool :=
  (match item.form with
    | .value .literal => true
    | .value .other => true
    | _ => false) &&
  item.tokens.any (·.isString) &&
  item.tokens.all fun token =>
    token.isString || token.kind == .symbol .openRound || token.kind == .symbol .closeRound

/-- Whether a small statement imports from `__future__`, and not from a module of that name beside
the file. -/
def Source.Item.importsFuture (item : Item) : Bool :=
  (match item.form with
    | .importsFrom (some origin) _ => origin == "__future__"
    | _ => false) &&
  item.tokens.all fun token =>
    token.kind != .symbol .dot && token.kind != .symbol .ellipsis

/-- The small statements of a line; none for any other statement. -/
def Source.Statement.items : Statement → List Item
  | .simple _ items _ => items
  | .definition _ _ => []
  | .compound _ => []

/-- Small statements that make a prologue: imports from `__future__`, the first of which may have
documentation in its place. -/
def ArePrologue : List Item → Prop
  | [] => True
  | first :: later =>
    (first.documents = true ∨ first.importsFuture = true) ∧
      ∀ item ∈ later, item.importsFuture = true

/-- A line with an import from `__future__` on it that has nothing in front of it but documentation
and other such imports, on its own line and on the lines before. -/
structure ImportsFutureBehind (before : List Statement) (line : Statement) : Prop where
  lines : ∀ statement ∈ before, ∃ above items ending, statement = .simple above items ending
  future : ∃ above front item back ending,
    line = .simple above (front ++ item :: back) ending ∧ item.importsFuture = true ∧
      ArePrologue (before.flatMap (·.items) ++ front)

/-- A line with one small statement, which is one literal if it is documentation. -/
def Source.Statement.HoldsOne (statement : Statement) : Prop :=
  ∃ above item ending, statement = .simple above [item] ending ∧
    (item.documents = true → item.form = .value .literal)

/-! ## Lines of a prologue -/

section Lines

variable {above : List Line} {item : Item} {ending : LineEnd}

/-- A small statement that documents alone on its line is noticed exactly if it is one literal. -/
theorem isDocumentation_iff (documents : item.documents = true) :
    isDocumentation (.simple above [item] ending) = true ↔ item.form = .value .literal := by
  rcases item with ⟨tokens, form, separator⟩
  unfold isDocumentation
  split
  case h_1 => simp_all
  case h_2 other =>
    simp only [Bool.false_eq_true, false_iff]
    rintro rfl
    exact other _ _ _ _ rfl

theorem isFutureImport_of_documents {others : List Item} (documents : item.documents = true) :
    isFutureImport (.simple above (item :: others) ending) = false := by
  rcases item with ⟨tokens, form, separator⟩
  unfold isFutureImport
  split
  case h_1 => simp_all [Item.documents]
  case h_2 => rfl

/-- An import from `__future__` alone on its line is noticed. -/
theorem isFutureImport_of_importsFuture (imports : item.importsFuture = true) :
    isFutureImport (.simple above [item] ending) = true := by
  rcases item with ⟨tokens, form, separator⟩
  unfold Item.importsFuture at imports
  dsimp only at imports
  split at imports
  case h_1 =>
    rw [Bool.and_eq_true] at imports
    exact imports.1
  case h_2 => simp at imports

theorem holdsOne_of_noticed {statement : Statement}
    (noticed : isDocumentation statement = true ∨ isFutureImport statement = true) :
    statement.HoldsOne := by
  rcases noticed with documents | imports
  · unfold isDocumentation at documents
    split at documents
    case h_1 => exact ⟨_, _, _, rfl, fun _ => rfl⟩
    case h_2 => cases documents
  · unfold isFutureImport at imports
    split at imports
    case h_1 => exact ⟨_, _, _, rfl, fun documents => by simp [Item.documents] at documents⟩
    case h_2 => cases imports

end Lines

/-! ## The lines in front of added imports -/

theorem prefix_takeWhile_iff {α : Type} {goes : α → Bool} (front : List α) {back : List α} :
    front <+: (front ++ back).takeWhile goes ↔ ∀ item ∈ front, goes item = true := by
  induction front with
  | nil => simp
  | cons first later ih =>
    rw [List.cons_append, List.takeWhile_cons, List.forall_mem_cons]
    cases goes first with
    | false => simp
    | true => simp [ih]

/-- Statements at the start of a file stay in front of added imports exactly if the first is
documentation or an import from `__future__`, and the others are such imports. -/
theorem prefix_splitPrologue_iff (first : Statement) (later back : List Statement) :
    (first :: later) <+: (splitPrologue (first :: (later ++ back))).1 ↔
      (isDocumentation first = true ∨ isFutureImport first = true) ∧
        ∀ statement ∈ later, isFutureImport statement = true := by
  rw [splitPrologue]
  by_cases noticed : (isDocumentation first || isFutureImport first) = true
  · rw [if_pos noticed, List.prefix_cons_inj, prefix_takeWhile_iff]
    rw [Bool.or_eq_true] at noticed
    exact (and_iff_right noticed).symm
  · rw [if_neg noticed]
    rw [Bool.or_eq_true] at noticed
    simp [noticed]

/-- Documentation at the start of a file stays in front of added imports exactly if it stands alone
on its line and is one literal. -/
theorem documentation_stays_iff {above : List Line} {item : Item} {others : List Item}
    {ending : LineEnd} {later : List Statement} (documents : item.documents = true) :
    [.simple above (item :: others) ending] <+:
        (splitPrologue (.simple above (item :: others) ending :: later)).1 ↔
      others = [] ∧ item.form = .value .literal := by
  refine (prefix_splitPrologue_iff _ [] later).trans ?_
  rw [isFutureImport_of_documents documents]
  constructor
  · rintro ⟨noticed | impossible, -⟩
    · rcases holdsOne_of_noticed (.inl noticed) with ⟨_, _, _, same, -⟩
      cases same
      exact ⟨rfl, (isDocumentation_iff documents).1 noticed⟩
    · cases impossible
  · rintro ⟨rfl, form⟩
    exact ⟨.inl ((isDocumentation_iff documents).2 form), nofun⟩

/-- A line of imports from `__future__` that holds one small statement is noticed. -/
theorem isFutureImport_of_holdsOne {statement : Statement} (one : statement.HoldsOne)
    (imports : ∀ item ∈ statement.items, item.importsFuture = true) :
    isFutureImport statement = true := by
  rcases one with ⟨above, item, ending, rfl, -⟩
  exact isFutureImport_of_importsFuture (imports item (List.mem_singleton_self item))

/-- A line on which a prologue starts is noticed if it holds one small statement. -/
theorem noticed_of_holdsOne {statement : Statement} {later : List Item} (one : statement.HoldsOne)
    (prologue : ArePrologue (statement.items ++ later)) :
    (isDocumentation statement = true ∨ isFutureImport statement = true) ∧
      ∀ item ∈ later, item.importsFuture = true := by
  rcases one with ⟨above, item, ending, rfl, literal⟩
  refine ⟨?_, prologue.2⟩
  rcases prologue.1 with documents | imports
  · exact .inl ((isDocumentation_iff documents).2 (literal documents))
  · exact .inr (isFutureImport_of_importsFuture imports)

/-- An import from `__future__` behind nothing but a prologue stays in front of added imports exactly
if each line down to its own holds one small statement. -/
theorem futureImport_stays_iff {before after : List Statement} {line : Statement}
    (behind : ImportsFutureBehind before line) :
    (before ++ [line]) <+: (splitPrologue (before ++ line :: after)).1 ↔
      ∀ statement ∈ before ++ [line], statement.HoldsOne := by
  rcases behind with ⟨lines, above, front, item, back, ending, rfl, imports, prologue⟩
  -- if the line holds one small statement, that is the import
  have alone : (Statement.simple above (front ++ item :: back) ending).HoldsOne →
      front = [] ∧ back = [] := by
    rintro ⟨_, other, _, same, -⟩
    cases front with
    | nil =>
      cases same
      exact ⟨rfl, rfl⟩
    | cons => simp at same
  cases before with
  | nil =>
    refine (prefix_splitPrologue_iff _ [] after).trans ?_
    constructor
    · rintro ⟨noticed, -⟩ statement member
      rw [List.mem_singleton.1 member]
      exact holdsOne_of_noticed noticed
    · intro one
      rcases alone (one _ (List.mem_singleton_self _)) with ⟨rfl, rfl⟩
      exact ⟨.inr (isFutureImport_of_importsFuture imports), nofun⟩
  | cons first others =>
    rw [List.cons_append, List.cons_append, List.append_cons others _ after,
      prefix_splitPrologue_iff]
    constructor
    · rintro ⟨noticed, rest⟩
      rw [List.forall_mem_cons]
      exact ⟨holdsOne_of_noticed noticed,
        fun statement member => holdsOne_of_noticed (.inr (rest statement member))⟩
    · intro one
      rw [List.forall_mem_cons] at one
      rw [List.flatMap_cons, List.append_assoc] at prologue
      have opening := noticed_of_holdsOne one.1 prologue
      refine ⟨opening.1, fun statement member => ?_⟩
      have single := one.2 statement member
      refine isFutureImport_of_holdsOne single fun small among => ?_
      rcases List.mem_append.1 member with inner | own
      · exact opening.2 small (List.mem_append_left _ (List.mem_flatMap.2 ⟨_, inner, among⟩))
      · rw [List.mem_singleton.1 own] at single among
        rcases alone single with ⟨rfl, rfl⟩
        rw [List.mem_singleton.1 among]
        exact imports

/-! ## Added imports -/

/-- What becomes of a file to which imports are added: the prologue is kept in front of them, and the
rest behind them. -/
theorem addImports_eq_some {required : List Text} {file result : SourceFile} {added : List Text}
    (done : addImports required file = some (result, added)) :
    ∃ inserted,
      List.Forall₂ (fun name statement => importStatement? name = some statement) added inserted ∧
        result = { file with
          body := (splitPrologue file.body).1 ++ inserted ++ (splitPrologue file.body).2 } := by
  unfold addImports at done
  rcases Option.bind_eq_some_iff.1 done with ⟨inserted, mapped, rest⟩
  have imports := forall₂_of_mapM_eq_some mapped
  split at rest
  case isTrue nothing =>
    cases rest
    refine ⟨[], .nil, ?_⟩
    rw [List.append_nil, splitPrologue_append]
  case isFalse =>
    cases rest
    exact ⟨inserted, imports, rfl⟩

/-- Imports are added as one run of statements between lines of a file.  Documentation that the file
starts with stays in front of them exactly if it stands alone on its line and is one literal.  Of the
imports from `__future__`, one that has nothing in front of it but documentation and others of its
kind stays in front of the added ones exactly if each line down to its own holds one small statement,
and documentation there is one literal. -/
theorem addImports_prologue_iff {required : List Text} {file result : SourceFile}
    {added : List Text} (done : addImports required file = some (result, added)) :
    ∃ front inserted back,
      file.body = front ++ back ∧
        List.Forall₂ (fun name statement => importStatement? name = some statement)
          added inserted ∧
        result = { file with body := front ++ inserted ++ back } ∧
        (∀ above item others ending later,
          file.body = .simple above (item :: others) ending :: later → item.documents = true →
            ([.simple above (item :: others) ending] <+: front ↔
              others = [] ∧ item.form = .value .literal)) ∧
        ∀ before line after, file.body = before ++ line :: after →
          ImportsFutureBehind before line →
            ((before ++ [line]) <+: front ↔ ∀ statement ∈ before ++ [line], statement.HoldsOne) := by
  rcases addImports_eq_some done with ⟨inserted, imports, same⟩
  refine ⟨_, inserted, _, (splitPrologue_append file.body).symm, imports, same, ?_, ?_⟩
  · intro above item others ending later starts documents
    rw [starts]
    exact documentation_stays_iff documents
  · intro before line after parts behind
    rw [parts]
    exact futureImport_stays_iff behind

/-- Documentation, and below it an import from `__future__` that shares its line. -/
def sharedLine : Text :=
  "\"a\"\nfrom __future__ import division; x\n"

/-- Whether statements are documentation alone on its line, and below it an import from `__future__`
with something behind it. -/
def sharesLine : List Statement → Bool
  | [.simple _ [first] _, .simple _ (second :: _ :: _) _] =>
    first.documents && (match first.form with
      | .value .literal => true
      | _ => false) && second.importsFuture
  | _ => false

/-- In the example the documentation stays in front of an added import, and the import from
`__future__` does not. -/
theorem addImports_sharedLine_prologue : ∃ file result added documentation line inserted,
    SourceFile.parse? sharedLine = some file ∧
      addImports ["copy"] file = some (result, added) ∧ added.length = 1 ∧
      file.body = [documentation, line] ∧
      result.body = documentation :: inserted ++ [line] ∧ inserted.length = 1 := by
  have shape : ((SourceFile.parse? sharedLine).any fun file =>
      sharesLine file.body &&
        (addImports ["copy"] file).any (·.2.length == 1)) = true := by decide +kernel
  cases parsed : SourceFile.parse? sharedLine with
  | none =>
    rw [parsed] at shape
    cases shape
  | some file =>
    rw [parsed, Option.any_some, Bool.and_eq_true] at shape
    rcases shape with ⟨shares, adds⟩
    cases done : addImports ["copy"] file with
    | none =>
      rw [done] at adds
      cases adds
    | some found =>
      rcases found with ⟨result, added⟩
      rw [done, Option.any_some, beq_iff_eq] at adds
      rcases addImports_prologue_iff done with
        ⟨front, inserted, back, whole, imports, rfl, documentation, futures⟩
      unfold sharesLine at shares
      split at shares
      case h_2 => cases shares
      case h_1 body above first ending below second third others closing starts =>
        simp only [Bool.and_eq_true] at shares
        rcases shares with ⟨⟨documents, literal⟩, importsFuture⟩
        have form : first.form = .value .literal := by
          split at literal
          case h_1 same => exact same
          case h_2 => cases literal
        have kept := (documentation _ _ _ _ _ starts documents).2 ⟨rfl, form⟩
        have behind : ImportsFutureBehind [.simple above [first] ending]
            (.simple below (second :: third :: others) closing) :=
          ⟨fun statement member => ⟨_, _, _, List.mem_singleton.1 member⟩,
            ⟨below, [], second, third :: others, closing, rfl, importsFuture, .inl documents,
              nofun⟩⟩
        have moved : ¬ [.simple above [first] ending,
            .simple below (second :: third :: others) closing] <+: front := by
          intro both
          have one := (futures [.simple above [first] ending] _ [] starts behind).1 both _
            (List.mem_append_right _ (List.mem_singleton_self _))
          rcases one with ⟨_, _, _, same, -⟩
          cases same
        have counted : inserted.length = 1 := imports.length_eq.symm.trans adds
        refine ⟨file, _, added, _, _, inserted, rfl, done, adds, starts, ?_, counted⟩
        -- the front is one of the three fronts of the two lines, and two of them are excluded
        rcases kept with ⟨rest, rfl⟩
        rw [starts] at whole
        cases rest with
        | nil =>
          cases whole
          rfl
        | cons next more =>
          have same := (List.cons.inj (List.cons.inj whole).2).1
          exact absurd ⟨more, by rw [same]; rfl⟩ moved

end OpenRecord
