import OpenRecord.Code.Term
import OpenRecord.Proofs.Code.LineStarts
import OpenRecord.Proofs.Source.DecoratorLines

namespace OpenRecord

/-!
# Decorators in emitted code

The lines of a definition are its decorators and lines at whose starts no at sign stands.  The names
and the fixed words in them have no at sign at all.  The type expressions that are written as they
are have at least no line that starts with one, or else this is not claimed; it is the one condition
on a definition here.

What holds of the lines of a definition holds of the text that they make, in any unit of indentation
and behind any margin.
-/

open Source

namespace Text

theorem not_mem_join {c : Char} {separator : Text} {pieces : List Text} (apart : c ∉ separator)
    (each : ∀ piece ∈ pieces, c ∉ piece) : c ∉ join separator pieces := by
  unfold join
  induction pieces with
  | nil => simp [List.intercalate]
  | cons first later ih =>
    rw [List.forall_mem_cons] at each
    cases later with
    | nil => simpa [List.intercalate] using each.1
    | cons second others =>
      have rest := ih each.2
      simp only [List.intercalate, List.intersperse, List.flatten_cons, List.mem_append, not_or]
        at rest ⊢
      exact ⟨each.1, apart, rest⟩

/-- A trimmed text has no new characters. -/
theorem mem_of_mem_trim {c : Char} {text : Text} (member : c ∈ trim text) : c ∈ text := by
  unfold trim strip stripRight stripLeft at member
  rw [List.mem_reverse] at member
  have inner := (List.dropWhile_suffix _).subset member
  rw [List.mem_reverse] at inner
  exact (List.dropWhile_suffix _).subset inner

theorem steady_join {pieces : List Text} (each : ∀ piece ∈ pieces, piece.Steady) :
    (join [',', ' '] pieces).Steady := by
  unfold join
  induction pieces with
  | nil => decide
  | cons first later ih =>
    rw [List.forall_mem_cons] at each
    cases later with
    | nil => simpa [List.intercalate] using each.1
    | cons second others =>
      have rest : Level (',' :: ' ' :: List.intercalate [',', ' '] (second :: others)) :=
        (ih each.2).cons_space.level_cons rfl
      simpa [List.intercalate] using each.1.append rest

end Text

namespace Code

/-! ## Terms and commands -/

mutual

/-- A term in whose texts there is no at sign. -/
def Term.Signless : Term → Prop
  | .name identifier => '@' ∉ identifier
  | .absent => True
  | .boolean _ => True
  | .string chars => '@' ∉ chars
  | .attribute value identifier => value.Signless ∧ '@' ∉ identifier
  | .call function arguments => function.Signless ∧ TermsSignless arguments
  | .construct function arguments => function.Signless ∧ ArgumentsSignless arguments

def TermsSignless : List Term → Prop
  | [] => True
  | first :: later => first.Signless ∧ TermsSignless later

def ArgumentsSignless : List (Text × Term) → Prop
  | [] => True
  | (name, value) :: later => ('@' ∉ name ∧ value.Signless) ∧ ArgumentsSignless later

end

mutual

/-- A command in whose texts there is no at sign. -/
def Command.Signless : Command → Prop
  | .assign target value => target.Signless ∧ value.Signless
  | .evaluate value => value.Signless
  | .return value => value.Signless
  | .whenAbsent value body => value.Signless ∧ CommandsSignless body
  | .raise value => value.Signless
  | .finally body cleanup => CommandsSignless body ∧ CommandsSignless cleanup

def CommandsSignless : List Command → Prop
  | [] => True
  | first :: later => first.Signless ∧ CommandsSignless later

end

theorem commandsSignless_iff {commands : List Command} :
    CommandsSignless commands ↔ ∀ command ∈ commands, command.Signless := by
  induction commands with
  | nil => simp [CommandsSignless]
  | cons first later ih => rw [CommandsSignless, ih, List.forall_mem_cons]

/-- Arguments by name have no at sign if none of them has one. -/
theorem argumentsSignless_iff {arguments : List (Text × Term)} :
    ArgumentsSignless arguments ↔ ∀ pair ∈ arguments, '@' ∉ pair.1 ∧ pair.2.Signless := by
  induction arguments with
  | nil => simp [ArgumentsSignless]
  | cons first later ih => rw [ArgumentsSignless, ih, List.forall_mem_cons]

/-- Indented lines have no new characters but spaces. -/
theorem signless_indent {lines : List Text} (each : ∀ line ∈ lines, '@' ∉ line) (depth : Nat) :
    ∀ line ∈ indent lines depth, '@' ∉ line := by
  have spaces : '@' ∉ repeated indentUnit depth := by
    intro member
    rcases List.mem_flatten.1 member with ⟨level, among, inside⟩
    rw [List.eq_of_mem_replicate among] at inside
    exact absurd inside (by decide)
  intro line member
  rcases List.mem_map.1 member with ⟨known, among, rfl⟩
  split
  · exact List.not_mem_nil
  · rw [List.mem_append, not_or]
    exact ⟨spaces, each known among⟩

theorem signless_inParentheses {arguments : List Text}
    (each : ∀ argument ∈ arguments, '@' ∉ argument) : '@' ∉ inParentheses arguments := by
  have apart : '@' ∉ [',', ' '] := by decide
  have joined := Text.not_mem_join apart each
  simp [inParentheses, joined]

mutual

theorem Term.signless_line : ∀ term : Term, term.Signless → '@' ∉ term.line
  | .name identifier, plain => plain
  | .absent, _ => by decide
  | .boolean true, _ => by decide
  | .boolean false, _ => by decide
  | .string chars, plain => by
    have inner : '@' ∉ chars := plain
    simp [Term.line, Text.doubleMark, inner]
  | .attribute value identifier, ⟨inner, plain⟩ => by
    simp [Term.line, value.signless_line inner, plain]
  | .call function arguments, ⟨inner, others⟩ => by
    rw [Term.line, List.mem_append, not_or]
    exact ⟨function.signless_line inner,
      signless_inParentheses (signless_termLines arguments others)⟩
  | .construct function arguments, ⟨inner, others⟩ => by
    rw [Term.line, List.mem_append, not_or]
    exact ⟨function.signless_line inner,
      signless_inParentheses (signless_argumentLines arguments others)⟩

theorem signless_termLines : ∀ terms : List Term, TermsSignless terms →
    ∀ line ∈ termLines terms, '@' ∉ line
  | [], _ => nofun
  | first :: later, ⟨plain, others⟩ =>
    List.forall_mem_cons.2 ⟨first.signless_line plain, signless_termLines later others⟩

theorem signless_argumentLines : ∀ arguments : List (Text × Term), ArgumentsSignless arguments →
    ∀ line ∈ argumentLines arguments, '@' ∉ line
  | [], _ => nofun
  | (name, value) :: later, ⟨⟨plain, inner⟩, others⟩ => by
    rw [argumentLines, List.forall_mem_cons]
    exact ⟨by simp [plain, value.signless_line inner], signless_argumentLines later others⟩

end

theorem Term.signless_lines {term : Term} (plain : term.Signless) :
    ∀ line ∈ term.lines, '@' ∉ line := by
  unfold Term.lines
  split
  case h_1 function arguments =>
    have head := function.signless_line plain.1
    have inner := signless_indent (signless_argumentLines arguments plain.2) 1
    rw [List.cons_append, List.forall_mem_cons, List.forall_mem_append, List.forall_mem_singleton]
    exact ⟨by simp [head], inner, by decide⟩
  case h_2 => exact List.forall_mem_singleton.2 (term.signless_line plain)

theorem signless_leadWith {front : Text} {lines : List Text} (first : '@' ∉ front)
    (each : ∀ line ∈ lines, '@' ∉ line) : ∀ line ∈ leadWith front lines, '@' ∉ line := by
  unfold leadWith
  split
  · exact List.forall_mem_singleton.2 first
  · rw [List.forall_mem_cons] at each ⊢
    exact ⟨by simp [first, each.1], each.2⟩

mutual

theorem Command.signless_lines : ∀ command : Command, command.Signless →
    ∀ line ∈ command.lines, '@' ∉ line
  | .assign target value, ⟨left, right⟩ =>
    signless_leadWith (by simp [target.signless_line left]) (Term.signless_lines right)
  | .evaluate value, plain => Term.signless_lines plain
  | .return value, plain => signless_leadWith (by decide) (Term.signless_lines plain)
  | .whenAbsent value body, ⟨plain, inner⟩ => by
    rw [Command.lines, List.forall_mem_cons]
    exact ⟨by simp [value.signless_line plain],
      signless_indent (signless_commandLines body inner) 1⟩
  | .raise value, plain => signless_leadWith (by decide) (Term.signless_lines plain)
  | .finally body cleanup, ⟨inner, last⟩ => by
    rw [Command.lines, List.cons_append, List.forall_mem_cons, List.forall_mem_append,
      List.forall_mem_cons]
    exact ⟨by decide, signless_indent (signless_commandLines body inner) 1, by decide,
      signless_indent (signless_commandLines cleanup last) 1⟩

theorem signless_commandLines : ∀ commands : List Command, CommandsSignless commands →
    ∀ line ∈ commandLines commands, '@' ∉ line
  | [], _ => nofun
  | first :: later, ⟨plain, others⟩ =>
    List.forall_mem_append.2 ⟨first.signless_lines plain, signless_commandLines later others⟩

end

theorem signless_docstring {text : Text} (plain : '@' ∉ text) (depth : Nat) :
    ∀ line ∈ docstring text depth, '@' ∉ line := by
  have marks : '@' ∉ docMarks := by decide
  have each : ∀ line ∈ Text.lines text.trim, '@' ∉ line := fun line member inside =>
    plain (Text.mem_of_mem_trim (Text.mem_of_mem_lines member _ inside).1)
  unfold docstring
  split
  case h_1 only same =>
    rw [same, List.forall_mem_singleton] at each
    exact signless_indent (List.forall_mem_singleton.2 (by simp [marks, each])) depth
  case h_2 =>
    refine signless_indent ?_ depth
    rw [List.cons_append, List.forall_mem_cons, List.forall_mem_append, List.forall_mem_singleton]
    exact ⟨marks, each, marks⟩

/-! ## Lines with decorators -/

/-- A line at whose start no at sign stands, or an indented line that is an allowed decorator. -/
def Decorated (allowed : Expression → Prop) (line : Text) : Prop :=
  line.Level ∨ ∃ known : DecoratorLine, allowed known.value ∧
    ∃ count, line = List.replicate count ' ' ++ known.chars

variable {allowed : Expression → Prop}

theorem decorated_of_not_mem {line : Text} (plain : '@' ∉ line) : Decorated allowed line :=
  .inl (Text.level_of_not_mem plain)

theorem decorated_indent {lines : List Text} (each : ∀ line ∈ lines, Decorated allowed line)
    (depth : Nat) : ∀ line ∈ indent lines depth, Decorated allowed line := by
  intro line member
  rcases List.mem_map.1 member with ⟨known, among, rfl⟩
  split
  · exact decorated_of_not_mem List.not_mem_nil
  · rw [repeated_indentUnit]
    rcases each known among with level | ⟨decorator, fine, count, rfl⟩
    · exact .inl (level.spaces _)
    · exact .inr ⟨decorator, fine, depth * 4 + count, by
        rw [← List.replicate_append_replicate, List.append_assoc]⟩

/-- Whatever such a line is taken apart into, a decorator on it is allowed. -/
theorem Decorated.decoratesLine {line : Text} (decorated : Decorated allowed line) :
    ∀ piece ∈ Text.lines (line ++ ['\n']), DecoratesLine allowed piece := by
  rcases decorated with level | ⟨known, fine, count, rfl⟩
  · have whole : Text.Level (line ++ ['\n']) :=
      level.append (Text.level_of_not_mem (by decide))
    intro piece member rest sign
    have none_there := whole piece member
    rw [Text.startsWithSign, sign] at none_there
    cases none_there
  · have solid : ∀ x ∈ known.chars, Text.isBoundary x = false := by simpa using known.unbroken
    have unbroken : ∀ x ∈ List.replicate count ' ' ++ known.chars, Text.isBoundary x = false :=
      List.forall_mem_append.2 ⟨fun x member => by rw [List.eq_of_mem_replicate member]; rfl, solid⟩
    rw [Text.lines_append_feed unbroken, show Text.lines [] = [] from rfl,
      List.forall_mem_singleton]
    intro rest sign
    have blank : ∀ x ∈ List.replicate count ' ', Text.isIndent x = true :=
      fun x member => by rw [List.eq_of_mem_replicate member]; rfl
    rcases List.head?_eq_some_iff.1 known.head with ⟨inner, chars⟩
    rw [List.dropWhile_append_of_pos blank, chars, List.dropWhile_cons, if_neg (by decide)] at sign
    exact ⟨known, fine, chars.trans sign⟩

/-- Lines of this kind make a text in which all decorators are allowed, wherever its lines are put. -/
theorem decoratesOnly_reindent {unit margin : Text} {lines : List Text}
    (unitBlank : ∀ x ∈ unit, Text.isIndent x = true)
    (marginBlank : ∀ x ∈ margin, Text.isIndent x = true)
    (each : ∀ line ∈ lines, Decorated allowed line) :
    DecoratesOnly allowed true (reindent (emit lines) unit margin) := by
  have pieces : ∀ piece ∈ Text.lines (emit lines), DecoratesLine allowed piece :=
    forall_mem_lines_emit nofun fun line member => (each line member).decoratesLine
  have solid : ∀ piece ∈ Text.lines (emit lines), ∀ x ∈ piece, Text.isBreak x = false := by
    intro piece member x inside
    have boundary := (Text.mem_of_mem_lines member x inside).2
    simp only [Text.isBoundary, Bool.or_eq_false_iff] at boundary
    simp [boundary]
  have line : ∀ piece ∈ Text.lines (emit lines), ∀ {below : Text},
      DecoratesOnly allowed true below →
        DecoratesOnly allowed true (reindentLine unit margin piece ++ '\n' :: below) := by
    intro piece member below rest
    refine DecoratesLine.above ?_ ?_ rest
    · intro behind sign
      rw [dropWhile_reindentLine unitBlank marginBlank] at sign
      exact pieces piece member behind sign
    · intro x inside
      rcases mem_of_mem_reindentLine unitBlank marginBlank x inside with blank | among
      · exact isBreak_of_isIndent blank
      · exact solid piece member x among
  unfold reindent
  generalize Text.lines (emit lines) = written at line
  induction written with
  | nil => exact trivial
  | cons first later ih =>
    rw [List.forall_mem_cons] at line
    cases later with
    | nil =>
      have alone := line.1 (show DecoratesOnly allowed true [] from trivial)
      simpa [emit, Text.join, List.intercalate] using alone
    | cons second others =>
      rw [List.map_cons, List.map_cons, emit_cons_cons]
      exact line.1 (ih line.2)

/-! ## Definitions -/

/-- A parameter starts no line with an at sign. -/
theorem level_parameter {parameter : Parameter} (plain : '@' ∉ parameter.name)
    (steady : ∀ type, parameter.type = some type → type.Steady) : parameter.text.Level := by
  have name := Text.level_of_not_mem plain
  unfold Parameter.text
  split
  · exact name
  case h_2 type typed =>
    have behind : Text.Level (": " ++ type) := (steady type typed).cons_space.level_cons rfl
    rw [List.append_assoc]
    exact name.append behind

/-- A method in whose text all decorators are allowed: of its texts only the types may have at signs,
and these start no line. -/
structure Method.Steady (allowed : Expression → Prop) (method : Method) : Prop where
  name : '@' ∉ method.name
  parameters : ∀ parameter ∈ method.parameters, parameter.text.Level
  result : method.result.Steady
  documentation : ∀ text, method.documentation = some text → '@' ∉ text
  body : CommandsSignless method.body
  decorators : ∀ line ∈ method.decoratorLines,
    ∃ known : DecoratorLine, allowed known.value ∧ known.chars = line

theorem Method.Steady.decorated {method : Method} (steady : method.Steady allowed) :
    ∀ line ∈ method.lines, Decorated allowed line := by
  have header : Text.Level ("def " ++ method.name ++
      inParentheses (method.parameters.map (·.text)) ++ " -> " ++ method.result ++ ":") := by
    have opening : Text.Level ("def " ++ method.name) :=
      Text.level_of_not_mem (by simp [steady.name])
    have list : Text.Level (inParentheses (method.parameters.map (·.text))) := by
      have joined : Text.Steady (Text.join [',', ' '] (method.parameters.map (·.text))) :=
        Text.steady_join (List.forall_mem_map.2 fun parameter member =>
          (steady.parameters parameter member).steady)
      exact (joined.append (Text.level_of_not_mem (by decide))).level_cons rfl
    have arrow : Text.Level (" -> " ++ method.result ++ ":") := by
      have behind : Text.Level ('-' :: '>' :: ' ' :: method.result) :=
        (steady.result.cons_space.level_cons rfl).steady.level_cons rfl
      exact (behind.spaces 1).append (Text.level_of_not_mem (by decide))
    have whole := (opening.append list).append arrow
    simpa [List.append_assoc] using whole
  unfold Method.lines
  rw [List.forall_mem_append, List.forall_mem_append, List.forall_mem_cons]
  refine ⟨⟨fun line member => ?_, .inl header, ?_⟩, fun line member => ?_⟩
  · rcases steady.decorators line member with ⟨known, fine, same⟩
    exact .inr ⟨known, fine, 0, by simp [same]⟩
  · cases documented : method.documentation with
    | none => nofun
    | some text =>
      exact fun line member => decorated_of_not_mem
        (signless_docstring (steady.documentation text documented) 1 line member)
  · exact decorated_of_not_mem (signless_indent (signless_commandLines _ steady.body) 1 line member)

/-- A part of a class in whose text all decorators are allowed. -/
def Member.Steady (allowed : Expression → Prop) : Member → Prop
  | .slots names => ∀ name ∈ names, '@' ∉ name
  | .field name type _ => '@' ∉ name ∧ type.Steady
  | .method code => code.Steady allowed

theorem Member.Steady.decorated {member : Member} (steady : member.Steady allowed) :
    ∀ line ∈ member.lines, Decorated allowed line := by
  have declared : ∀ {name type : Text}, '@' ∉ name → type.Steady →
      Text.Level (name ++ ": " ++ type) := by
    intro name type plain steady
    have behind : Text.Level (": " ++ type) := steady.cons_space.level_cons rfl
    rw [List.append_assoc]
    exact (Text.level_of_not_mem plain).append behind
  cases member with
  | slots names =>
    have inner : '@' ∉ names.flatMap fun name => (Term.string name).line ++ [','] := by
      intro among
      rcases List.mem_flatMap.1 among with ⟨name, member, inside⟩
      have plain := Term.signless_line (.string name) (steady name member)
      simp [plain] at inside
    exact List.forall_mem_singleton.2 (decorated_of_not_mem (by simp [inner]))
  | field name type hidden =>
    have level := declared steady.1 steady.2
    cases hidden with
    | false => exact List.forall_mem_singleton.2 (.inl level)
    | true =>
      exact List.forall_mem_singleton.2
        (.inl (level.append (Text.level_of_not_mem (by decide))))
  | method code => exact Method.Steady.decorated steady

/-- A class in whose text all decorators are allowed. -/
structure ClassCode.Steady (allowed : Expression → Prop) (code : ClassCode) : Prop where
  name : '@' ∉ code.name
  parameters : code.parameters.Level
  documentation : '@' ∉ code.documentation
  members : ∀ member ∈ code.members, member.Steady allowed
  derivable : code.derived = true → allowed DecoratorLine.dataclass.value

theorem ClassCode.Steady.decorated {code : ClassCode} (steady : code.Steady allowed) :
    ∀ line ∈ code.lines, Decorated allowed line := by
  have header : Text.Level ("class " ++ code.name ++ code.parameters ++ ":") := by
    have opening : Text.Level ("class " ++ code.name) :=
      Text.level_of_not_mem (by simp [steady.name])
    exact (opening.append steady.parameters).append (Text.level_of_not_mem (by decide))
  unfold ClassCode.lines
  rw [List.forall_mem_append, List.forall_mem_cons]
  refine ⟨?_, .inl header, decorated_indent ?_ 1⟩
  · split
    case isTrue derived =>
      exact List.forall_mem_singleton.2 (.inr ⟨.dataclass, steady.derivable derived, 0, rfl⟩)
    case isFalse => nofun
  · rw [List.forall_mem_append, List.forall_mem_cons]
    exact ⟨fun line member =>
        decorated_of_not_mem (signless_docstring steady.documentation 0 line member),
      decorated_of_not_mem List.not_mem_nil,
      forall_mem_memberLines (decorated_of_not_mem List.not_mem_nil) fun member among =>
        (steady.members member among).decorated⟩

/-- A definition in whose text all decorators are allowed. -/
def Definition.Steady (allowed : Expression → Prop) : Definition → Prop
  | .type code => code.Steady allowed
  | .method code => code.Steady allowed

/-- **Wherever the text of such a definition is put**, all decorators in it are allowed. -/
theorem Definition.Steady.decoratesOnly {definition : Definition} {unit margin : Text}
    (steady : definition.Steady allowed) (unitBlank : ∀ x ∈ unit, Text.isIndent x = true)
    (marginBlank : ∀ x ∈ margin, Text.isIndent x = true) :
    DecoratesOnly allowed true (reindent definition.text unit margin) := by
  refine decoratesOnly_reindent unitBlank marginBlank ?_
  cases definition with
  | type code => exact ClassCode.Steady.decorated steady
  | method code => exact Method.Steady.decorated steady

end Code
end OpenRecord
