import OpenRecord.Expansion.Splice
import OpenRecord.Proofs.Generation.Headlines

namespace OpenRecord

/-!
# Artifacts read at their places

Whatever the text of an artifact contains, the statement that it is read as at its place is a
definition of the name of the artifact, and it requests nothing.  Whether it can be read there at
all is another matter, on which nothing is said here.
-/

open Source

/-! ## The block of a class around the code -/

/-- The tokens of the class around code with a margin. -/
def hostTokens : List Token :=
  [⟨[], .keyword .classWord, "class"⟩, ⟨[.chars [' ']], .name, ['_']⟩, ⟨[], .symbol .colon, [':']⟩]

/-- The line of the class around code is scanned up to its break. -/
theorem logicalLine_hostHeader (context : LineContext) (fuel : Nat) (rest : Text) :
    logicalLine context (fuel + 4) [] (hostHeader ++ rest) =
      some (hostTokens, ⟨[], .read context.usual ['\n']⟩, rest) := by
  rfl

theorem readLine_hostTokens :
    readLine false hostTokens =
      some (.header (.definition (.classDefinition ⟨['_'], [], []⟩)) hostTokens []) := by
  rfl

/-- The lines of code with the class around it are the line of the class and the lines of the
code. -/
theorem lexLines_hostHeader {rest : Text} {lines : List LogicalLine} {after : List BlankLine}
    (scanned : lexLines (hostHeader ++ rest) = some (lines, after)) :
    ∃ host later usual fuel number stack, host.tokens = hostTokens ∧ lines = host :: later ∧
      logicalLines usual fuel number stack [] rest = some (later, after) := by
  have sign : StartsToken 'c' := ⟨by decide, by decide, by decide, by decide⟩
  have written : hostHeader ++ rest = [] ++ 'c' :: (("lass _:\n" : Text) ++ rest) := by rfl
  unfold lexLines at scanned
  generalize usualBreak (hostHeader ++ rest) = usual at scanned
  rw [written] at scanned
  rcases logicalLines_append (by simp) sign scanned with
    ⟨top, below, tokens, ending, next, later, fuel, number, -, line, rfl, others⟩
  have known := logicalLine_hostHeader ⟨usual, top.chars⟩ (rest.length + 6) rest
  rw [written, List.nil_append] at known
  rw [show (("lass _:\n" : Text) ++ rest).length + 2 = rest.length + 6 + 4 by
    rw [List.length_append, show (("lass _:\n" : Text)).length = 8 by rfl]
    omega] at line
  cases line.symm.trans known
  exact ⟨_, later, usual, fuel, number, _, rfl, rfl, others⟩

/-- Lines that open with a definition, below the line of a class, are the block of the class if they
are deeper, and there is no block if they are not. -/
theorem Source.LinesOpenWith.definesAs_below {name : Text} {depth : Nat} {value : Option Expression}
    {host : LogicalLine} {lines : List LogicalLine} {after : List BlankLine} {role : Role}
    {front : List Token} {items : List Item} {header footer : List Line}
    {outer : Statement} {statement : Statement}
    (readable : readLine false host.tokens = some (.header (.definition role) front items))
    (opens : LinesOpenWith name depth value lines)
    (read : readStatements (host :: lines) after = some (header, [outer], footer))
    (inner : firstOfBlock outer = some statement) : statement.DefinesAs name value := by
  have outlines := opens.opensWith after
  rcases Forest.roots_place host (Forest.ofLines lines after) with ⟨foot, others, roots, -⟩
  change (Forest.ofLines (host :: lines) after).roots = _ at roots
  rcases readStatements_eq_some roots read with ⟨parts, found, assembled⟩
  rw [readOutlines] at found
  rcases Option.bind_eq_some_iff.1 found with ⟨part, readHost, found⟩
  rcases Option.bind_eq_some_iff.1 found with ⟨behind, -, same⟩
  cases same
  -- the lines above the class are gone, which its tokens do not show
  change readLine false ({ host with above := [] } : LogicalLine).tokens = _ at readable
  rcases read_of_definition readable readHost with ⟨head, suite, rfl, -, -, block⟩
  rcases assemble_definition assembled with ⟨none_there, same⟩
  cases same
  rw [Definition.decorated] at inner
  -- the block exists because its first statement does
  cases suite with
  | inline items ending => cases inner
  | cases opening indent clauses foot => cases inner
  | block opening indent body foot =>
    rcases block _ _ _ _ rfl with ⟨below, readBelow, assembledBelow⟩
    by_cases deeper : host.depth < depth
    · rcases (outlines.takeWhile deeper).definesAs readBelow assembledBelow with
        ⟨first, later, rfl, defines⟩
      cases inner
      exact defines
    · rw [outlines.takeWhile_eq_nil deeper] at readBelow
      cases readBelow
      cases assembledBelow
      cases inner

/-- The statement that the text of an artifact is read as at a margin is a definition of the name
in the headline of the artifact. -/
theorem definesAs_of_spliced {headline : Headline} {unit margin rest : Text} {artifact : Artifact}
    {statement : Statement} (blank : ∀ x ∈ margin, Text.isIndent x = true)
    (headed : artifact.code = headline.text [] ++ rest)
    (read : spliced unit margin artifact = some statement) :
    statement.DefinesAs headline.name headline.value := by
  rcases headline.reindent_append unit margin rest with ⟨tail, written⟩
  unfold spliced at read
  rw [headed, written] at read
  dsimp only at read
  split at read
  case isTrue atMargin =>
    subst atMargin
    exact headline.definesAs_of_parse? read
  case isFalse =>
    rcases Option.bind_eq_some_iff.1 read with ⟨outer, parsed, first⟩
    unfold Statement.parse? at parsed
    rw [show withoutByteOrderMark (hostHeader ++ (headline.text margin ++ tail)) =
      hostHeader ++ (headline.text margin ++ tail) by rfl] at parsed
    rcases Option.bind_eq_some_iff.1 parsed with ⟨⟨lines, after⟩, scanned, parsed⟩
    rcases Option.bind_eq_some_iff.1 parsed with ⟨⟨header, statements, footer⟩, found, only⟩
    rcases lexLines_hostHeader scanned with
      ⟨host, later, usual, fuel, number, stack, tokens, rfl, others⟩
    rcases headline.linesOpenWith blank others with ⟨depth, opens⟩
    split at only
    · case h_1 same =>
      cases same
      cases only
      exact opens.definesAs_below (tokens ▸ readLine_hostTokens) found first
    · cases only

/-! ## Artifacts of a model -/

/-- A definition below nothing but one of the decorators of generated code requests nothing. -/
theorem annotated_of_decorator {head : Source.Definition} {decorator : Option DecoratorLine}
    (known : decorator ∈ [none, some .dataclass, some .classmethod])
    (decorators : head.decorators.map (·.expression) = (decorator.map (·.value)).toList) :
    head.annotated = false := by
  have requests : head.capabilities = (head.decorators.map (·.expression)).filterMap
      fun expression => (Decorator.mk [] [] expression ⟨[], .usual⟩).capability := by
    rw [List.filterMap_map]
    rfl
  unfold Definition.annotated
  rw [requests, decorators]
  simp only [List.mem_cons, List.not_mem_nil, or_false] at known
  rcases known with rfl | rfl | rfl <;> decide

theorem definition_of_spliced {model : RecordModel} {settings : Settings} {artifact : Artifact}
    {unit margin : Text} {statement : Statement} (accepted : settings.Accepted)
    (nonempty : model.typeName ≠ []) (chars : ∀ x ∈ model.typeName, Text.isNameContinue x = true)
    (member : artifact ∈ synthesize model settings)
    (blank : ∀ x ∈ margin, Text.isIndent x = true)
    (read : spliced unit margin artifact = some statement) :
    ∃ head body, statement = .definition head body ∧ head.role.name = artifact.name ∧
      head.annotated = false := by
  rcases artifact.exists_headline accepted nonempty chars member with
    ⟨headline, rest, written, named, decorator⟩
  rcases definesAs_of_spliced blank written read with ⟨head, body, rfl, role, decorators⟩
  exact ⟨head, body, rfl, role.trans named, annotated_of_decorator decorator decorators⟩

end OpenRecord
