import OpenRecord.Code.Term
import OpenRecord.Proofs.Code.ReadableLines

namespace OpenRecord
namespace Code

/-!
# Terms and commands that can be read

A term is read as a value if its names are names of the language and its texts need no escapes.  Only a
name with attributes is called or assigned to, and a call with arguments by name stands alone, because it
goes on over several lines.  Commands of such terms are rows and blocks.
-/

open Source

/-! ## Between the tokens -/

/-- A character that goes on neither with a word nor with a symbol. -/
def EndsPhrase (c : Char) : Prop :=
  EndsWord c ∧ EndsSymbol c

instance (c : Char) : Decidable (EndsPhrase c) :=
  inferInstanceAs (Decidable (_ ∧ _))

theorem blanks_of_isIndent {gap : Text} (blank : ∀ x ∈ gap, Text.isIndent x = true) : Blanks gap := by
  induction gap with
  | nil => exact .nil
  | cons c gap ih =>
    rw [List.forall_mem_cons] at blank
    exact .blank blank.1 (ih blank.2)

theorem separates_of_plain {nest : List Nest} (plain : PlainNest nest) (gap : Text)
    (blank : ∀ x ∈ gap, Text.isIndent x = true) : Separates nest gap := by
  cases plain with
  | outside => exact separates_blanks gap blank
  | bracket closer outer => exact separates_brackets (blanks_of_isIndent blank)

theorem separates_nothing {nest : List Nest} (plain : PlainNest nest) : Separates nest [] :=
  separates_of_plain plain [] nofun

theorem separates_space {nest : List Nest} (plain : PlainNest nest) : Separates nest [' '] :=
  separates_of_plain plain [' '] (List.forall_mem_singleton.2 rfl)

theorem endsSymbol_of_isWordChar {c : Char} (word : isWordChar c = true)
    (letter : Text.isAsciiDigit c = false) : EndsSymbol c := by
  refine ⟨fun listed => ?_, letter⟩
  have none_there : ['*', '/', '<', '=', '>', '.'].all (fun x => !isWordChar x) = true := rfl
  have other := List.all_eq_true.1 none_there c listed
  rw [word] at other
  cases other

theorem begins_of_isName {name : Text} (named : name.IsName) : Begins EndsSymbol name := by
  rcases exists_cons_of_isName named with ⟨c, later, rfl, word, letter⟩
  exact begins_cons (endsSymbol_of_isWordChar word letter) later

/-! ## Names with attributes -/

/-- A name, perhaps with attributes. -/
def Term.Dotted : Term → Prop
  | .name identifier => identifier.IsName
  | .attribute value identifier => value.Dotted ∧ identifier.IsName
  | _ => False

/-- What a name with attributes is read as. -/
def Term.target : Term → Expression
  | .name identifier => .name identifier
  | .attribute value identifier => .attribute value.target identifier
  | _ => .other

/-- The name that a term starts with. -/
def Term.leading : Term → Text
  | .name identifier => identifier
  | .attribute value _ => value.leading
  | .call function _ => function.leading
  | .construct function _ => function.leading
  | _ => []

theorem Term.Dotted.isTarget {term : Term} (dotted : term.Dotted) : term.target.isTarget = true := by
  cases term <;> first | rfl | cases dotted

/-- Tokens that are read as a value, and start with a name behind which a point stands, if anything. -/
structure ReadsDotted (term : Term) (tokens : List Token) : Prop where
  primary : IsPrimary term.target tokens
  leads : ∃ gap later, tokens = ⟨gap, .name, term.leading⟩ :: later ∧
    ∀ second ∈ later.head?, second.kind = .symbol .dot

theorem Shows.exists_singleton {kind : TokenKind} {text : Text} {tokens : List Token}
    (shows : Shows [(kind, text)] tokens) : ∃ gap, tokens = [⟨gap, kind, text⟩] := by
  rcases List.map_eq_singleton_iff.1 shows with ⟨⟨gap, kind, text⟩, rfl, same⟩
  cases same
  exact ⟨gap, rfl⟩

theorem symbol_dot : symbol ['.'] = some (.dot, ['.'], []) := by decide

theorem Term.Dotted.scansAs {term : Term} (dotted : term.Dotted) {nest : List Nest}
    (plain : PlainNest nest) : ScansAs nest nest EndsWord term.line (ReadsDotted term) := by
  induction term using Term.Dotted.induct with
  | case1 identifier =>
    refine (scansAs_name dotted nest).mono fun tokens shows => ?_
    rcases Shows.exists_singleton shows with ⟨gap, rfl⟩
    exact ⟨.name gap identifier, gap, [], rfl, nofun⟩
  | case2 value identifier ih =>
    have point : ScansAs nest nest EndsSymbol ['.'] (Shows [(.symbol .dot, ['.'])]) :=
      scansAs_symbol plain symbol_dot rfl
    have name := scansAs_name dotted.2 nest
    have behind := point.append name (separates_nothing plain)
      (begins_of_isName dotted.2)
    have whole := (ih dotted.1).append behind (separates_nothing plain)
      (begins_cons (by decide) _)
    refine whole.mono ?_
    rintro _ ⟨_, _, rfl, ⟨primary, gap, later, rfl, second⟩, _, _, rfl, first, last⟩
    rcases Shows.exists_singleton first with ⟨dotGap, rfl⟩
    rcases Shows.exists_singleton last with ⟨nameGap, rfl⟩
    refine ⟨primary.withAttribute dotGap nameGap ['.'] identifier, gap, _, rfl, ?_⟩
    cases later with
    | nil =>
      rintro _ ⟨⟩
      rfl
    | cons => exact second
  | case3 term unnamed whole =>
    cases term <;> first | cases dotted; done | exact (unnamed _ rfl).elim | exact (whole _ _ rfl).elim

theorem Term.Dotted.begins : ∀ {term : Term}, term.Dotted → Begins EndsSymbol term.line
  | .name _, dotted => begins_of_isName dotted
  | .attribute _ _, dotted => (Term.Dotted.begins dotted.1).append _

/-! ## Lists in brackets -/

/-- Nothing, or a text that is scanned as tokens of which something is known. -/
def Inside (nest : List Nest) (text : Text) (known : List Token → Prop) : Prop :=
  text = [] ∧ known [] ∨ ScansAs nest nest EndsPhrase text known ∧ Begins EndsSymbol text

/-- Tokens between round brackets. -/
def Enclosed (known : List Token → Prop) (tokens : List Token) : Prop :=
  ∃ openGap closeGap inner, known inner ∧ tokens = ⟨openGap, .symbol .openRound, ['(']⟩ ::
    (inner ++ [⟨closeGap, .symbol .closeRound, [')']⟩])

section Brackets

variable {nest : List Nest} (plain : PlainNest nest)

include plain

theorem scansAs_openRound :
    ScansAs nest (.bracket .closeRound :: nest) EndsSymbol ['('] (Shows [(.symbol .openRound, ['('])]) :=
  scansAs_symbol plain (by decide) rfl

omit plain in
theorem scansAs_closeRound :
    ScansAs (.bracket .closeRound :: nest) nest EndsSymbol [')']
      (Shows [(.symbol .closeRound, [')'])]) :=
  scansAs_symbol (.bracket _ _) (by decide) rfl

theorem scansAs_equal : ScansAs nest nest EndsSymbol ['='] (Shows [(.symbol .equal, ['='])]) :=
  scansAs_symbol plain (by decide) rfl

theorem scansAs_comma : ScansAs nest nest EndsSymbol [','] (Shows [(.symbol .comma, [','])]) :=
  scansAs_symbol plain (by decide) rfl

/-- What stands in brackets is scanned with them. -/
theorem scansAs_enclosed {inner : Text} {known : List Token → Prop}
    (inside : Inside (.bracket .closeRound :: nest) inner known) :
    ScansAs nest nest EndsSymbol ('(' :: inner ++ [')']) (Enclosed known) := by
  have closing := @scansAs_closeRound nest
  have within : Separates (.bracket .closeRound :: nest) [] :=
    separates_nothing (.bracket _ _)
  rcases inside with ⟨rfl, holds⟩ | ⟨scans, begins⟩
  · have whole := (scansAs_openRound plain).append closing within (begins_cons (by decide) _)
    refine whole.mono ?_
    rintro _ ⟨_, _, rfl, first, last⟩
    rcases Shows.exists_singleton first with ⟨openGap, rfl⟩
    rcases Shows.exists_singleton last with ⟨closeGap, rfl⟩
    exact ⟨openGap, closeGap, [], holds, rfl⟩
  · have behind := scans.append closing within (begins_cons (by decide) _)
    have whole := (scansAs_openRound plain).append behind within (begins.append _)
    refine whole.mono ?_
    rintro _ ⟨_, _, rfl, first, tokens, _, rfl, holds, last⟩
    rcases Shows.exists_singleton first with ⟨openGap, rfl⟩
    rcases Shows.exists_singleton last with ⟨closeGap, rfl⟩
    exact ⟨openGap, closeGap, tokens, holds, rfl⟩

/-- Texts with commas between them are scanned as a list of what they are scanned as. -/
theorem scansAs_join {item : List Token → Prop} (list : List Token → Prop)
    (last : ∀ tokens, item tokens → list tokens)
    (more : ∀ tokens comma later, item tokens → comma.kind = .symbol .comma → list later →
      list (tokens ++ comma :: later))
    {first : Text} {later : List Text}
    (each : ∀ text ∈ first :: later,
      ScansAs nest nest EndsPhrase text item ∧ Begins EndsSymbol text) :
    ScansAs nest nest EndsPhrase (Text.join [',', ' '] (first :: later)) list ∧
      Begins EndsSymbol (Text.join [',', ' '] (first :: later)) := by
  induction later generalizing first with
  | nil =>
    have own := each first (List.mem_cons_self ..)
    simpa [Text.join, List.intercalate] using And.intro (own.1.mono last) own.2
  | cons second later ih =>
    rw [List.forall_mem_cons] at each
    rcases ih each.2 with ⟨others, -⟩
    have behind := (scansAs_comma plain).append others (separates_space plain)
      (begins_cons (by decide) _)
    have whole := each.1.1.append behind (separates_nothing plain) (begins_cons (by decide) _)
    have shape : Text.join [',', ' '] (first :: second :: later) =
        first ++ ([] ++ ([','] ++ ([' '] ++ Text.join [',', ' '] (second :: later)))) := by
      simp [Text.join, List.intercalate, List.intersperse]
    rw [shape]
    refine ⟨whole.mono ?_, each.1.2.append _⟩
    rintro _ ⟨tokens, _, rfl, holds, _, rest, rfl, comma, known⟩
    rcases Shows.exists_singleton comma with ⟨gap, rfl⟩
    exact more tokens _ rest holds rfl known

/-- So are no texts, if no tokens are such a list. -/
theorem inside_join {item : List Token → Prop} (list : List Token → Prop) (none : list [])
    (last : ∀ tokens, item tokens → list tokens)
    (more : ∀ tokens comma later, item tokens → comma.kind = .symbol .comma → list later →
      list (tokens ++ comma :: later))
    {texts : List Text}
    (each : ∀ text ∈ texts, ScansAs nest nest EndsPhrase text item ∧ Begins EndsSymbol text) :
    Inside nest (Text.join [',', ' '] texts) list := by
  cases texts with
  | nil => exact .inl ⟨rfl, none⟩
  | cons first later => exact .inr (scansAs_join plain list last more each)

end Brackets

/-! ## Terms on one line -/

/-- A text that stands for itself between double marks. -/
def Unescaped (chars : Text) : Prop :=
  ∀ c ∈ chars, c ≠ '\x5c' ∧ c ≠ Text.doubleMark ∧ Text.isBreak c = false

instance (chars : Text) : Decidable (Unescaped chars) :=
  List.decidableBAll (fun c => c ≠ '\x5c' ∧ c ≠ Text.doubleMark ∧ Text.isBreak c = false) chars

mutual

/-- A term that is read as a value from one line. -/
def Term.Readable : Term → Prop
  | .name identifier => identifier.IsName
  | .absent => True
  | .boolean _ => True
  | .string chars => Unescaped chars
  | .attribute value identifier => value.Dotted ∧ identifier.IsName
  | .call function arguments => function.Dotted ∧ TermsReadable arguments
  | .construct _ _ => False

def TermsReadable : List Term → Prop
  | [] => True
  | first :: later => first.Readable ∧ TermsReadable later

end

theorem Term.Dotted.readable : ∀ {term : Term}, term.Dotted → term.Readable
  | .name _, dotted => dotted
  | .attribute _ _, dotted => dotted

theorem Term.Readable.begins : ∀ {term : Term}, term.Readable → Begins EndsSymbol term.line
  | .name _, readable => begins_of_isName readable
  | .absent, _ => begins_cons (by decide) _
  | .boolean true, _ => begins_cons (by decide) _
  | .boolean false, _ => begins_cons (by decide) _
  | .string _, _ => begins_cons (by decide) _
  | .attribute _ _, readable => (Term.Dotted.begins readable.1).append _
  | .call _ _, readable => (Term.Dotted.begins readable.1).append _

/-- Tokens that are read as some value, of which the first one may be known. -/
structure ReadsValue (term : Term) (tokens : List Token) : Prop where
  primary : ∃ value, IsPrimary value tokens
  leads : ∀ first ∈ tokens.head?, first.kind = .name → first.text = term.leading

theorem scansAs_string {chars : Text} (unescaped : Unescaped chars) (nest : List Nest) :
    ScansAs nest nest (isMark · = false) (Term.string chars).line
      (Shows [(.literal, (Term.string chars).line)]) := by
  have guarded : Guarded Text.doubleMark chars := by
    have own := (@guarded_append Text.doubleMark chars [] unescaped).2 trivial
    rwa [List.append_nil] at own
  exact scansAs_quoted (by decide) guarded nest

theorem scansAs_constant (word : Text) (keyword : Keyword)
    (known : (word, keyword) ∈ Keyword.spellings)
    (constant : keyword ∈ [.noneWord, .trueWord, .falseWord]) (term : Term) (nest : List Nest) :
    ScansAs nest nest EndsWord word (ReadsValue term) := by
  refine (scansAs_keyword word keyword known nest).mono fun tokens shows => ?_
  rcases Shows.exists_singleton shows with ⟨gap, rfl⟩
  exact ⟨⟨_, .constant gap word constant⟩, by rintro _ ⟨⟩ ⟨⟩⟩

mutual

theorem Term.Readable.scansAs : ∀ {term : Term}, term.Readable → ∀ {nest : List Nest},
    PlainNest nest → ScansAs nest nest EndsPhrase term.line (ReadsValue term)
  | .name identifier, readable, nest, plain => by
    have dotted : (Term.name identifier).Dotted := readable
    refine ((dotted.scansAs plain).mono fun tokens reads => ?_).narrow fun c ends => ends.1
    rcases reads.leads with ⟨gap, later, rfl, -⟩
    exact ⟨⟨_, reads.primary⟩, by rintro _ ⟨⟩ _; rfl⟩
  | .absent, _, nest, _ =>
    (scansAs_constant "None" .noneWord (by decide) (by decide) .absent nest).narrow
      fun _ ends => ends.1
  | .boolean true, _, nest, _ =>
    (scansAs_constant "True" .trueWord (by decide) (by decide) (.boolean true) nest).narrow
      fun _ ends => ends.1
  | .boolean false, _, nest, _ =>
    (scansAs_constant "False" .falseWord (by decide) (by decide) (.boolean false) nest).narrow
      fun _ ends => ends.1
  | .string chars, readable, nest, _ => by
    refine ((scansAs_string readable nest).mono fun tokens shows => ?_).narrow fun c ends => ends.1.2
    rcases Shows.exists_singleton shows with ⟨gap, rfl⟩
    exact ⟨⟨_, .literal gap _⟩, by rintro _ ⟨⟩ ⟨⟩⟩
  | .attribute value identifier, readable, nest, plain => by
    have dotted : (Term.attribute value identifier).Dotted := readable
    refine ((dotted.scansAs plain).mono fun tokens reads => ?_).narrow fun c ends => ends.1
    rcases reads.leads with ⟨gap, later, rfl, -⟩
    exact ⟨⟨_, reads.primary⟩, by rintro _ ⟨⟩ _; rfl⟩
  | .call function arguments, ⟨dotted, others⟩, nest, plain => by
    have list := scansAs_enclosed plain (inside_join (.bracket .closeRound nest)
      (ArgumentList .positional) (.none .positional) (fun _ ⟨_, primary⟩ => .last primary)
      (fun _ _ _ ⟨_, primary⟩ separates behind => .more primary separates behind)
      (scansAs_termLines others (.bracket .closeRound nest)))
    have whole := ((dotted.scansAs plain).append list (separates_nothing plain)
      (begins_cons (by decide) _))
    refine (whole.mono ?_).narrow fun c ends => ends.2
    rintro _ ⟨_, _, rfl, ⟨primary, gap, later, rfl, -⟩, openGap, closeGap, inner, known, rfl⟩
    exact ⟨⟨_, primary.withCall known openGap closeGap ['('] [')']⟩, by rintro _ ⟨⟩ _; rfl⟩

theorem scansAs_termLines : ∀ {terms : List Term}, TermsReadable terms → ∀ {nest : List Nest},
    PlainNest nest → ∀ line ∈ termLines terms,
      ScansAs nest nest EndsPhrase line (fun tokens => ∃ value, IsPrimary value tokens) ∧
        Begins EndsSymbol line
  | [], _, _, _ => nofun
  | _ :: _, ⟨readable, others⟩, _, plain =>
    List.forall_mem_cons.2 ⟨⟨(readable.scansAs plain).mono fun _ reads => reads.primary,
      readable.begins⟩, scansAs_termLines others plain⟩

end

/-! ## Terms on several lines -/

/-- A value that may go on over several lines. -/
def Term.Built : Term → Prop
  | .construct function arguments =>
    function.Dotted ∧ ∀ pair ∈ arguments, pair.1.IsName ∧ pair.2.Readable
  | term => term.Readable

theorem joined_append (front first : Text) (more : List Text) :
    joined (front ++ first) more = front ++ joined first more := by
  simp [joined]

section Placed

variable {level : Nat → Text} {place : Nat → Text → Text} (placing : Placing level place)

include placing

/-- Arguments by name, each behind a line break, up to the bracket on the last line. -/
theorem exists_scansAs_arguments {arguments : List (Text × Term)}
    (each : ∀ pair ∈ arguments, pair.1.IsName ∧ pair.2.Readable) {nest : List Nest} (depth : Nat)
    {phase : ArgumentPhase} (unmapped : phase ≠ .mapping) :
    ∃ blanks body, ((indent (argumentLines arguments) 1 ++ [[')']]).map (place depth)).flatMap
        ('\n' :: ·) = '\n' :: (blanks ++ body) ∧ (∀ x ∈ blanks, Text.isIndent x = true) ∧
      ScansAs (.bracket .closeRound :: nest) nest EndsSymbol body fun tokens =>
        ∃ inner gap, ArgumentList phase inner ∧
          tokens = inner ++ [⟨gap, .symbol .closeRound, [')']⟩] := by
  rw [List.map_append, placing.map_indent]
  have within : PlainNest (.bracket .closeRound :: nest) := .bracket _ _
  induction arguments generalizing phase with
  | nil =>
    refine ⟨level depth, [')'], ?_, placing.levels.blank depth,
      scansAs_closeRound.mono fun tokens shows => ?_⟩
    · have last : place depth [')'] = level depth ++ [')'] := placing.solid depth (by simp) (by decide)
      simp [argumentLines, last]
    · rcases Shows.exists_singleton shows with ⟨gap, rfl⟩
      exact ⟨[], gap, .none phase, rfl⟩
  | cons pair later ih =>
    rw [List.forall_mem_cons] at each
    rcases pair with ⟨name, value⟩
    rcases each with ⟨⟨named, readable⟩, others⟩
    have named_only : ArgumentPhase.keyword ≠ .mapping := nofun
    rcases ih others named_only with ⟨blanks, body, same, blank, scans⟩
    have broken : Separates (.bracket .closeRound :: nest) ('\n' :: blanks) :=
      separates_brackets (.broken rfl (blanks_of_isIndent blank))
    have joint := separates_nothing within
    have separated := (scansAs_comma within).append scans broken (begins_cons (by decide) _)
    have valued := (readable.scansAs within).append separated joint (begins_cons (by decide) _)
    have assigned := (scansAs_equal within).append valued joint (readable.begins.append _)
    have whole := (scansAs_name named _).append assigned joint (begins_cons (by decide) _)
    refine ⟨level (depth + 1), _, ?_, placing.levels.blank _, whole.mono ?_⟩
    · have own : place (depth + 1) (name ++ '=' :: value.line ++ [',']) =
          level (depth + 1) ++ (name ++ '=' :: value.line ++ [',']) := by
        rcases exists_cons_of_isName named with ⟨c, rest, rfl, word, -⟩
        refine placing.solid _ (by simp) ?_
        rintro ⟨⟩
        cases word
      rw [argumentLines, List.map_cons, List.cons_append, List.flatMap_cons, same, own]
      simp
    · rintro _ ⟨_, _, rfl, first, _, _, rfl, second, tokens, _, rfl, valued, _, _, rfl, third, inner,
        gap, list, rfl⟩
      rcases Shows.exists_singleton first with ⟨nameGap, rfl⟩
      rcases Shows.exists_singleton second with ⟨equalGap, rfl⟩
      rcases Shows.exists_singleton third with ⟨commaGap, rfl⟩
      rcases valued.primary with ⟨found, primary⟩
      have more : ArgumentList phase (⟨nameGap, .name, name⟩ :: ⟨equalGap, .symbol .equal, ['=']⟩ ::
          tokens ++ ⟨commaGap, .symbol .comma, [',']⟩ :: inner) :=
        .moreNamed unmapped rfl rfl primary rfl list
      exact ⟨_, gap, more, by simp⟩

/-- A value is read from its lines wherever they are placed. -/
theorem Term.Built.exists_lines {term : Term} (built : term.Built) :
    ∃ first more, term.lines = first :: more ∧ Begins StartsToken first ∧
      ∀ depth, ScansAs [] [] EndsPhrase (joined first (more.map (place depth)))
        fun tokens => ∃ value, IsPrimary value tokens := by
  unfold Term.lines
  split
  case h_1 function arguments =>
    rcases built with ⟨dotted, each⟩
    have called := dotted.scansAs .outside
    refine ⟨function.line ++ ['('], indent (argumentLines arguments) 1 ++ [[')']], rfl,
      called.starts.append _, fun depth => ?_⟩
    rcases @exists_scansAs_arguments _ _ placing arguments each [] depth .positional nofun with
      ⟨blanks, body, same, blank, scans⟩
    have broken : Separates [.bracket .closeRound] ('\n' :: blanks) :=
      separates_brackets (.broken rfl (blanks_of_isIndent blank))
    have opened := (scansAs_openRound .outside).append scans broken (begins_cons (by decide) _)
    have whole := called.append opened (separates_nothing .outside)
      (begins_cons (by decide) _)
    have shape : joined (function.line ++ ['(']) ((indent (argumentLines arguments) 1 ++
        [[')']]).map (place depth)) = function.line ++ ([] ++ (['('] ++ ('\n' :: blanks ++ body))) := by
      rw [joined_append, joined, same]
      rfl
    rw [shape]
    refine (whole.mono ?_).narrow fun c ends => ends.2
    rintro _ ⟨_, _, rfl, reads, _, _, rfl, opening, inner, gap, list, rfl⟩
    rcases Shows.exists_singleton opening with ⟨openGap, rfl⟩
    exact ⟨_, reads.primary.withCall list openGap gap ['('] [')']⟩
  case h_2 other =>
    have readable : term.Readable := by
      cases term <;> first | exact built | exact (other _ _ rfl).elim
    have scans := readable.scansAs .outside
    refine ⟨term.line, [], rfl, scans.starts, fun depth => ?_⟩
    rw [List.map_nil, joined, List.flatMap_nil, List.append_nil]
    exact scans.mono fun tokens reads => reads.primary

end Placed

end Code
end OpenRecord
