import OpenRecord.Proofs.Code.ReadableDefinitions
import OpenRecord.Proofs.Source.WrittenTypes

namespace OpenRecord
namespace Code

/-!
# Types that are phrases

A type is a phrase if it is built from names with attributes, literals and calls by subscripts and by
bars.  The generic base of a class can be read in the header of another one if it is such a type without
bars, and so can the names of type parameters.
-/

open Source

/-! ## Types -/

/-- A type as it is usually written. -/
inductive TypeForm
  | plain (term : Term)
  | subscript (head : Term) (elements : List TypeForm)
  | union (front last : TypeForm)

mutual

def TypeForm.text : TypeForm → Text
  | .plain term => term.line
  | .subscript head elements =>
    head.line ++ '[' :: Text.join [',', ' '] (typeTexts elements) ++ [']']
  | .union front last => front.text ++ " | " ++ last.text

def typeTexts : List TypeForm → List Text
  | [] => []
  | first :: later => first.text :: typeTexts later

end

def TypeForm.isUnion : TypeForm → Bool
  | .union _ _ => true
  | _ => false

mutual

/-- A form whose terms can be read; bars stand side by side and no subscript is empty. -/
def TypeForm.Readable : TypeForm → Prop
  | .plain term => term.Readable
  | .subscript head elements => head.Dotted ∧ TypesReadable elements ∧ elements ≠ []
  | .union front last => front.Readable ∧ last.Readable ∧ last.isUnion = false

def TypesReadable : List TypeForm → Prop
  | [] => True
  | first :: later => first.Readable ∧ TypesReadable later

end

/-- What the tokens of a type are read as: a union, and one value if it is none. -/
structure ReadsType (form : TypeForm) (tokens : List Token) : Prop where
  union : IsUnion tokens
  primary : form.isUnion = false → ∃ value, IsPrimary value tokens

theorem readsType_of_isPrimary {form : TypeForm} {value : Expression} {tokens : List Token}
    (primary : IsPrimary value tokens) : ReadsType form tokens :=
  ⟨primary.isUnion, fun _ => ⟨value, primary⟩⟩

section Brackets

variable {nest : List Nest} (plain : PlainNest nest)

include plain in
theorem scansAs_openSquare : ScansAs nest (.bracket .closeSquare :: nest) EndsSymbol ['[']
    (Shows [(.symbol .openSquare, ['['])]) :=
  scansAs_symbol plain (by decide) rfl

theorem scansAs_closeSquare : ScansAs (.bracket .closeSquare :: nest) nest EndsSymbol [']']
    (Shows [(.symbol .closeSquare, [']'])]) :=
  scansAs_symbol (.bracket _ _) (by decide) rfl

include plain in
theorem scansAs_bar : ScansAs nest nest EndsSymbol ['|'] (Shows [(.symbol .bar, ['|'])]) :=
  scansAs_symbol plain (by decide) rfl

end Brackets

mutual

/-- A readable form is scanned as tokens that are read as a type. -/
theorem TypeForm.Readable.scansAs : ∀ {form : TypeForm}, form.Readable → ∀ {nest : List Nest},
    PlainNest nest →
      ScansAs nest nest EndsPhrase form.text (ReadsType form) ∧ Begins EndsSymbol form.text
  | .plain term, readable, nest, plain => by
    have own : term.Readable := readable
    refine ⟨(own.scansAs plain).mono fun tokens reads => ?_, own.begins⟩
    rcases reads.primary with ⟨value, primary⟩
    exact readsType_of_isPrimary primary
  | .subscript _ [], ⟨_, _, solid⟩, _, _ => absurd rfl solid
  | .subscript head (first :: later), ⟨dotted, others, _⟩, nest, plain => by
    have within : PlainNest (.bracket .closeSquare :: nest) := .bracket _ _
    have inner := scansAs_join within (fun tokens => ∃ found, ElementList found tokens)
      (fun tokens ⟨union, value, typed⟩ => ⟨_, .last union typed⟩)
      (fun tokens comma later ⟨union, value, typed⟩ separates ⟨found, behind⟩ =>
        ⟨_, .more union typed separates behind⟩)
      (scansAs_typeTexts others within)
    have closed := inner.1.append scansAs_closeSquare (separates_nothing within)
      (begins_cons (by decide) _)
    have listed := (scansAs_openSquare plain).append closed (separates_nothing within)
      (inner.2.append _)
    have whole := (dotted.scansAs plain).append listed (separates_nothing plain)
      (begins_cons (by decide) _)
    have shape : (TypeForm.subscript head (first :: later)).text = head.line ++ ([] ++ (['['] ++ ([] ++
        (Text.join [',', ' '] (typeTexts (first :: later)) ++ ([] ++ [']']))))) := by
      simp [TypeForm.text]
    rw [shape]
    refine ⟨(whole.mono ?_).narrow fun c ends => ends.2, dotted.begins.append _⟩
    rintro _ ⟨_, _, rfl, reads, _, _, rfl, opens, tokens, _, rfl, ⟨found, list⟩, closes⟩
    rcases Shows.exists_singleton opens with ⟨openGap, rfl⟩
    rcases Shows.exists_singleton closes with ⟨closeGap, rfl⟩
    exact readsType_of_isPrimary (reads.primary.withSubscript list openGap closeGap ['['] [']'])
  | .union front last, ⟨first, second, single⟩, nest, plain => by
    have left := first.scansAs plain
    have right := second.scansAs plain
    have behind := (scansAs_bar plain).append right.1 (separates_space plain)
      (begins_cons (by decide) _)
    have whole := left.1.append behind (separates_space plain) (begins_cons (by decide) _)
    have shape : (TypeForm.union front last).text = front.text ++ ([' '] ++ (['|'] ++ ([' '] ++
        last.text))) := by
      simp [TypeForm.text]
    rw [shape]
    refine ⟨whole.mono ?_, left.2.append _⟩
    rintro _ ⟨_, _, rfl, reads, _, tokens, rfl, divides, others⟩
    rcases Shows.exists_singleton divides with ⟨gap, rfl⟩
    rcases others.primary single with ⟨value, primary⟩
    exact ⟨reads.union.more rfl primary, nofun⟩

theorem scansAs_typeTexts : ∀ {forms : List TypeForm}, TypesReadable forms → ∀ {nest : List Nest},
    PlainNest nest → ∀ text ∈ typeTexts forms,
      ScansAs nest nest EndsPhrase text
          (fun tokens => IsUnion tokens ∧ ∃ value, IsExpression value tokens) ∧
        Begins EndsSymbol text
  | [], _, _, _ => nofun
  | _ :: _, ⟨readable, others⟩, _, plain =>
    have own := readable.scansAs plain
    List.forall_mem_cons.2 ⟨⟨own.1.mono fun _ reads => ⟨reads.union, reads.union.exists_isExpression⟩,
      own.2⟩, scansAs_typeTexts others plain⟩

end

theorem TypeForm.Readable.phrase {form : TypeForm} (readable : form.Readable) :
    Phrase form.text :=
  fun _ plain => (readable.scansAs plain).1.mono fun _ reads => reads.union.exists_isExpression

/-! ## Headers of generic classes -/

/-- A type in parentheses, as the base of a generic class stands in its header. -/
theorem headerPhrase_base {base : TypeForm} (readable : base.Readable)
    (single : base.isUnion = false) : HeaderPhrase ('(' :: base.text ++ [')']) := by
  have inner := readable.scansAs (.bracket .closeRound [])
  have bases : ScansAs [.bracket .closeRound] [.bracket .closeRound] EndsPhrase base.text
      (ArgumentList .positional) := inner.1.mono fun tokens reads => by
    rcases reads.primary single with ⟨value, primary⟩
    exact .last primary
  refine .inr ⟨begins_cons (by decide) _, ((scansAs_enclosed .outside (.inr ⟨bases, inner.2⟩)).mono
    ?_).narrow fun c ends => ends.2⟩
  rintro _ ⟨openGap, closeGap, tokens, list, rfl⟩
  exact isClassTail_bases list openGap closeGap ['('] [')']

/-- Names of type parameters in brackets. -/
theorem headerPhrase_names {names : List Text} (solid : names ≠ [])
    (each : ∀ name ∈ names, name.IsName) :
    HeaderPhrase ('[' :: Text.join [',', ' '] names ++ [']']) := by
  rcases List.exists_cons_of_ne_nil solid with ⟨first, later, rfl⟩
  have within : PlainNest [.bracket .closeSquare] := .bracket _ _
  have own : ∀ name ∈ first :: later, ScansAs [.bracket .closeSquare] [.bracket .closeSquare]
      EndsPhrase name (fun tokens => ∃ token : Token, token.kind = .name ∧ tokens = [token]) ∧
        Begins EndsSymbol name := by
    intro name member
    have named := each name member
    refine ⟨((scansAs_name named _).mono fun tokens shows => ?_).narrow fun c ends => ends.1,
      begins_of_isName named⟩
    rcases Shows.exists_singleton shows with ⟨gap, rfl⟩
    exact ⟨_, rfl, rfl⟩
  have inner := scansAs_join within NameList (fun _ ⟨_, called, same⟩ => same ▸ .last called)
    (fun _ _ _ ⟨_, called, same⟩ separates list => same ▸ .more called separates list) own
  have closed := inner.1.append scansAs_closeSquare (separates_nothing within)
    (begins_cons (by decide) _)
  have whole := (scansAs_openSquare .outside).append closed (separates_nothing within)
    (inner.2.append _)
  have shape : '[' :: Text.join [',', ' '] (first :: later) ++ [']'] =
      ['['] ++ ([] ++ (Text.join [',', ' '] (first :: later) ++ ([] ++ [']']))) := by
    simp
  rw [shape]
  refine .inr ⟨begins_cons (by decide) _, (whole.mono ?_).narrow fun c ends => ends.2⟩
  rintro _ ⟨_, _, rfl, opens, tokens, _, rfl, list, closes⟩
  rcases Shows.exists_singleton opens with ⟨openGap, rfl⟩
  rcases Shows.exists_singleton closes with ⟨closeGap, rfl⟩
  exact isClassTail_names list openGap closeGap ['['] [']']

end Code
end OpenRecord
