import Mathlib.Data.List.Chain
import OpenRecord.Proofs.Source.Rescanning
import OpenRecord.Proofs.Text.Parts
import OpenRecord.Source.Expression

namespace OpenRecord
namespace Source

/-!
# Runs of string literals

A text is a run of string literals if it is scanned as one literal, or as several with nothing but
blanks between them.  Blanks are here what they are between brackets, where comments and line breaks
may stand as well.

Tokens that were read from a file are rendered as text and this text is scanned again.  It is a run
of string literals exactly if each of the tokens is a string.  This needs to be known of the tokens:
blanks stand between them, none is continued by the next, and no part of a literal with replacement
fields comes behind literals only.
-/

/-! ## Blanks -/

/-- What may stand between two tokens inside brackets. -/
inductive Blanks : Text → Prop
  | nil : Blanks []
  | blank {c : Char} {rest : Text} : Text.isIndent c = true → Blanks rest → Blanks (c :: rest)
  | broken {c : Char} {rest : Text} : Text.isBreak c = true → Blanks rest → Blanks (c :: rest)
  | joined {c : Char} {rest : Text} : Text.isBreak c = true → Blanks rest →
    Blanks ('\x5c' :: c :: rest)
  | remark {remark : Text} {c : Char} {rest : Text} : (∀ x ∈ remark, Text.isBreak x = false) →
    Text.isBreak c = true → Blanks rest → Blanks ('#' :: (remark ++ c :: rest))

theorem Blanks.append {front back : Text} (first : Blanks front) (second : Blanks back) :
    Blanks (front ++ back) := by
  induction first with
  | nil => exact second
  | blank indent _ ih => exact .blank indent ih
  | broken ends _ ih => exact .broken ends ih
  | joined ends _ ih => exact .joined ends ih
  | remark unbroken ends _ ih =>
    rw [List.cons_append, List.append_assoc]
    exact .remark unbroken ends ih

theorem Blanks.head {text : Text} (blanks : Blanks text) :
    ∀ c ∈ text.head?, isWordChar c = false ∧ isMark c = false := by
  have breaks : ∀ {c}, Text.isBreak c = true → isWordChar c = false ∧ isMark c = false := by
    intro c broken
    rw [Text.isBreak, Bool.or_eq_true, beq_iff_eq, beq_iff_eq] at broken
    rcases broken with rfl | rfl <;> exact ⟨by decide, by decide⟩
  cases blanks with
  | nil =>
    intro c first
    cases first
  | blank indent =>
    rintro _ ⟨⟩
    simp only [Text.isIndent, Bool.or_eq_true, beq_iff_eq] at indent
    rcases indent with (rfl | rfl) | rfl <;> exact ⟨by decide, by decide⟩
  | broken ends =>
    rintro _ ⟨⟩
    exact breaks ends
  | joined =>
    rintro _ ⟨⟩
    exact ⟨by decide, by decide⟩
  | remark =>
    rintro _ ⟨⟩
    exact ⟨by decide, by decide⟩

theorem blanks_blankRun (text : Text) : Blanks (blankRun text).1 := by
  have push : ∀ front pair, (blankRun.push front pair).1 = front ++ pair.1 := fun _ _ => rfl
  fun_induction blankRun text with
  | case1 rest ih => exact .joined rfl (.broken rfl ih)
  | case2 rest ih => exact .joined rfl ih
  | case3 rest _ ih => exact .joined rfl ih
  | case4 c rest _ _ _ blank ih => exact .blank blank ih
  | case5 => exact .nil
  | case6 => exact .nil

/-- What stands in a text behind the blanks at its front; `remarked` says that the text begins
inside a comment. -/
def behindBlanks : Bool → Text → Text
  | _, [] => []
  | true, c :: rest => behindBlanks (!Text.isBreak c) rest
  | false, '\x5c' :: c :: rest =>
    if Text.isBreak c then behindBlanks false rest else '\x5c' :: c :: rest
  | false, c :: rest =>
    if Text.isIndent c || Text.isBreak c then behindBlanks false rest
    else if c = '#' then behindBlanks true rest
    else c :: rest

/-- Behind a character that begins no comment and joins no lines. -/
theorem behindBlanks_cons {c : Char} {rest : Text} (plain : c ≠ '\x5c') :
    behindBlanks false (c :: rest) =
      if Text.isIndent c || Text.isBreak c then behindBlanks false rest
      else if c = '#' then behindBlanks true rest
      else c :: rest := by
  rw [behindBlanks]
  rintro _ _ rfl
  exact absurd rfl plain

/-- A comment goes on up to its line break. -/
theorem behindBlanks_remark {remark : Text} (unbroken : ∀ x ∈ remark, Text.isBreak x = false)
    {c : Char} (ends : Text.isBreak c = true) (rest : Text) :
    behindBlanks true (remark ++ c :: rest) = behindBlanks false rest := by
  induction remark with
  | nil => rw [List.nil_append, behindBlanks, ends]; rfl
  | cons first later ih =>
    rw [List.forall_mem_cons] at unbroken
    rw [List.cons_append, behindBlanks, unbroken.1]
    exact ih unbroken.2

theorem Blanks.behindBlanks_append {gap : Text} (blanks : Blanks gap) {c : Char}
    (start : StartsToken c) (rest : Text) : behindBlanks false (gap ++ c :: rest) = c :: rest := by
  have plain : ∀ {x : Char}, Text.isIndent x = true ∨ Text.isBreak x = true → x ≠ '\x5c' := by
    rintro _ (blank | broken) rfl <;> contradiction
  induction blanks with
  | nil =>
    rw [List.nil_append, behindBlanks_cons start.joinsNothing, start.solid, start.unbroken,
      if_neg (by simp), if_neg start.opensNoComment]
  | blank indent _ ih =>
    rw [List.cons_append, behindBlanks_cons (plain (.inl indent)), if_pos (by simp [indent]), ih]
  | broken ends _ ih =>
    rw [List.cons_append, behindBlanks_cons (plain (.inr ends)), if_pos (by simp [ends]), ih]
  | joined ends _ ih =>
    rw [List.cons_append, List.cons_append, behindBlanks, if_pos ends, ih]
  | remark unbroken ends _ ih =>
    rw [List.cons_append, List.append_assoc, behindBlanks_cons (by decide), if_neg (by decide),
      if_pos rfl, List.cons_append, behindBlanks_remark unbroken ends, ih]

/-! ## Runs -/

/-- Whether a token is a literal of characters, and not of bytes. -/
def Token.isString (token : Token) : Bool :=
  token.kind == .literal &&
    (token.text.takeWhile (!isMark ·)).all fun letter => letter != 'b' && letter != 'B'

theorem Token.kind_of_isString {token : Token} (string : token.isString = true) :
    token.kind = .literal := by
  rw [isString, Bool.and_eq_true] at string
  exact eq_of_beq string.1

/-- A text that is scanned as a string literal and, behind blanks, further string literals up to its
end. -/
inductive LiteralRun : Text → Prop
  | last {text : Text} {token : Token} :
    lexeme [] [] text = some ⟨token, [], []⟩ → token.isString = true → LiteralRun text
  | more {text rest : Text} {token : Token} :
    lexeme [] [] text = some ⟨token, [], rest⟩ → token.isString = true →
      LiteralRun (behindBlanks false rest) → LiteralRun text

theorem LiteralRun.exists_string {text : Text} (run : LiteralRun text) :
    ∃ token rest, lexeme [] [] text = some ⟨token, [], rest⟩ ∧ token.isString = true := by
  cases run with
  | last scanned string => exact ⟨_, _, scanned, string⟩
  | more scanned string others => exact ⟨_, _, scanned, string⟩

/-- Behind its first string nothing is left of a run, or another run behind blanks. -/
theorem literalRun_iff {text rest : Text} {token : Token}
    (scanned : lexeme [] [] text = some ⟨token, [], rest⟩) :
    LiteralRun text ↔
      token.isString = true ∧ (rest = [] ∨ LiteralRun (behindBlanks false rest)) := by
  constructor
  · intro run
    cases run with
    | last again string =>
      cases scanned.symm.trans again
      exact ⟨string, .inl rfl⟩
    | more again string others =>
      cases scanned.symm.trans again
      exact ⟨string, .inr others⟩
  · rintro ⟨string, rfl | others⟩
    · exact .last scanned string
    · exact .more scanned string others

/-! ## Rendered tokens -/

/-- The layout that tokens are rendered with. -/
def renderLayout : Layout :=
  ⟨[], ['\n']⟩

theorem printTokens_cons (layout : Layout) (token : Token) (later : List Token) :
    printTokens layout (token :: later) =
      printGap layout token.gap ++ (token.text ++ printTokens layout later) := by
  rw [printTokens, List.flatMap_cons, Token.print, List.append_assoc]
  rfl

/-- A part of a literal with replacement fields that is not scanned as other tokens are. -/
def Token.InTemplate (token : Token) : Prop :=
  token.kind = .templateText ∨ token.kind = .templateClose

/-- The second of two tokens does not continue the first one: blanks stand between them, or a
character that may stand there. -/
def Token.Precedes (first second : Token) : Prop :=
  printGap renderLayout second.gap = [] → ∀ c ∈ second.text.head?, first.EndsBefore c

/-- What is known of the tokens of a line. -/
structure StandApart (tokens : List Token) : Prop where
  gaps : ∀ token ∈ tokens, Blanks (printGap renderLayout token.gap)
  written : ∀ token ∈ tokens, token.text ≠ []
  rescans : ∀ token ∈ tokens, ¬token.InTemplate → token.Rescans
  next : tokens.IsChain Token.Precedes

theorem StandApart.part {tokens some : List Token} (apart : StandApart tokens)
    (within : some <:+: tokens) : StandApart some where
  gaps token member := apart.gaps token (within.subset member)
  written token member := apart.written token (within.subset member)
  rescans token member := apart.rescans token (within.subset member)
  next := List.IsChain.infix apart.next within

/-- No part of a literal with replacement fields comes behind literals only. -/
def OpensTemplates (tokens : List Token) : Prop :=
  ∀ front token later, tokens = front ++ token :: later → (∀ x ∈ front, x.kind = .literal) →
    ¬token.InTemplate

theorem OpensTemplates.behind {token : Token} {later : List Token}
    (opens : OpensTemplates (token :: later)) (literal : token.kind = .literal) :
    OpensTemplates later :=
  fun front next others whole literals =>
    opens (token :: front) next others (by rw [whole]; rfl)
      (List.forall_mem_cons.2 ⟨literal, literals⟩)

/-- Tokens as text, without blanks at the end. -/
def renderBehind (tokens : List Token) : Text :=
  Text.stripRight Text.isSpace (printTokens renderLayout tokens)

/-- A token and those behind it as text, without blanks in front and at the end. -/
def renderFrom (first : Token) (later : List Token) : Text :=
  Text.stripRight Text.isSpace (first.text ++ printTokens renderLayout later)

/-- The first character of what is left when the end is taken off. -/
theorem head?_of_stripRight {p : Char → Bool} {c : Char} {text : Text}
    (first : c ∈ (Text.stripRight p text).head?) : c ∈ text.head? := by
  rcases Text.exists_stripLeft p text.reverse with ⟨back, parts, -⟩
  have whole : text = Text.stripRight p text ++ back.reverse := by
    rw [← List.reverse_inj, parts, List.reverse_append, List.reverse_reverse]
    simp [Text.stripRight, Text.stripLeft]
  rw [Option.mem_def, List.head?_eq_some_iff] at first
  rcases first with ⟨rest, shape⟩
  rw [whole, shape]
  rfl

theorem StandApart.endsBefore {token : Token} {later : List Token}
    (apart : StandApart (token :: later)) (rescans : token.Rescans) :
    ∀ c ∈ (renderBehind later).head?, token.EndsBefore c := by
  intro c first
  have first := head?_of_stripRight first
  cases later with
  | nil => cases first
  | cons next others =>
    rw [printTokens_cons] at first
    have blanks := apart.gaps next (List.mem_cons_of_mem _ (List.mem_cons_self ..))
    cases gap : printGap renderLayout next.gap with
    | nil =>
      have written := apart.written next (List.mem_cons_of_mem _ (List.mem_cons_self ..))
      rcases List.exists_cons_of_ne_nil written with ⟨d, behind, text⟩
      rw [gap, text] at first
      cases first
      exact (List.isChain_cons_cons.1 apart.next).1 gap _ (by rw [text]; rfl)
    | cons d behind =>
      rw [gap] at first blanks
      cases first
      have outside := blanks.head _ rfl
      exact rescans.endsBefore outside.1 outside.2

theorem not_literalRun_of_strange {token : Token} {later : List Token}
    (apart : StandApart (token :: later)) (strange : token.Strange) :
    ¬LiteralRun (renderFrom token later) := by
  rcases strange.never with ⟨front, back, text, nonempty, solid, never⟩
  intro run
  rcases run.exists_string with ⟨found, rest, scanned, string⟩
  have kept : renderFrom token later =
      front ++ Text.stripRight Text.isSpace (back ++ printTokens renderLayout later) := by
    rcases List.eq_nil_or_concat front with rfl | ⟨init, c, rfl⟩
    · exact absurd rfl nonempty
    · have stop := (solid c (by simp)).1
      rw [renderFrom, text, List.concat_eq_append, List.append_assoc, List.append_assoc,
        List.singleton_append, Text.stripRight_of_stop stop, List.append_assoc,
        List.singleton_append]
  rw [kept] at scanned
  refine never _ _ _ _ ?_ scanned (Token.kind_of_isString string)
  rintro rfl
  exact apart.endsBefore (.inr strange)

/-- A literal is scanned as itself at the front of what it is rendered to with the tokens behind
it. -/
theorem lexeme_renderFrom {token : Token} {later : List Token}
    (apart : StandApart (token :: later)) (stable : token.Stable) :
    lexeme [] [] (renderFrom token later) =
      some ⟨⟨[], .literal, token.text⟩, [], renderBehind later⟩ := by
  have kept : renderFrom token later = token.text ++ renderBehind later := by
    rcases stable.closed with ⟨front, mark, text, marks⟩
    have stop := (solid_of_isMark marks).1
    rw [renderFrom, renderBehind, text, List.append_assoc, List.append_assoc, List.singleton_append,
      Text.stripRight_of_stop stop, List.singleton_append]
  rw [kept]
  exact stable.again [] [] _ (apart.endsBefore (.inl stable))

theorem exists_renderFrom {token : Token} {later : List Token} (written : token.text ≠ [])
    (rescans : token.Rescans) : ∃ c rest, StartsToken c ∧ renderFrom token later = c :: rest ∧
      renderBehind (token :: later) = printGap renderLayout token.gap ++ c :: rest := by
  rcases List.exists_cons_of_ne_nil written with ⟨c, rest, text⟩
  have solid := rescans.solid c (by rw [text]; rfl)
  refine ⟨c, Text.stripRight Text.isSpace (rest ++ printTokens renderLayout later), solid.2, ?_, ?_⟩
  · have alone := Text.stripRight_of_stop solid.1 [] (rest ++ printTokens renderLayout later)
    rwa [List.nil_append, List.nil_append, ← List.cons_append, ← text] at alone
  · rw [renderBehind, printTokens_cons, text, List.cons_append, Text.stripRight_of_stop solid.1]

/-- Where a literal stands first, it has to be a string, and nothing stands behind it or another
run. -/
theorem literalRun_of_stable {token : Token} {later : List Token}
    (apart : StandApart (token :: later)) (stable : token.Stable) :
    LiteralRun (renderFrom token later) ↔ token.isString = true ∧
      (renderBehind later = [] ∨ LiteralRun (behindBlanks false (renderBehind later))) := by
  have same : Token.isString ⟨[], .literal, token.text⟩ = token.isString := by
    rw [Token.isString, Token.isString, stable.kind]
  rw [literalRun_iff (lexeme_renderFrom apart stable), same]

theorem literalRun_renderFrom {token : Token} {later : List Token}
    (apart : StandApart (token :: later)) (opens : OpensTemplates (token :: later)) :
    LiteralRun (renderFrom token later) ↔ ∀ x ∈ token :: later, x.isString = true := by
  have rescans := apart.rescans token (List.mem_cons_self ..) (opens [] token later rfl nofun)
  cases rescans with
  | inr strange =>
    refine iff_of_false (not_literalRun_of_strange apart strange) fun strings => ?_
    exact strange.kind (Token.kind_of_isString (strings token (List.mem_cons_self ..)))
  | inl stable =>
    rw [literalRun_of_stable apart stable, List.forall_mem_cons]
    refine and_congr_right fun _ => ?_
    cases later with
    | nil => exact iff_of_true (.inl rfl) nofun
    | cons next others =>
      have opens := opens.behind stable.kind
      have member : next ∈ token :: next :: others := List.mem_cons_of_mem _ (List.mem_cons_self ..)
      have rescans := apart.rescans next member (opens [] next others rfl nofun)
      rcases exists_renderFrom (apart.written next member) rescans with
        ⟨c, rest, start, own, behind⟩
      have skipped := (apart.gaps next member).behindBlanks_append start rest
      rw [behind, or_iff_right (by simp), skipped, ← own]
      exact literalRun_renderFrom (apart.part (List.suffix_cons _ _).isInfix) opens
termination_by later.length

/-- A token and those behind it are rendered so as well if blanks stand in front. -/
theorem render_cons {token : Token} {later : List Token} (written : token.text ≠ [])
    (rescans : token.Rescans) : render (token :: later) = renderFrom token later := by
  rcases List.exists_cons_of_ne_nil written with ⟨c, rest, text⟩
  have solid := (rescans.solid c (by rw [text]; rfl)).1
  have front := Text.stripLeft_of_front (List.cons_ne_nil c []) (List.forall_mem_singleton.2 solid)
    (rest ++ printTokens renderLayout later)
  have bare : printTokens renderLayout ({ token with gap := [] } :: later) =
      token.text ++ printTokens renderLayout later := printTokens_cons ..
  change Text.strip Text.isSpace (printTokens renderLayout ({ token with gap := [] } :: later)) = _
  rw [bare, renderFrom, Text.strip, text, List.cons_append, ← List.singleton_append, front]

end Source
end OpenRecord
