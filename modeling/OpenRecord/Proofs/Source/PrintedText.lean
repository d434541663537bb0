import Mathlib.Data.List.Basic
import OpenRecord.Proofs.Source.PrintedTree
import OpenRecord.Text.Encoding

namespace OpenRecord

/-!
# The text that a file is printed as

A source file is read with every line break as a line feed and without a byte order mark.  Printing the
tree gives the text that was read, except that a last line feed behind a backslash is dropped.  None of
the three is made good again: what is printed is the text of the file exactly if the text has no
carriage return and no byte order mark, and does not end with a backslash and a line feed.
-/

namespace Text

/-! ## Line breaks -/

/-- With every line break as a line feed there are no carriage returns. -/
theorem not_mem_normalizeBreaks (text : Text) : '\r' ∉ normalizeBreaks text := by
  fun_induction normalizeBreaks text with
  | case1 => exact List.not_mem_nil
  | case2 rest ih => exact List.not_mem_cons_of_ne_of_not_mem (by decide) ih
  | case3 c rest _ ih =>
    refine List.not_mem_cons_of_ne_of_not_mem ?_ ih
    split
    case isTrue => decide
    case isFalse other => exact Ne.symm other

/-- A text without carriage returns has every line break as a line feed. -/
theorem normalizeBreaks_eq_self {text : Text} (plain : '\r' ∉ text) :
    normalizeBreaks text = text := by
  fun_induction normalizeBreaks text with
  | case1 => rfl
  | case2 rest _ => exact absurd List.mem_cons_self plain
  | case3 c rest _ ih =>
    rw [List.mem_cons, not_or] at plain
    rw [ih plain.2, if_neg (Ne.symm plain.1)]

end Text

namespace Source

/-- Without carriage returns the usual line break is the line feed. -/
theorem usualBreak_eq {text : Text} (plain : '\r' ∉ text) : usualBreak text = ['\n'] := by
  unfold usualBreak
  induction text with
  | nil => rfl
  | cons c rest ih =>
    rw [List.mem_cons, not_or] at plain
    unfold Text.firstBreak Text.splitBreak
    split
    case h_1 cut =>
      split at cut
      case h_1 same => exact absurd (List.cons.inj same).1.symm plain.1
      case h_2 same => exact absurd (List.cons.inj same).1.symm plain.1
      case h_3 =>
        cases cut
        rfl
      case h_4 => cases cut
    case h_2 => exact ih plain.2

/-! ## Ends of files -/

/-- A text without its last line feed if a backslash stands in front of that. -/
def withoutHeldBreak (text : Text) : Text :=
  if ['\x5c', '\n'] <:+ text then text.dropLast else text

/-- Dropping a line break undoes adding a line feed. -/
theorem dropFinalBreak_append {text : Text} (plain : '\r' ∉ text) :
    Text.dropFinalBreak (text ++ ['\n']) = text := by
  unfold Text.dropFinalBreak
  rw [List.reverse_append, List.reverse_singleton, List.singleton_append]
  split
  case h_1 same =>
    have first := (List.cons.inj same).2
    exact absurd (List.mem_reverse.1 (first ▸ List.mem_cons_self)) plain
  case h_2 rest _ same => rw [← (List.cons.inj same).2, List.reverse_reverse]
  case h_3 same => cases (List.cons.inj same).1
  case h_4 _ other _ => exact absurd rfl (other _)

theorem ends_of_not_endsBroken {text : Text} (ends : ¬ EndsBroken text) :
    endsWithLineFeed text = false ∧ Text.dropFinalBreak text = text ∧
      withoutHeldBreak text = text := by
  have last : ∀ c rest, text.reverse = c :: rest → Text.isBreak c = false := by
    intro c rest same
    rw [List.reverse_eq_cons_iff] at same
    rw [same, endsBroken_append _ (List.cons_ne_nil c [])] at ends
    simpa [EndsBroken] using ends
  refine ⟨?_, ?_, ?_⟩
  · unfold endsWithLineFeed
    split
    case h_3 same => exact absurd (last _ _ same) (by decide)
    all_goals rfl
  · unfold Text.dropFinalBreak
    split
    case h_4 => rfl
    all_goals
      rename_i same
      exact absurd (last _ _ same) (by decide)
  · refine if_neg ?_
    rintro ⟨front, rfl⟩
    exact absurd (last '\n' ('\x5c' :: front.reverse) (by simp)) (by decide)

/-- Without carriage returns a last line break is a line feed. -/
theorem exists_lineFeed_of_endsBroken {text : Text} (plain : '\r' ∉ text)
    (ends : EndsBroken text) : ∃ front, text = front ++ ['\n'] := by
  unfold EndsBroken at ends
  cases last : text.getLast? with
  | none =>
    rw [last] at ends
    cases ends
  | some c =>
    rw [last, Option.any_some, Text.isBreak, Bool.or_eq_true, beq_iff_eq, beq_iff_eq] at ends
    rcases ends with rfl | rfl
    · exact List.getLast?_eq_some_iff.1 last
    · exact absurd (List.mem_of_getLast? last) plain

/-- A text without carriage returns that ends with a line feed is known to do so, unless a backslash
stands in front of it. -/
theorem ends_of_lineFeed {front : Text} (plain : '\r' ∉ front) :
    withoutHeldBreak (front ++ ['\n']) =
      if endsWithLineFeed (front ++ ['\n']) then front ++ ['\n'] else front := by
  rcases List.eq_nil_or_concat' front with rfl | ⟨before, c, rfl⟩
  · decide
  · rw [List.mem_append, List.mem_singleton, not_or] at plain
    have held : ['\x5c', '\n'] <:+ before ++ [c] ++ ['\n'] ↔ c = '\x5c' := by
      constructor
      · rintro ⟨start, parts⟩
        rw [List.append_assoc before] at parts
        exact (List.cons.inj (List.append_inj' parts rfl).2).1.symm
      · rintro rfl
        exact ⟨before, by simp⟩
    have ended : endsWithLineFeed (before ++ [c] ++ ['\n']) = decide (c ≠ '\x5c') := by
      unfold endsWithLineFeed
      rw [List.reverse_append, List.reverse_append]
      simp only [List.reverse_singleton, List.singleton_append]
      split
      case h_1 same => simp [(List.cons.inj (List.cons.inj same).2).1]
      case h_2 same => exact absurd (List.cons.inj (List.cons.inj same).2).1.symm plain.2
      case h_3 other _ same =>
        have unheld : c ≠ '\x5c' := by
          rintro rfl
          exact other _ (List.cons.inj same).2.symm
        exact (decide_eq_true unheld).symm
      case h_4 other => exact absurd rfl (other _)
    unfold withoutHeldBreak
    rw [ended]
    by_cases same : c = '\x5c'
    · rw [if_pos (held.2 same), if_neg (by simp [same]), List.dropLast_concat]
    · rw [if_neg (mt held.1 same), if_pos (decide_eq_true same)]

/-! ## Files -/

theorem withoutByteOrderMark_suffix (text : Text) : withoutByteOrderMark text <:+ text := by
  unfold withoutByteOrderMark
  split
  case h_1 rest => exact List.suffix_cons _ rest
  case h_2 => exact List.suffix_refl text

/-- An evenly indented file is printed as it was read, except for a byte order mark and for a last line
feed behind a backslash. -/
theorem SourceFile.print_of_parse? {text : Text} {file : SourceFile}
    (parsed : SourceFile.parse? text = some file) (plain : '\r' ∉ text)
    (even : EvenlyIndented (withoutByteOrderMark text)) :
    file.print = withoutHeldBreak (withoutByteOrderMark text) := by
  have fewer := withoutByteOrderMark_suffix text
  unfold SourceFile.parse? at parsed
  generalize withoutByteOrderMark text = found at parsed even fewer
  have plain : '\r' ∉ found := fun member => plain (fewer.subset member)
  rcases Option.bind_eq_some_iff.1 parsed with ⟨⟨lines, after⟩, scanned, parsed⟩
  rcases Option.bind_eq_some_iff.1 parsed with ⟨⟨header, body, footer⟩, read, same⟩
  cases same
  unfold lexLines at scanned
  rcases logicalLines_spells even .front scanned with ⟨enter, written, printed, spells, -⟩
  rw [usualBreak_eq plain] at printed spells
  have whole := print_readStatements ['\n'] enter read
  rw [printed] at whole
  change printLines _ header ++ _ = written at whole
  rw [SourceFile.print]
  simp only [usualBreak_eq plain, List.append_assoc, whole]
  rcases spells with exact_ | ⟨-, added, ends⟩
  · rw [List.append_nil] at exact_
    rw [exact_]
    by_cases ends : EndsBroken found
    · rcases exists_lineFeed_of_endsBroken plain ends with ⟨front, rfl⟩
      have before : '\r' ∉ front := fun member => plain (List.mem_append_left _ member)
      rw [ends_of_lineFeed before, dropFinalBreak_append before]
      cases endsWithLineFeed (front ++ ['\n']) with
      | false => rfl
      | true => exact if_neg (List.append_ne_nil_of_right_ne_nil front (List.cons_ne_nil _ _))
    · rcases ends_of_not_endsBroken ends with ⟨missing, dropped, kept⟩
      rw [missing, dropped, kept]
      rfl
  · rcases ends_of_not_endsBroken ends with ⟨missing, -, kept⟩
    rw [added, missing, dropFinalBreak_append plain, kept]
    rfl

/-! ## What is not made good again -/

/-- What is printed of a file with a given text. -/
def passedText (raw : Text) : Text :=
  withoutHeldBreak (withoutByteOrderMark raw.normalizeBreaks)

theorem withoutByteOrderMark_eq_self_iff {text : Text} :
    withoutByteOrderMark text = text ↔ text.head? ≠ some '\ufeff' := by
  unfold withoutByteOrderMark
  split
  case h_1 rest => exact iff_of_false (Ne.symm (List.cons_ne_self _ _)) (fun other => other rfl)
  case h_2 other =>
    refine iff_of_true rfl fun first => ?_
    rcases List.head?_eq_some_iff.1 first with ⟨rest, same⟩
    exact other rest same

/-- A held line feed is taken off the end. -/
theorem withoutHeldBreak_isPrefix (text : Text) : withoutHeldBreak text <+: text := by
  unfold withoutHeldBreak
  split
  case isTrue => exact List.dropLast_prefix text
  case isFalse => exact List.prefix_refl text

/-- A text that does not end with a backslash and a line feed is kept. -/
theorem withoutHeldBreak_eq_self_iff {text : Text} :
    withoutHeldBreak text = text ↔ ¬ ['\x5c', '\n'] <:+ text := by
  unfold withoutHeldBreak
  split
  case isTrue held =>
    refine iff_of_false (fun same => ?_) (not_not_intro held)
    have lengths := congrArg List.length same
    have some_length := held.length_le
    rw [List.length_dropLast] at lengths
    simp only [List.length_cons] at some_length
    omega
  case isFalse other => exact iff_of_true rfl other

/-- A text is printed again exactly if it has no carriage return and no byte order mark, and does not
end with a backslash and a line feed. -/
theorem passedText_eq_self_iff {raw : Text} :
    passedText raw = raw ↔
      '\r' ∉ raw ∧ raw.head? ≠ some '\ufeff' ∧ ¬ ['\x5c', '\n'] <:+ raw := by
  have kept : '\r' ∉ raw → passedText raw = withoutHeldBreak (withoutByteOrderMark raw) := by
    intro plain
    rw [passedText, Text.normalizeBreaks_eq_self plain]
  constructor
  · intro same
    have plain : '\r' ∉ raw := by
      intro member
      rw [← same] at member
      exact Text.not_mem_normalizeBreaks raw ((withoutByteOrderMark_suffix _).subset
        ((withoutHeldBreak_isPrefix _).subset member))
    rw [kept plain] at same
    have unmarked : withoutByteOrderMark raw = raw := by
      refine (withoutByteOrderMark_suffix raw).eq_of_length_le ?_
      have fewer := (withoutHeldBreak_isPrefix (withoutByteOrderMark raw)).length_le
      rwa [same] at fewer
    rw [unmarked] at same
    exact ⟨plain, withoutByteOrderMark_eq_self_iff.1 unmarked,
      withoutHeldBreak_eq_self_iff.1 same⟩
  · rintro ⟨plain, unmarked, unheld⟩
    rw [kept plain, withoutByteOrderMark_eq_self_iff.2 unmarked]
    exact withoutHeldBreak_eq_self_iff.2 unheld

end Source
end OpenRecord
