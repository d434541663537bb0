import OpenRecord.Code.Term
import OpenRecord.Proofs.Code.LineStarts

namespace OpenRecord

/-!
# Lines at levels

A line of emitted code is empty or stands at a level: behind a number of units of indentation there
is a text that has no boundary in it and does not start with a space.  Reindentation writes such
lines with another unit and behind a margin, and changes nothing else about them.

The lines of a definition are of this kind if none of its texts has a boundary in it, except for its
documentation, and if those that can begin a line do not start with a space.

A text of several lines loses its own indentation in reindentation, whatever it means there.  It is
said exactly which texts are kept.
-/

namespace Text

/-! ## Texts on one line -/

def Unbroken (text : Text) : Prop :=
  ∀ x ∈ text, isBoundary x = false

/-- Boundaries are looked for character by character. -/
instance (text : Text) : Decidable (Unbroken text) :=
  List.decidableBAll (fun x => isBoundary x = false) text

theorem unbroken_nil : Unbroken [] :=
  nofun

theorem unbroken_cons_iff {c : Char} {text : Text} :
    Unbroken (c :: text) ↔ isBoundary c = false ∧ text.Unbroken :=
  List.forall_mem_cons

theorem unbroken_append_iff {front back : Text} :
    Unbroken (front ++ back) ↔ front.Unbroken ∧ back.Unbroken :=
  List.forall_mem_append

theorem unbroken_join {separator : Text} {pieces : List Text} (apart : separator.Unbroken)
    (each : ∀ piece ∈ pieces, piece.Unbroken) : (join separator pieces).Unbroken := by
  unfold join
  induction pieces with
  | nil => exact unbroken_nil
  | cons first later ih =>
    rw [List.forall_mem_cons] at each
    cases later with
    | nil => simpa [List.intercalate] using each.1
    | cons second others =>
      have rest := ih each.2
      simp only [List.intercalate, List.intersperse, List.flatten_cons, unbroken_append_iff]
        at rest ⊢
      exact ⟨each.1, apart, rest⟩

theorem Unbroken.feed_notMem {text : Text} (unbroken : text.Unbroken) : '\n' ∉ text := by
  intro member
  cases unbroken '\n' member

theorem unbroken_of_mem_lines {text line : Text} (member : line ∈ lines text) : line.Unbroken :=
  fun x inside => (mem_of_mem_lines member x inside).2

/-- A text without boundaries that starts with a character other than a space. -/
def Firm (text : Text) : Prop :=
  text.head?.any (· != ' ') = true ∧ text.Unbroken

instance (text : Text) : Decidable (Firm text) :=
  inferInstanceAs (Decidable (_ ∧ _))

theorem Firm.append {front back : Text} (firm : front.Firm) (behind : back.Unbroken) :
    Firm (front ++ back) := by
  rcases firm with ⟨solid, unbroken⟩
  refine ⟨?_, unbroken_append_iff.2 ⟨unbroken, behind⟩⟩
  cases front with
  | nil => cases solid
  | cons first later => exact solid

/-! ## Texts of several lines -/

/-- Look for a space that starts a line.  `fresh` says that the text stands at the start of one. -/
def flushFrom (fresh : Bool) : Text → Bool
  | [] => true
  | c :: rest => !(fresh && c == ' ') && flushFrom (isBoundary c) rest

/-- No line but possibly the first one starts with a space. -/
def Flush (text : Text) : Prop :=
  flushFrom false text = true

/-- Behind the start of a line, a text without boundaries makes no difference. -/
theorem flushFrom_append {front : Text} (unbroken : front.Unbroken) (back : Text) :
    flushFrom false (front ++ back) = flushFrom false back := by
  induction front with
  | nil => rfl
  | cons c front ih =>
    rw [unbroken_cons_iff] at unbroken
    rw [List.cons_append, flushFrom, unbroken.1, ih unbroken.2]
    rfl

theorem Unbroken.flush {text : Text} (unbroken : text.Unbroken) : text.Flush := by
  rw [Flush, ← List.append_nil text, flushFrom_append unbroken]
  rfl

theorem Firm.flushFrom {text : Text} (firm : text.Firm) : flushFrom true text = true := by
  cases text with
  | nil => rfl
  | cons first later =>
    have solid : (first == ' ') = false := by simpa using firm.1
    rw [Text.flushFrom, solid, (unbroken_cons_iff.1 firm.2).1]
    exact (unbroken_cons_iff.1 firm.2).2.flush

/-- A sentence on one line, and further text behind an empty line. -/
theorem Unbroken.flush_paragraph {front back : Text} (first : front.Unbroken)
    (second : Text.flushFrom true back = true) : Flush (front ++ ".\n\n" ++ back) := by
  rw [List.append_assoc, Flush, flushFrom_append first]
  exact second

/-- The search stops nowhere in a part of the text if it does not in the whole. -/
theorem flushFrom_of_append {fresh : Bool} {front back : Text}
    (flush : flushFrom fresh (front ++ back) = true) : flushFrom fresh front = true := by
  induction front generalizing fresh with
  | nil => rfl
  | cons c front ih =>
    rw [List.cons_append, flushFrom, Bool.and_eq_true] at flush
    rw [flushFrom, Bool.and_eq_true]
    exact ⟨flush.1, ih flush.2⟩

/-- What the search finds nothing in has no line that starts with a space. -/
theorem flushFrom_eq (text : Text) :
    flushFrom true text = (lines text).all (·.head? != some ' ') ∧
      flushFrom false text = (lines text).tail.all (·.head? != some ' ') := by
  fun_induction lines text with
  | case1 => exact ⟨rfl, rfl⟩
  | case2 rest ih => exact ⟨ih.1, ih.1⟩
  | case3 c rest _ boundary ih =>
    have solid : (c == ' ') = false := by
      rw [beq_eq_false_iff_ne]
      rintro rfl
      cases boundary
    rw [flushFrom, flushFrom, boundary, solid, ih.1]
    exact ⟨rfl, rfl⟩
  | case4 c rest _ solid none_left ih =>
    cases rest with
    | cons second later => exact absurd none_left (lines_ne_nil (List.cons_ne_nil _ _))
    | nil => simp [flushFrom, bne]
  | case5 c rest _ solid first later split ih =>
    have unbroken : isBoundary c = false := by simpa using solid
    rw [split, List.tail_cons] at ih
    rw [flushFrom, flushFrom, unbroken, ih.2]
    exact ⟨rfl, rfl⟩

/-- No line of a flush text starts with a space when the text has been trimmed. -/
theorem Flush.of_mem_lines_trim {text line : Text} (flush : text.Flush)
    (member : line ∈ lines text.trim) : line.head? ≠ some ' ' := by
  have left : ∀ {fresh} {text : Text}, flushFrom fresh text = true →
      flushFrom true (text.dropWhile isSpace) = true := by
    intro fresh text flush
    induction text generalizing fresh with
    | nil => rfl
    | cons c rest ih =>
      rw [flushFrom, Bool.and_eq_true] at flush
      rw [List.dropWhile_cons]
      split
      case isTrue => exact ih flush.2
      case isFalse solid =>
        have other : (c == ' ') = false := by
          rw [beq_eq_false_iff_ne]
          rintro rfl
          exact solid rfl
        rw [flushFrom, other]
        exact flush.2
  -- the trimmed text is a part of what is left when it has been trimmed in front
  have trimmed : flushFrom true text.trim = true := by
    have part : text.trim <+: text.dropWhile isSpace := by
      have behind := List.dropWhile_suffix (l := (text.dropWhile isSpace).reverse) isSpace
      simpa [trim, strip, stripLeft, stripRight] using List.reverse_prefix.2 behind
    rcases part with ⟨back, whole⟩
    exact flushFrom_of_append (whole ▸ left flush)
  rw [(flushFrom_eq _).1, List.all_eq_true] at trimmed
  simpa using trimmed line member

end Text

namespace Code

/-! ## Levels -/

/-- Levels on top of levels. -/
theorem repeated_add (unit : Text) (first second : Nat) :
    repeated unit (first + second) = repeated unit first ++ repeated unit second := by
  rw [repeated, ← List.replicate_append_replicate, List.flatten_append]
  rfl

theorem unbroken_repeated {unit : Text} (unbroken : unit.Unbroken) (depth : Nat) :
    (repeated unit depth).Unbroken := by
  induction depth with
  | zero => exact Text.unbroken_nil
  | succ depth ih =>
    rw [repeated, List.replicate_succ, List.flatten_cons, Text.unbroken_append_iff]
    exact ⟨unbroken, ih⟩

/-- Levels of emitted code in front of a line are found by reindentation. -/
theorem reindentLine_repeated {c : Char} (solid : c ≠ ' ') (unit margin rest : Text) (depth : Nat) :
    reindentLine unit margin (repeated indentUnit depth ++ c :: rest) =
      margin ++ repeated unit depth ++ c :: rest := by
  have width : (repeated indentUnit depth).length = depth * indentUnit.length := by
    rw [repeated_indentUnit, List.length_replicate]
    rfl
  have blank : (repeated indentUnit depth).dropWhile (· == ' ') = [] := by
    rw [repeated_indentUnit, List.dropWhile_eq_nil_iff]
    intro x member
    rw [List.eq_of_mem_replicate member]
    rfl
  rw [reindentLine_append solid, blank, width, List.length_nil, Nat.sub_zero,
    Nat.mul_div_cancel _ (by decide), List.append_nil]

structure LevelLine where
  depth : Nat
  text : Text
  unbroken : text.Unbroken
  head_ne : text.head? ≠ some ' '
  depth_eq : text = [] → depth = 0

namespace LevelLine

/-- The line with its level written in a unit, behind a margin. -/
def print (unit margin : Text) (line : LevelLine) : Text :=
  if line.text = [] then [] else margin ++ repeated unit line.depth ++ line.text

def emitted (line : LevelLine) : Text :=
  line.print indentUnit []

theorem unbroken_emitted (line : LevelLine) : line.emitted.Unbroken := by
  unfold emitted print
  split
  · exact Text.unbroken_nil
  · exact Text.unbroken_append_iff.2 ⟨unbroken_repeated (by decide) line.depth, line.unbroken⟩

/-- Reindentation finds the level of an emitted line and writes the line anew. -/
theorem reindentLine_emitted (line : LevelLine) (unit margin : Text) :
    reindentLine unit margin line.emitted = line.print unit margin := by
  rcases line with ⟨depth, text, unbroken, solid, empty⟩
  cases text with
  | nil => rfl
  | cons first later =>
    have other : first ≠ ' ' := by
      rintro rfl
      exact solid rfl
    rw [emitted, print, print, if_neg (List.cons_ne_nil _ _), if_neg (List.cons_ne_nil _ _),
      List.nil_append, reindentLine_repeated other]

end LevelLine

/-- Lines without boundaries are found again in the text that they make. -/
theorem lines_emit {lines : List Text} (nonempty : lines ≠ [])
    (unbroken : ∀ line ∈ lines, line.Unbroken) : Text.lines (emit lines) = lines := by
  induction lines with
  | nil => exact absurd rfl nonempty
  | cons first later ih =>
    rw [List.forall_mem_cons] at unbroken
    cases later with
    | nil =>
      have alone : Text.lines (first ++ ['\n']) = [first] := Text.lines_append_feed unbroken.1 []
      simpa [emit, Text.join, List.intercalate] using alone
    | cons second others =>
      rw [emit_cons_cons, Text.lines_append_feed unbroken.1, ih (by simp) unbroken.2]

/-- **Reindentation of lines at levels** writes each of them with the unit, behind the margin. -/
theorem reindent_emit (lines : List LevelLine) (unit margin : Text) :
    reindent (emit (lines.map (·.emitted))) unit margin =
      emit (lines.map (·.print unit margin)) := by
  cases lines with
  | nil => rfl
  | cons first later =>
    have unbroken : ∀ line ∈ (first :: later).map (·.emitted), line.Unbroken :=
      List.forall_mem_map.2 fun line _ => line.unbroken_emitted
    rw [reindent, lines_emit (by simp) unbroken, List.map_map]
    congr 2
    funext line
    exact line.reindentLine_emitted unit margin

/-! ## Texts of several lines -/

/-- The lines of a text end at line feeds only, and reindentation leaves those behind the first one
as they are. -/
def KeptBy (unit margin text : Text) : Prop :=
  (∀ line ∈ Text.split '\n' text, line.Unbroken) ∧
    ∀ line ∈ (Text.split '\n' text).tail, reindentLine unit margin line = line

instance (unit margin text : Text) : Decidable (KeptBy unit margin text) :=
  inferInstanceAs (Decidable (_ ∧ _))

theorem unbroken_reindentLine {unit margin line : Text} (units : unit.Unbroken)
    (front : margin.Unbroken) (unbroken : line.Unbroken) :
    (reindentLine unit margin line).Unbroken := by
  unfold reindentLine
  split
  · exact Text.unbroken_nil
  case h_2 first later same =>
    have behind : Text.Unbroken (first :: later) := fun x member =>
      unbroken x ((List.dropWhile_sublist _).subset (same ▸ member))
    rw [Text.unbroken_append_iff, Text.unbroken_append_iff]
    exact ⟨⟨front, unbroken_repeated units _⟩, behind⟩

theorem emit_split (text : Text) : emit (Text.split '\n' text) = text ++ ['\n'] := by
  rw [emit, Text.join_split]

theorem split_of_emit {lines : List Text} {text : Text} (nonempty : lines ≠ [])
    (unbroken : ∀ line ∈ lines, line.Unbroken) (same : emit lines = text ++ ['\n']) :
    Text.split '\n' text = lines := by
  rw [← List.append_cancel_right same]
  exact Text.split_join nonempty fun line member => (unbroken line member).feed_notMem

/-- Reindented code has no other boundaries than its line feeds. -/
theorem unbroken_of_reindent {code result unit margin : Text} (units : unit.Unbroken)
    (front : margin.Unbroken) (nonempty : code ≠ [])
    (found : reindent code unit margin = result ++ ['\n']) :
    ∀ line ∈ Text.split '\n' result, line.Unbroken := by
  have each : ∀ line ∈ (Text.lines code).map (reindentLine unit margin), line.Unbroken :=
    List.forall_mem_map.2 fun line member =>
      unbroken_reindentLine units front (Text.unbroken_of_mem_lines member)
  rw [split_of_emit (mt List.map_eq_nil_iff.1 (Text.lines_ne_nil nonempty)) each found]
  exact each

/-- If lines end at line feeds only, those behind the first one are handled by themselves. -/
theorem reindent_of_unbroken {front first : Text} {later : List Text} (firm : front.Firm)
    (unbroken : ∀ line ∈ first :: later, line.Unbroken) (unit margin : Text) (depth : Nat) :
    reindent (emit ((repeated indentUnit depth ++ (front ++ first)) :: later)) unit margin =
      emit ((margin ++ repeated unit depth ++ (front ++ first)) ::
        later.map (reindentLine unit margin)) := by
  have spaces : (repeated indentUnit depth).Unbroken := unbroken_repeated (by decide) depth
  rw [List.forall_mem_cons] at unbroken
  have whole : ∀ line ∈ (repeated indentUnit depth ++ (front ++ first)) :: later, line.Unbroken := by
    rw [List.forall_mem_cons, Text.unbroken_append_iff, Text.unbroken_append_iff]
    exact ⟨⟨spaces, firm.2, unbroken.1⟩, unbroken.2⟩
  rw [reindent, lines_emit (List.cons_ne_nil _ _) whole, List.map_cons]
  cases front with
  | nil => cases firm.1
  | cons c front =>
    have solid : c ≠ ' ' := by simpa using firm.1
    rw [List.cons_append, reindentLine_repeated solid]

/-- **A text on a line** behind a level and the beginning of the line is found again, behind the
margin and the level in the new unit, exactly if it is kept. -/
theorem reindent_eq_iff {front text unit margin : Text} (firm : front.Firm) (units : unit.Unbroken)
    (margins : margin.Unbroken) (depth : Nat) :
    reindent (repeated indentUnit depth ++ (front ++ text) ++ ['\n']) unit margin =
        margin ++ repeated unit depth ++ (front ++ text) ++ ['\n'] ↔
      KeptBy unit margin text := by
  have spaces : (repeated indentUnit depth).Unbroken := unbroken_repeated (by decide) depth
  have levels := Text.unbroken_append_iff.2 ⟨margins, unbroken_repeated units depth⟩
  rcases List.exists_cons_of_ne_nil (Text.split_ne_nil '\n' text) with ⟨piece, later, parts⟩
  -- the first piece goes on from what stands in front of it, the others stand by themselves
  have below {levels : Text} (unbroken : levels.Unbroken) :
      Text.split '\n' (levels ++ (front ++ text)) = (levels ++ (front ++ piece)) :: later := by
    have ahead := Text.unbroken_append_iff.2 ⟨unbroken, firm.2⟩
    rw [← List.append_assoc, Text.split_front ahead.feed_notMem, parts, List.append_assoc]
    rfl
  have placed (kept : ∀ line ∈ piece :: later, line.Unbroken) :
      reindent (repeated indentUnit depth ++ (front ++ text) ++ ['\n']) unit margin =
        emit ((margin ++ repeated unit depth ++ (front ++ piece)) ::
          later.map (reindentLine unit margin)) := by
    rw [← emit_split, below spaces, reindent_of_unbroken firm kept]
  rw [KeptBy, parts, List.tail_cons]
  constructor
  · intro found
    have rewritten := unbroken_of_reindent units margins (by simp) found
    rw [below levels, List.forall_mem_cons] at rewritten
    have kept : ∀ line ∈ piece :: later, line.Unbroken := by
      rw [List.forall_mem_cons]
      exact ⟨(Text.unbroken_append_iff.1 (Text.unbroken_append_iff.1 rewritten.1).2).2, rewritten.2⟩
    rw [placed kept] at found
    have anew := split_of_emit (List.cons_ne_nil _ _) (List.forall_mem_cons.2
      ⟨rewritten.1, List.forall_mem_map.2 fun line member =>
        unbroken_reindentLine units margins (rewritten.2 line member)⟩) found
    rw [below levels] at anew
    have same : later.map (reindentLine unit margin) = later.map id := by
      rw [List.map_id]
      exact (List.cons.inj anew).2.symm
    exact ⟨kept, List.map_inj_left.1 same⟩
  · rintro ⟨unbroken, kept⟩
    rw [placed unbroken, List.map_congr_left kept, List.map_id', ← below levels, emit_split]

theorem reindent_eq_flatMap {code : Text} (nonempty : code ≠ []) (unit margin : Text) :
    reindent code unit margin =
      (Text.lines code).flatMap fun line => reindentLine unit margin line ++ ['\n'] := by
  have some_line := Text.lines_ne_nil nonempty
  rw [reindent, emit_eq_flatMap (by simpa using some_line), List.flatMap_map]

theorem reindent_feed (front : Text) {back : Text} (nonempty : back ≠ []) (unit margin : Text) :
    reindent (front ++ '\n' :: back) unit margin =
      reindent (front ++ ['\n']) unit margin ++ reindent back unit margin := by
  rw [reindent_eq_flatMap (by simp), reindent_eq_flatMap (by simp), reindent_eq_flatMap nonempty,
    Text.lines_feed, List.flatMap_append]

/-- Reindentation goes through code line by line, also where a line is a text of several lines. -/
theorem reindent_emit_eq_flatMap {lines : List Text} (nonempty : lines ≠ []) (unit margin : Text) :
    reindent (emit lines) unit margin =
      lines.flatMap fun line => reindent (line ++ ['\n']) unit margin := by
  induction lines with
  | nil => exact absurd rfl nonempty
  | cons first later ih =>
    cases later with
    | nil => simp [emit, Text.join, List.intercalate]
    | cons second others =>
      rw [emit_cons_cons, reindent_feed first (by simp [emit]), ih (List.cons_ne_nil _ _)]
      rfl

/-! ## Lines that are at levels -/

def AtLevel (text : Text) : Prop :=
  ∃ line : LevelLine, text = line.emitted

theorem atLevel_nil : AtLevel [] :=
  ⟨⟨0, [], Text.unbroken_nil, nofun, fun _ => rfl⟩, rfl⟩

theorem atLevel_of_firm {text : Text} (firm : text.Firm) : AtLevel text := by
  cases text with
  | nil => exact atLevel_nil
  | cons first later =>
    have other : (first :: later).head? ≠ some ' ' := by
      rintro ⟨⟩
      cases firm.1
    exact ⟨⟨0, first :: later, firm.2, other, fun _ => rfl⟩, rfl⟩

theorem AtLevel.unbroken {text : Text} (level : AtLevel text) : text.Unbroken := by
  rcases level with ⟨line, rfl⟩
  exact line.unbroken_emitted

theorem atLevel_indent {lines : List Text} (each : ∀ line ∈ lines, AtLevel line) (depth : Nat) :
    ∀ line ∈ indent lines depth, AtLevel line := by
  refine List.forall_mem_map.2 fun line member => ?_
  rcases each line member with ⟨⟨own, text, unbroken, solid, empty⟩, rfl⟩
  cases text with
  | nil => exact atLevel_nil
  | cons first later =>
    refine ⟨⟨depth + own, first :: later, unbroken, solid, nofun⟩, ?_⟩
    simp [LevelLine.emitted, LevelLine.print, repeated_add]

theorem exists_map_emitted {lines : List Text} (each : ∀ line ∈ lines, AtLevel line) :
    ∃ levels : List LevelLine, lines = levels.map (·.emitted) := by
  induction lines with
  | nil => exact ⟨[], rfl⟩
  | cons first later ih =>
    rw [List.forall_mem_cons] at each
    rcases each.1 with ⟨line, rfl⟩
    rcases ih each.2 with ⟨levels, rfl⟩
    exact ⟨line :: levels, rfl⟩

/-! ## Terms and commands -/

mutual

/-- A term whose names and texts stay on one line, and whose names do not start with a space. -/
def Term.Tidy : Term → Prop
  | .name identifier => identifier.Firm
  | .absent => True
  | .boolean _ => True
  | .string chars => chars.Unbroken
  | .attribute value identifier => value.Tidy ∧ identifier.Unbroken
  | .call function arguments => function.Tidy ∧ TermsTidy arguments
  | .construct function arguments => function.Tidy ∧ ArgumentsTidy arguments

def TermsTidy : List Term → Prop
  | [] => True
  | first :: later => first.Tidy ∧ TermsTidy later

def ArgumentsTidy : List (Text × Term) → Prop
  | [] => True
  | (name, value) :: later => (name.Firm ∧ value.Tidy) ∧ ArgumentsTidy later

end

mutual

def Command.Tidy : Command → Prop
  | .assign target value => target.Tidy ∧ value.Tidy
  | .evaluate value => value.Tidy
  | .return value => value.Tidy
  | .whenAbsent value body => value.Tidy ∧ CommandsTidy body
  | .raise value => value.Tidy
  | .finally body cleanup => CommandsTidy body ∧ CommandsTidy cleanup

def CommandsTidy : List Command → Prop
  | [] => True
  | first :: later => first.Tidy ∧ CommandsTidy later

end

theorem commandsTidy_iff {commands : List Command} :
    CommandsTidy commands ↔ ∀ command ∈ commands, command.Tidy := by
  induction commands with
  | nil => simp [CommandsTidy]
  | cons first later ih => rw [CommandsTidy, ih, List.forall_mem_cons]

theorem argumentsTidy_iff {arguments : List (Text × Term)} :
    ArgumentsTidy arguments ↔ ∀ pair ∈ arguments, pair.1.Firm ∧ pair.2.Tidy := by
  induction arguments with
  | nil => simp [ArgumentsTidy]
  | cons first later ih => rw [ArgumentsTidy, ih, List.forall_mem_cons]

theorem unbroken_inParentheses {arguments : List Text}
    (each : ∀ argument ∈ arguments, argument.Unbroken) : (inParentheses arguments).Unbroken := by
  have apart : Text.Unbroken [',', ' '] := by decide
  have joined := Text.unbroken_join apart each
  exact Text.unbroken_cons_iff.2 ⟨rfl, Text.unbroken_append_iff.2 ⟨joined, by decide⟩⟩

mutual

theorem Term.firm_line : ∀ term : Term, term.Tidy → term.line.Firm
  | .name _, tidy => tidy
  | .absent, _ => by decide
  | .boolean true, _ => by decide
  | .boolean false, _ => by decide
  | .string chars, tidy => by
    have inner : chars.Unbroken := tidy
    have opening : Text.Firm [Text.doubleMark] := by decide
    exact opening.append (Text.unbroken_append_iff.2 ⟨inner, by decide⟩)
  | .attribute value identifier, ⟨inner, tidy⟩ =>
    (value.firm_line inner).append (Text.unbroken_cons_iff.2 ⟨rfl, tidy⟩)
  | .call function arguments, ⟨inner, others⟩ =>
    (function.firm_line inner).append (unbroken_inParentheses fun argument member =>
      (firm_termLines arguments others argument member).2)
  | .construct function arguments, ⟨inner, others⟩ =>
    (function.firm_line inner).append (unbroken_inParentheses fun argument member =>
      (firm_argumentLines arguments others argument member).2)

theorem firm_termLines : ∀ terms : List Term, TermsTidy terms → ∀ line ∈ termLines terms, line.Firm
  | [], _ => nofun
  | first :: later, ⟨tidy, others⟩ =>
    List.forall_mem_cons.2 ⟨first.firm_line tidy, firm_termLines later others⟩

theorem firm_argumentLines : ∀ arguments : List (Text × Term), ArgumentsTidy arguments →
    ∀ line ∈ argumentLines arguments, line.Firm
  | [], _ => nofun
  | (name, value) :: later, ⟨⟨tidy, inner⟩, others⟩ => by
    have behind : Text.Unbroken ('=' :: value.line ++ [',']) := by
      rw [List.cons_append, Text.unbroken_cons_iff, Text.unbroken_append_iff]
      exact ⟨rfl, (value.firm_line inner).2, by decide⟩
    rw [argumentLines, List.forall_mem_cons]
    exact ⟨by simpa using tidy.append behind, firm_argumentLines later others⟩

end

theorem Term.Tidy.exists_lines {term : Term} (tidy : term.Tidy) :
    ∃ first later, term.lines = first :: later ∧ first.Firm ∧ ∀ line ∈ later, AtLevel line := by
  unfold Term.lines
  split
  case h_1 function arguments =>
    have inner : ∀ line ∈ argumentLines arguments, AtLevel line := fun line member =>
      atLevel_of_firm (firm_argumentLines arguments tidy.2 line member)
    exact ⟨_, _, rfl, (function.firm_line tidy.1).append (by decide), List.forall_mem_append.2
      ⟨atLevel_indent inner 1, List.forall_mem_singleton.2 (atLevel_of_firm (by decide))⟩⟩
  case h_2 => exact ⟨_, _, rfl, term.firm_line tidy, nofun⟩

theorem Term.Tidy.atLevel {term : Term} (tidy : term.Tidy) : ∀ line ∈ term.lines, AtLevel line := by
  rcases tidy.exists_lines with ⟨first, later, split, firm, others⟩
  rw [split]
  exact List.forall_mem_cons.2 ⟨atLevel_of_firm firm, others⟩

theorem Term.Tidy.atLevel_leadWith {term : Term} {front : Text} (tidy : term.Tidy)
    (firm : front.Firm) : ∀ line ∈ leadWith front term.lines, AtLevel line := by
  rcases tidy.exists_lines with ⟨first, later, split, inner, others⟩
  rw [split]
  exact List.forall_mem_cons.2 ⟨atLevel_of_firm (firm.append inner.2), others⟩

mutual

theorem Command.atLevel_lines : ∀ command : Command, command.Tidy →
    ∀ line ∈ command.lines, AtLevel line
  | .assign target value, ⟨left, right⟩ =>
    right.atLevel_leadWith ((target.firm_line left).append (by decide))
  | .evaluate value, tidy => Term.Tidy.atLevel tidy
  | .return value, tidy => Term.Tidy.atLevel_leadWith tidy (by decide)
  | .whenAbsent value body, ⟨tidy, inner⟩ => by
    have test : Text.Firm ("if " ++ value.line ++ " is None:") := by
      rw [List.append_assoc]
      exact Text.Firm.append (by decide)
        (Text.unbroken_append_iff.2 ⟨(value.firm_line tidy).2, by decide⟩)
    exact List.forall_mem_cons.2 ⟨atLevel_of_firm test,
      atLevel_indent (atLevel_commandLines body inner) 1⟩
  | .raise value, tidy => Term.Tidy.atLevel_leadWith tidy (by decide)
  | .finally body cleanup, ⟨inner, last⟩ => by
    rw [Command.lines, List.cons_append, List.forall_mem_cons, List.forall_mem_append,
      List.forall_mem_cons]
    exact ⟨atLevel_of_firm (by decide), atLevel_indent (atLevel_commandLines body inner) 1,
      atLevel_of_firm (by decide), atLevel_indent (atLevel_commandLines cleanup last) 1⟩

theorem atLevel_commandLines : ∀ commands : List Command, CommandsTidy commands →
    ∀ line ∈ commandLines commands, AtLevel line
  | [], _ => nofun
  | first :: later, ⟨tidy, others⟩ =>
    List.forall_mem_append.2 ⟨first.atLevel_lines tidy, atLevel_commandLines later others⟩

end

/-! ## Definitions -/

theorem atLevel_docstring {text : Text} (flush : text.Flush) (depth : Nat) :
    ∀ line ∈ docstring text depth, AtLevel line := by
  have marks : docMarks.Firm := by decide
  have unbroken : ∀ line ∈ Text.lines text.trim, line.Unbroken :=
    fun line member => Text.unbroken_of_mem_lines member
  have each : ∀ line ∈ Text.lines text.trim, AtLevel line := by
    intro line member
    cases line with
    | nil => exact atLevel_nil
    | cons first later =>
      have solid := flush.of_mem_lines_trim member
      exact atLevel_of_firm ⟨by simpa using solid, unbroken _ member⟩
  unfold docstring
  split
  case h_1 only same =>
    rw [same, List.forall_mem_singleton] at unbroken
    refine atLevel_indent (List.forall_mem_singleton.2 (atLevel_of_firm ?_)) depth
    exact (marks.append unbroken).append marks.2
  case h_2 =>
    refine atLevel_indent ?_ depth
    rw [List.cons_append, List.forall_mem_cons, List.forall_mem_append, List.forall_mem_singleton]
    exact ⟨atLevel_of_firm marks, each, atLevel_of_firm marks⟩

theorem unbroken_parameter {parameter : Parameter} (name : parameter.name.Unbroken)
    (typed : ∀ type, parameter.type = some type → type.Unbroken) : parameter.text.Unbroken := by
  unfold Parameter.text
  split
  · exact name
  case h_2 type same =>
    rw [Text.unbroken_append_iff, Text.unbroken_append_iff]
    exact ⟨⟨name, by decide⟩, typed type same⟩

/-- A method whose header stays on one line. -/
structure Method.Tidy (method : Method) : Prop where
  name : method.name.Unbroken
  parameters : ∀ parameter ∈ method.parameters, parameter.text.Unbroken
  result : method.result.Unbroken
  documentation : ∀ text, method.documentation = some text → text.Flush
  body : CommandsTidy method.body

theorem Method.Tidy.atLevel {method : Method} (tidy : method.Tidy) :
    ∀ line ∈ method.lines, AtLevel line := by
  have header : Text.Firm ("def " ++ method.name ++
      inParentheses (method.parameters.map (·.text)) ++ " -> " ++ method.result ++ ":") := by
    have list := unbroken_inParentheses (List.forall_mem_map.2 tidy.parameters)
    have opening : Text.Firm ("def " ++ method.name) := Text.Firm.append (by decide) tidy.name
    exact (((opening.append list).append (by decide)).append tidy.result).append (by decide)
  have decorators : ∀ line ∈ method.decoratorLines, AtLevel line := by
    unfold Method.decoratorLines
    split
    · nofun
    · exact List.forall_mem_singleton.2 (atLevel_of_firm (by decide))
    · exact List.forall_mem_singleton.2 (atLevel_of_firm (by decide))
    · have written : Text.Firm ("@" ++ method.name ++ ".setter") :=
        (Text.Firm.append (by decide) tidy.name).append (by decide)
      exact List.forall_mem_singleton.2 (atLevel_of_firm written)
  unfold Method.lines
  rw [List.forall_mem_append, List.forall_mem_append, List.forall_mem_cons]
  refine ⟨⟨decorators, atLevel_of_firm header, ?_⟩,
    atLevel_indent (atLevel_commandLines _ tidy.body) 1⟩
  cases documented : method.documentation with
  | none => nofun
  | some text => exact atLevel_docstring (tidy.documentation text documented) 1

/-- A part of a class whose texts stay on their lines. -/
def Member.Tidy : Member → Prop
  | .slots names => ∀ name ∈ names, name.Unbroken
  | .field name type _ => name.Firm ∧ type.Unbroken
  | .method code => code.Tidy

theorem Member.Tidy.atLevel {member : Member} (tidy : member.Tidy) :
    ∀ line ∈ member.lines, AtLevel line := by
  cases member with
  | slots names =>
    have inner : Text.Unbroken (names.flatMap fun name => (Term.string name).line ++ [',']) := by
      intro x among
      rcases List.mem_flatMap.1 among with ⟨name, member, inside⟩
      have comma : Text.Unbroken [','] := by decide
      exact (((Term.string name).firm_line (tidy name member)).append comma).2 x inside
    exact List.forall_mem_singleton.2 (atLevel_of_firm
      ((Text.Firm.append (by decide) inner).append (by decide)))
  | field name type hidden =>
    have declared : Text.Firm (name ++ ": " ++ type) := (tidy.1.append (by decide)).append tidy.2
    cases hidden with
    | false => exact List.forall_mem_singleton.2 (atLevel_of_firm declared)
    | true => exact List.forall_mem_singleton.2 (atLevel_of_firm (declared.append (by decide)))
  | method code => exact Method.Tidy.atLevel tidy

/-- A class whose header stays on one line. -/
structure ClassCode.Tidy (code : ClassCode) : Prop where
  name : code.name.Unbroken
  parameters : code.parameters.Unbroken
  documentation : code.documentation.Flush
  members : ∀ member ∈ code.members, member.Tidy

theorem ClassCode.Tidy.atLevel {code : ClassCode} (tidy : code.Tidy) :
    ∀ line ∈ code.lines, AtLevel line := by
  have header : Text.Firm ("class " ++ code.name ++ code.parameters ++ ":") := by
    have opening : Text.Firm ("class " ++ code.name) := Text.Firm.append (by decide) tidy.name
    exact (opening.append tidy.parameters).append (by decide)
  unfold ClassCode.lines
  rw [List.forall_mem_append, List.forall_mem_cons]
  refine ⟨?_, atLevel_of_firm header, atLevel_indent ?_ 1⟩
  · split
    case isTrue => exact List.forall_mem_singleton.2 (atLevel_of_firm (by decide))
    case isFalse => nofun
  · rw [List.forall_mem_append, List.forall_mem_cons]
    exact ⟨atLevel_docstring tidy.documentation 0, atLevel_nil,
      forall_mem_memberLines atLevel_nil fun member among => (tidy.members member among).atLevel⟩

/-- A definition whose texts stay on their lines. -/
def Definition.Tidy : Definition → Prop
  | .type code => code.Tidy
  | .method code => code.Tidy

theorem Definition.Tidy.exists_levels {definition : Definition} (tidy : definition.Tidy) :
    ∃ lines : List LevelLine, definition.text = emit (lines.map (·.emitted)) := by
  have each : ∀ line ∈ definition.lines, AtLevel line := by
    cases definition with
    | type code => exact ClassCode.Tidy.atLevel tidy
    | method code => exact Method.Tidy.atLevel tidy
  rcases exists_map_emitted each with ⟨levels, same⟩
  exact ⟨levels, congrArg emit same⟩

end Code
end OpenRecord
