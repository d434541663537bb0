import OpenRecord.Code.Lines
import OpenRecord.Proofs.Text.Parts

namespace OpenRecord

/-!
# What reindentation keeps

Reindentation takes emitted code apart at every boundary and changes the beginnings of the pieces.
What starts the code and is not indented itself is found again behind the margin.
-/

/-! ## Lines -/

namespace Text

/-- A character that is no boundary is put in front of the first line behind it. -/
theorem lines_cons {c : Char} (unbroken : isBoundary c = false) (rest : Text) :
    lines (c :: rest) =
      match lines rest with
      | [] => [[c]]
      | line :: later => (c :: line) :: later := by
  rw [lines.eq_def]
  split
  case h_1 same => cases same
  case h_2 same =>
    cases same
    cases unbroken
  case h_3 same =>
    cases same
    cases lines rest <;> simp [unbroken]

/-- A text without boundaries starts the first line of every text that starts with it. -/
theorem lines_append {front : Text} (nonempty : front ≠ [])
    (unbroken : ∀ x ∈ front, isBoundary x = false) (rest : Text) :
    ∃ tail later, lines (front ++ rest) = (front ++ tail) :: later := by
  induction front with
  | nil => exact absurd rfl nonempty
  | cons first others ih =>
    have solid := unbroken first (List.mem_cons_self ..)
    rw [List.cons_append, lines_cons solid]
    cases others with
    | nil =>
      rw [List.nil_append]
      cases lines rest with
      | nil => exact ⟨[], [], rfl⟩
      | cons line later => exact ⟨line, later, rfl⟩
    | cons second more =>
      rcases ih (by simp) fun x member => unbroken x (List.mem_cons_of_mem first member) with
        ⟨tail, later, split⟩
      exact ⟨tail, later, by rw [split]; rfl⟩

theorem lines_append_feed {front : Text} (unbroken : ∀ x ∈ front, isBoundary x = false)
    (rest : Text) : lines (front ++ '\n' :: rest) = front :: lines rest := by
  induction front with
  | nil =>
    rw [List.nil_append, lines.eq_def]
    rfl
  | cons first others ih =>
    rw [List.cons_append, lines_cons (unbroken first (List.mem_cons_self ..)),
      ih fun x member => unbroken x (List.mem_cons_of_mem first member)]

theorem lines_ne_nil {text : Text} (nonempty : text ≠ []) : lines text ≠ [] := by
  unfold lines
  split
  · exact absurd rfl nonempty
  · simp
  · split
    · simp
    · split <;> simp

end Text

/-! ## Margins -/

namespace Code

/-- Levels of emitted code are spaces. -/
theorem repeated_indentUnit (depth : Nat) :
    repeated indentUnit depth = List.replicate (depth * 4) ' ' := by
  induction depth with
  | zero => rfl
  | succ depth ih =>
    rw [Nat.succ_mul, Nat.add_comm (depth * 4), ← List.replicate_append_replicate, ← ih]
    rfl

/-- Of a line only what stands in front of its first character other than a space is changed. -/
theorem reindentLine_append {c : Char} (solid : c ≠ ' ') (unit margin left rest : Text) :
    reindentLine unit margin (left ++ c :: rest) =
      margin ++ repeated unit
          ((left.length - (left.dropWhile (· == ' ')).length) / indentUnit.length) ++
        left.dropWhile (· == ' ') ++ c :: rest := by
  have stops : (c == ' ') = false := beq_eq_false_iff_ne.2 solid
  have kept : (left ++ c :: rest).dropWhile (· == ' ') = left.dropWhile (· == ' ') ++ c :: rest :=
    dropWhile_append_of_stop left stops
  have width : (left ++ c :: rest).length - (left.dropWhile (· == ' ') ++ c :: rest).length =
      left.length - (left.dropWhile (· == ' ')).length := by
    rw [List.length_append, List.length_append]
    omega
  unfold reindentLine
  rw [kept, ← width]
  cases front : left.dropWhile (· == ' ') <;> simp

theorem reindentLine_cons {c : Char} (solid : c ≠ ' ') (unit margin rest : Text) :
    reindentLine unit margin (c :: rest) = margin ++ c :: rest := by
  simpa [repeated] using reindentLine_append solid unit margin [] rest

/-- Code starts with its first line. -/
theorem emit_cons (first : Text) (later : List Text) :
    ∃ rest, emit (first :: later) = first ++ rest := by
  cases later with
  | nil => exact ⟨['\n'], by simp [emit, Text.join, List.intercalate]⟩
  | cons second others =>
    refine ⟨'\n' :: emit (second :: others), ?_⟩
    simp [emit, Text.join, List.intercalate, List.intersperse]

/-- Behind the first of several lines there are a line feed and the others. -/
theorem emit_cons_cons (first second : Text) (later : List Text) :
    emit (first :: second :: later) = first ++ '\n' :: emit (second :: later) := by
  simp [emit, Text.join, List.intercalate, List.intersperse]

theorem emit_eq_flatMap {lines : List Text} (nonempty : lines ≠ []) :
    emit lines = lines.flatMap (· ++ ['\n']) := by
  induction lines with
  | nil => exact absurd rfl nonempty
  | cons first later ih =>
    cases later with
    | nil => simp [emit, Text.join, List.intercalate]
    | cons second others => rw [emit_cons_cons, ih (by simp), List.flatMap_cons]; simp

/-- A text without boundaries that starts code, not indented, is found behind the margin. -/
theorem reindent_append {c : Char} {front : Text} (solid : c ≠ ' ')
    (unbroken : ∀ x ∈ c :: front, Text.isBoundary x = false) (unit margin rest : Text) :
    ∃ tail, reindent (c :: front ++ rest) unit margin = margin ++ (c :: front ++ tail) := by
  rcases Text.lines_append (List.cons_ne_nil c front) unbroken rest with ⟨tail, later, split⟩
  unfold reindent
  rw [split, List.map_cons, List.cons_append, reindentLine_cons solid]
  rcases emit_cons (margin ++ c :: (front ++ tail)) (later.map (reindentLine unit margin)) with
    ⟨behind, written⟩
  exact ⟨tail ++ behind, by rw [written]; simp⟩

/-- A first line without boundaries, not indented, is put behind the margin, and the others are
reindented on their own. -/
theorem reindent_append_feed {c : Char} {front rest : Text} (solid : c ≠ ' ')
    (unbroken : ∀ x ∈ c :: front, Text.isBoundary x = false) (nonempty : rest ≠ [])
    (unit margin : Text) :
    reindent (c :: front ++ '\n' :: rest) unit margin =
      margin ++ (c :: front ++ '\n' :: reindent rest unit margin) := by
  rcases List.exists_cons_of_ne_nil (Text.lines_ne_nil nonempty) with ⟨second, later, split⟩
  unfold reindent
  rw [Text.lines_append_feed unbroken, split, List.map_cons, List.map_cons, emit_cons_cons,
    reindentLine_cons solid]
  simp

end Code
end OpenRecord
