import Mathlib.Data.List.TakeWhile
import OpenRecord.Text.Blank

namespace OpenRecord

/-!
# Parts of a text

Texts are taken apart at characters: at the first or the last one of some kind, or at both ends as far
as they are of some kind.  Of the parts it is said here where they stand in the text, and which changes
of the text make no difference to them.  Among the changes are further characters that are put in
anywhere.
-/

/-! ## Members that stop -/

theorem takeWhile_append_of_stop {α : Type} {goes : α → Bool} {stop : α} (front : List α)
    {later : List α} (stops : goes stop = false) :
    (front ++ stop :: later).takeWhile goes = front.takeWhile goes := by
  induction front with
  | nil => simp [stops]
  | cons first others ih => simp only [List.cons_append, List.takeWhile_cons, ih]

/-- Nothing is dropped from behind a member that stops the dropping. -/
theorem dropWhile_append_of_stop {α : Type} {goes : α → Bool} {stop : α} (front : List α)
    {later : List α} (stops : goes stop = false) :
    (front ++ stop :: later).dropWhile goes = front.dropWhile goes ++ stop :: later := by
  induction front with
  | nil => simp [stops]
  | cons first others ih =>
    simp only [List.cons_append, List.dropWhile_cons, ih]
    split <;> rfl

namespace Text

/-! ## Texts with something put in between -/

/-- A text with further characters of some kind put in anywhere. -/
inductive Spread (gap : Char → Bool) : Text → Text → Prop
  | nil : Spread gap [] []
  | keep {c : Char} {s t : Text} : Spread gap s t → Spread gap (c :: s) (c :: t)
  | put {c : Char} {s t : Text} : gap c = true → Spread gap s t → Spread gap s (c :: t)

namespace Spread

variable {gap : Char → Bool} {s t u v : Text}

theorem refl (s : Text) : Spread gap s s := by
  induction s with
  | nil => exact .nil
  | cons c s ih => exact .keep ih

theorem append (first : Spread gap s t) (second : Spread gap u v) :
    Spread gap (s ++ u) (t ++ v) := by
  induction first with
  | nil => exact second
  | keep _ ih => exact .keep ih
  | put between _ ih => exact .put between ih

theorem reverse (spread : Spread gap s t) : Spread gap s.reverse t.reverse := by
  induction spread with
  | nil => exact .nil
  | keep _ ih =>
    rw [List.reverse_cons, List.reverse_cons]
    exact ih.append (refl _)
  | @put c s t between _ ih =>
    rw [List.reverse_cons, ← List.append_nil s.reverse]
    exact ih.append (.put between .nil)

theorem filter (gap : Char → Bool) (t : Text) : Spread gap (t.filter (!gap ·)) t := by
  induction t with
  | nil => exact .nil
  | cons c t ih =>
    cases between : gap c with
    | true => simpa [between] using ih.put between
    | false => simpa [between] using ih.keep

theorem subset (spread : Spread gap s t) : s ⊆ t := by
  induction spread with
  | nil => exact List.Subset.refl _
  | keep _ ih => exact List.cons_subset_cons _ ih
  | put _ _ ih => exact List.subset_cons_of_subset _ ih

/-- Where nothing can have been put in, nothing was. -/
theorem eq_of_clear (spread : Spread gap s t) (clear : ∀ c ∈ t, gap c = false) : s = t := by
  induction spread with
  | nil => rfl
  | keep _ ih => rw [ih fun c member => clear c (List.mem_cons_of_mem _ member)]
  | @put c _ _ between _ _ =>
    rw [clear c (List.mem_cons_self ..)] at between
    cases between

/-- What two texts one behind the other were put into. -/
theorem exists_append (spread : Spread gap s (t ++ u)) :
    ∃ front back, s = front ++ back ∧ Spread gap front t ∧ Spread gap back u := by
  induction t generalizing s with
  | nil => exact ⟨[], s, rfl, .nil, spread⟩
  | cons c t ih =>
    cases spread with
    | keep rest =>
      rcases ih rest with ⟨front, back, rfl, first, second⟩
      exact ⟨c :: front, back, rfl, first.keep, second⟩
    | put between rest =>
      rcases ih rest with ⟨front, back, rfl, first, second⟩
      exact ⟨front, back, rfl, first.put between, second⟩

section Trimming

variable {p : Char → Bool} (inner : ∀ c, p c = true → gap c = true)

include inner

/-- What is taken off the front of a text may have been put in. -/
theorem dropWhile_left (spread : Spread gap s t) : Spread gap (s.dropWhile p) t := by
  induction spread with
  | nil => exact .nil
  | @keep c s t rest ih =>
    cases off : p c with
    | true => simpa [off] using ih.put (inner c off)
    | false => simpa [off] using rest.keep
  | put between _ ih => exact .put between ih

theorem dropWhile (spread : Spread gap s t) : Spread gap (s.dropWhile p) (t.dropWhile p) := by
  induction spread with
  | nil => exact .nil
  | @keep c s t rest ih =>
    cases off : p c with
    | true => simpa [off] using ih
    | false => simpa [off] using rest.keep
  | @put c s t between rest ih =>
    cases off : p c with
    | true => simpa [off] using ih
    | false => simpa [off] using (rest.dropWhile_left inner).put between

theorem strip (spread : Spread gap s t) : Spread gap (Text.strip p s) (Text.strip p t) :=
  ((spread.dropWhile inner).reverse.dropWhile inner).reverse

end Trimming

end Spread

/-! ## Parts of a text -/

section Parts

variable {p : Char → Bool} {c : Char} {t : Text}

theorem exists_stripLeft (p : Char → Bool) (t : Text) :
    ∃ front, t = front ++ stripLeft p t ∧ ∀ c ∈ front, p c = true :=
  ⟨t.takeWhile p, List.takeWhile_append_dropWhile.symm, fun _ => List.mem_takeWhile_imp⟩

/-- What is taken off both ends of a text stands at its ends. -/
theorem exists_strip (p : Char → Bool) (t : Text) :
    ∃ front back, t = front ++ strip p t ++ back ∧ (∀ c ∈ front, p c = true) ∧
      ∀ c ∈ back, p c = true := by
  rcases exists_stripLeft p t with ⟨front, parts, first⟩
  rcases exists_stripLeft p (stripLeft p t).reverse with ⟨back, others, last⟩
  refine ⟨front, back.reverse, ?_, first, fun c member => last c (List.mem_reverse.1 member)⟩
  rw [List.append_assoc]
  refine parts.trans (congrArg (front ++ ·) ?_)
  rw [← List.reverse_inj, others, List.reverse_append, List.reverse_reverse]
  simp only [strip, stripRight, stripLeft, List.reverse_reverse]

/-- A text goes on with the character that its first part ends before. -/
theorem before_cases (c : Char) (t : Text) :
    t = before c t ∨ ∃ later, t = before c t ++ c :: later := by
  have parts : before c t ++ t.dropWhile (· ≠ c) = t := List.takeWhile_append_dropWhile
  cases rest : t.dropWhile (· ≠ c) with
  | nil =>
    rw [rest, List.append_nil] at parts
    exact .inl parts.symm
  | cons first later =>
    have stops := List.head?_dropWhile_not (· ≠ c) t
    rw [rest] at stops parts
    have same : first = c := by simpa using stops
    rw [same] at parts
    exact .inr ⟨later, parts.symm⟩

/-- The first part of a text is free of the character that it ends before. -/
theorem notMem_before (c : Char) (t : Text) : c ∉ before c t := by
  intro member
  simpa using List.mem_takeWhile_imp member

/-- In front of the last part of a text stands the character that it begins behind. -/
theorem afterLast_cases (c : Char) (t : Text) :
    t = afterLast c t ∨ ∃ path, t = path ++ c :: afterLast c t := by
  rcases before_cases c t.reverse with whole | ⟨later, parts⟩
  · exact .inl (by simpa [afterLast, before] using congrArg List.reverse whole)
  · exact .inr ⟨later.reverse, by simpa [afterLast, before] using congrArg List.reverse parts⟩

/-- Nothing is taken off the front of a text that begins with another character. -/
theorem stripLeft_of_front {front : Text} (solid : front ≠ []) (stays : ∀ c ∈ front, p c = false)
    (t : Text) : stripLeft p (front ++ t) = front ++ t := by
  cases front with
  | nil => exact absurd rfl solid
  | cons c front =>
    have first := stays c List.mem_cons_self
    simp [stripLeft, first]

/-- Nothing is taken off the end of a text but what stands behind another character. -/
theorem stripRight_of_back {back taken : Text} (solid : back ≠ [])
    (stays : ∀ c ∈ back, p c = false) (goes : ∀ c ∈ taken, p c = true) (t : Text) :
    stripRight p (t ++ (back ++ taken)) = t ++ back := by
  have turned : stripLeft p (back.reverse ++ t.reverse) = back.reverse ++ t.reverse :=
    stripLeft_of_front (by simpa using solid)
      (fun c member => stays c (List.mem_reverse.1 member)) t.reverse
  have off : ∀ c ∈ taken.reverse, p c = true := fun c member => goes c (List.mem_reverse.1 member)
  rw [stripRight, List.reverse_append, List.reverse_append, List.append_assoc,
    List.dropWhile_append_of_pos off]
  refine (congrArg List.reverse turned).trans ?_
  rw [← List.reverse_append, List.reverse_reverse]

/-- Nothing is taken off the end of a text from in front of a character that stops the taking. -/
theorem stripRight_of_stop (stops : p c = false) (t later : Text) :
    stripRight p (t ++ c :: later) = t ++ c :: stripRight p later := by
  rw [stripRight, List.reverse_append, List.reverse_cons, List.append_assoc,
    List.singleton_append, dropWhile_append_of_stop _ stops]
  simp [stripRight]

/-- Characters around a text that are taken off make no difference. -/
theorem strip_between {front back : Text} (ahead : ∀ c ∈ front, p c = true)
    (behind : ∀ c ∈ back, p c = true) : strip p (front ++ t ++ back) = strip p t := by
  have off : back.dropWhile p = [] := List.dropWhile_eq_nil_iff.2 behind
  rw [strip, strip, stripLeft, stripLeft, List.append_assoc, List.dropWhile_append_of_pos ahead,
    List.dropWhile_append, off]
  cases rest : t.dropWhile p with
  | nil => rfl
  | cons first later =>
    have goes : ∀ c ∈ back.reverse, p c = true := fun c member => behind c (List.mem_reverse.1 member)
    rw [List.isEmpty_cons, if_neg Bool.false_ne_true, stripRight, stripRight, List.reverse_append,
      List.dropWhile_append_of_pos goes]

/-- What is taken off both ends is taken off at once. -/
theorem strip_strip (p : Char → Bool) (t : Text) : strip p (strip p t) = strip p t := by
  rcases exists_strip p t with ⟨front, back, whole, ahead, behind⟩
  calc strip p (strip p t) = strip p (front ++ strip p t ++ back) :=
        (strip_between ahead behind).symm
    _ = strip p t := by rw [← whole]

/-- A text without the separator is its own last part. -/
theorem afterLast_of_notMem (free : c ∉ t) : afterLast c t = t := by
  have whole : t.reverse.takeWhile (· ≠ c) = t.reverse := by
    rw [List.takeWhile_eq_self_iff]
    intro x member
    have other : x ≠ c := by
      rintro rfl
      exact free (List.mem_reverse.1 member)
    simpa using other
  rw [afterLast, whole, List.reverse_reverse]

/-- What stands in front of the last separator makes no difference to the last part. -/
theorem afterLast_append (free : c ∉ t) (path : Text) : afterLast c (path ++ c :: t) = t := by
  have parts : (t.reverse ++ c :: path.reverse).takeWhile (· ≠ c) = t.reverse.takeWhile (· ≠ c) :=
    takeWhile_append_of_stop _ (by simp)
  rw [afterLast, List.reverse_append, List.reverse_cons, List.append_assoc, List.singleton_append,
    parts]
  exact afterLast_of_notMem free

/-- The first part of a text is what stands in front of the first separator, if there is one. -/
theorem before_append (free : c ∉ t) {later : Text}
    (ends : later = [] ∨ ∃ rest, later = c :: rest) : before c (t ++ later) = t := by
  have goes : ∀ x ∈ t, decide (x ≠ c) = true := by
    intro x member
    have other : x ≠ c := by
      rintro rfl
      exact free member
    simpa using other
  rw [before, List.takeWhile_append_of_pos goes]
  rcases ends with rfl | ⟨rest, rfl⟩ <;> simp

/-- The first character of a text belongs to what stands in front. -/
theorem mem_of_cons_eq_append {front back : Text} (whole : c :: t = front ++ back)
    (solid : front ≠ []) : c ∈ front := by
  cases front with
  | nil => exact absurd rfl solid
  | cons first rest =>
    cases whole
    exact List.mem_cons_self

/-- The last character of a text belongs to what stands behind. -/
theorem mem_of_concat_eq_append {front back : Text} (whole : t ++ [c] = front ++ back)
    (solid : back ≠ []) : c ∈ back := by
  have turned := congrArg List.reverse whole
  rw [List.reverse_append, List.reverse_append, List.reverse_singleton,
    List.singleton_append] at turned
  exact List.mem_reverse.1 (mem_of_cons_eq_append turned (by simpa using solid))

end Parts

/-! ## Pieces between separators -/

theorem join_split (c : Char) (t : Text) : join [c] (split c t) = t := by
  induction t with
  | nil => rfl
  | cons x rest ih =>
    rcases List.exists_cons_of_ne_nil (split_ne_nil c rest) with ⟨piece, pieces, parts⟩
    rw [parts] at ih
    rw [split, parts]
    split
    case isTrue same =>
      rw [← ih, same]
      simp [join, List.intercalate, List.intersperse]
    case isFalse =>
      rw [← ih]
      cases pieces <;> simp [join, List.intercalate, List.intersperse]

theorem notMem_of_mem_split {c : Char} {t piece : Text} (member : piece ∈ split c t) :
    c ∉ piece := by
  induction t generalizing piece with
  | nil =>
    rw [split, List.mem_singleton] at member
    simp [member]
  | cons x rest ih =>
    rcases List.exists_cons_of_ne_nil (split_ne_nil c rest) with ⟨first, later, parts⟩
    rw [parts] at ih
    rw [split, parts] at member
    split at member
    case isTrue same =>
      rcases List.mem_cons.1 member with rfl | inside
      · exact List.not_mem_nil
      · exact ih inside
    case isFalse other =>
      rcases List.mem_cons.1 member with rfl | inside
      · rw [List.mem_cons, not_or]
        exact ⟨Ne.symm other, ih (List.mem_cons_self ..)⟩
      · exact ih (List.mem_cons_of_mem first inside)

/-- A text without the separator goes into the first piece of what stands behind it. -/
theorem split_front {c : Char} {front : Text} (free : c ∉ front) (rest : Text) :
    split c (front ++ rest) = (front ++ (split c rest).headD []) :: (split c rest).tail := by
  induction front with
  | nil =>
    rcases List.exists_cons_of_ne_nil (split_ne_nil c rest) with ⟨piece, pieces, parts⟩
    rw [List.nil_append, parts]
    rfl
  | cons x front ih =>
    rw [List.mem_cons, not_or] at free
    rw [List.cons_append, split, if_neg (Ne.symm free.1), ih free.2]
    rfl

theorem split_of_notMem {c : Char} {piece : Text} (free : c ∉ piece) : split c piece = [piece] := by
  simpa [split] using split_front free []

theorem split_append {c : Char} {piece : Text} (free : c ∉ piece) (rest : Text) :
    split c (piece ++ c :: rest) = piece :: split c rest := by
  rw [split_front free, split, if_pos rfl]
  simp

theorem split_join {c : Char} {pieces : List Text} (nonempty : pieces ≠ [])
    (free : ∀ piece ∈ pieces, c ∉ piece) : split c (join [c] pieces) = pieces := by
  induction pieces with
  | nil => exact absurd rfl nonempty
  | cons first later ih =>
    rw [List.forall_mem_cons] at free
    cases later with
    | nil => simpa [join, List.intercalate] using split_of_notMem free.1
    | cons second others =>
      have rest := ih (List.cons_ne_nil second others) free.2
      have parts : join [c] (first :: second :: others) =
          first ++ c :: join [c] (second :: others) := by
        simp [join, List.intercalate, List.intersperse]
      rw [parts, split_append free.1, rest]

end Text

end OpenRecord
