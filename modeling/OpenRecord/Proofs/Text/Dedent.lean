import OpenRecord.Proofs.Text.Parts
import OpenRecord.Source.Retrieval

namespace OpenRecord

/-!
# What a class loses when it is read back

A class is read back from its lines without their margin.  Each line with something else than spaces
and tabs in it keeps what stands behind the margin, and no longer margin would do.  All other lines
lose everything, also those inside a literal: nothing here looks at what a line is a part of.
-/

namespace Text

/-! ## Margins -/

theorem isPrefix_commonStart {front left right : Text} (first : front <+: left)
    (second : front <+: right) : front <+: commonStart left right := by
  induction front generalizing left right with
  | nil => exact List.nil_prefix
  | cons c front ih =>
    rcases first with ⟨left, rfl⟩
    rcases second with ⟨right, rfl⟩
    rw [List.cons_append, List.cons_append, commonStart, if_pos rfl]
    exact List.cons_prefix_cons.2 ⟨rfl, ih ⟨left, rfl⟩ ⟨right, rfl⟩⟩

theorem isPrefix_commonStartOfAll {front : Text} {texts : List Text} (nonempty : texts ≠ [])
    (each : ∀ text ∈ texts, front <+: text) : front <+: commonStartOfAll texts := by
  fun_induction commonStartOfAll texts with
  | case1 => exact absurd rfl nonempty
  | case2 only => exact each only (List.mem_singleton_self _)
  | case3 first later some_left ih =>
    rw [List.forall_mem_cons] at each
    exact isPrefix_commonStart each.1 (ih some_left each.2)

/-- The margin that a text loses. -/
def marginOf (t : Text) : Text :=
  margin ((split '\n' t).map emptied)

/-- A line with something else than spaces and tabs in it. -/
def IsSolid (line : Text) : Prop :=
  line.all isMargin = false

instance (line : Text) : Decidable line.IsSolid :=
  inferInstanceAs (Decidable (_ = _))

theorem emptied_of_isSolid {line : Text} (solid : line.IsSolid) : emptied line = line := by
  have other : line.all isMargin = false := solid
  rw [emptied, other, if_neg Bool.false_ne_true]

theorem emptied_of_not_isSolid {line : Text} (blank : ¬line.IsSolid) : emptied line = [] := by
  rw [emptied, if_pos (by simpa [IsSolid] using blank)]

theorem marginOf_isPrefix {t line : Text} (member : line ∈ split '\n' t) (solid : line.IsSolid) :
    marginOf t <+: line := by
  have nonempty : line ≠ [] := by
    rintro rfl
    cases solid
  have among : line ∈ ((split '\n' t).map emptied).filter (!·.isEmpty) := by
    refine List.mem_filter.2 ⟨List.mem_map.2 ⟨line, member, emptied_of_isSolid solid⟩, ?_⟩
    simp [nonempty]
  exact (commonStartOfAll_startsEach (List.mem_map_of_mem among)).trans
    (List.takeWhile_prefix isMargin)

/-- No more than the margin could be taken away from all lines. -/
theorem isPrefix_marginOf {t front : Text} (blank : ∀ c ∈ front, isMargin c = true)
    (some_solid : ∃ line ∈ split '\n' t, line.IsSolid)
    (each : ∀ line ∈ split '\n' t, line.IsSolid → front <+: line) : front <+: marginOf t := by
  refine isPrefix_commonStartOfAll ?_ ?_
  · rcases some_solid with ⟨line, member, solid⟩
    have nonempty : line ≠ [] := by
      rintro rfl
      cases solid
    refine List.ne_nil_of_mem (a := line.takeWhile isMargin) (List.mem_map_of_mem ?_)
    refine List.mem_filter.2 ⟨List.mem_map.2 ⟨line, member, emptied_of_isSolid solid⟩, ?_⟩
    simp [nonempty]
  · refine List.forall_mem_map.2 fun line member => ?_
    rcases List.mem_filter.1 member with ⟨among, nonempty⟩
    rcases List.mem_map.1 among with ⟨whole, inside, rfl⟩
    by_cases solid : whole.IsSolid
    · rw [emptied_of_isSolid solid]
      rcases each whole inside solid with ⟨back, rfl⟩
      rw [List.takeWhile_append_of_pos blank]
      exact List.prefix_append front _
    · rw [emptied_of_not_isSolid solid] at nonempty
      cases nonempty

/-! ## Without the margin -/

theorem withoutMargin_append (margin rest : Text) :
    withoutMargin margin (margin ++ rest) = rest := by
  rw [withoutMargin, if_pos (by simp), List.drop_left]

theorem notMem_withoutMargin {c : Char} {margin line : Text} (free : c ∉ line) :
    c ∉ withoutMargin margin line := by
  unfold withoutMargin
  split
  · exact fun member => free (List.mem_of_mem_drop member)
  · exact free

/-- The lines of a text without its margin: solid ones behind the margin, all others empty. -/
theorem split_dedent (t : Text) :
    split '\n' (dedent t) =
      (split '\n' t).map fun line => if line.IsSolid then line.drop (marginOf t).length else [] := by
  have pieces : (split '\n' t).map (fun line => withoutMargin (marginOf t) (emptied line)) =
      (split '\n' t).map fun line => if line.IsSolid then line.drop (marginOf t).length else [] := by
    refine List.map_congr_left fun line member => ?_
    by_cases solid : line.IsSolid
    · rcases marginOf_isPrefix member solid with ⟨rest, whole⟩
      rw [emptied_of_isSolid solid, if_pos solid, ← whole, withoutMargin_append, List.drop_left]
    · rw [emptied_of_not_isSolid solid, if_neg solid]
      cases margin : marginOf t <;> rfl
  rw [← pieces, dedent, List.map_map]
  refine split_join (by simp [split_ne_nil]) (List.forall_mem_map.2 fun line member => ?_)
  refine notMem_withoutMargin ?_
  by_cases solid : line.IsSolid
  · rw [emptied_of_isSolid solid]
    exact notMem_of_mem_split member
  · rw [emptied_of_not_isSolid solid]
    exact List.not_mem_nil

/-- A text stays as it is exactly if it has no margin and its lines without anything solid are
empty. -/
theorem dedent_eq_self_iff (t : Text) :
    dedent t = t ↔ marginOf t = [] ∧ ∀ line ∈ split '\n' t, ¬line.IsSolid → line = [] := by
  have same : dedent t = t ↔ ∀ line ∈ split '\n' t,
      (if line.IsSolid then line.drop (marginOf t).length else []) = line := by
    have pieces := List.map_inj_left (l := split '\n' t) (g := id)
      (f := fun line => if line.IsSolid then line.drop (marginOf t).length else [])
    rw [List.map_id, ← split_dedent] at pieces
    refine Iff.trans ⟨fun whole => congrArg (split '\n') whole, fun lines => ?_⟩ pieces
    rw [← join_split '\n' (dedent t), lines, join_split]
  rw [same]
  constructor
  · intro kept
    refine ⟨?_, fun line member blank => by rw [← kept line member, if_neg blank]⟩
    by_cases some_solid : ∃ line ∈ split '\n' t, line.IsSolid
    · rcases some_solid with ⟨line, member, solid⟩
      have lengths := congrArg List.length (kept line member)
      have long := (marginOf_isPrefix member solid).length_le
      rw [if_pos solid, List.length_drop] at lengths
      have nonempty : line ≠ [] := by
        rintro rfl
        cases solid
      have positive := List.length_pos_iff.2 nonempty
      exact List.length_eq_zero_iff.1 (by omega)
    · have none_left : ((split '\n' t).map emptied).filter (!·.isEmpty) = [] := by
        refine List.filter_eq_nil_iff.2 (List.forall_mem_map.2 fun line member => ?_)
        rw [emptied_of_not_isSolid fun solid => some_solid ⟨line, member, solid⟩]
        decide
      rw [marginOf, margin, none_left]
      rfl
  · rintro ⟨margin, empty⟩ line member
    by_cases solid : line.IsSolid
    · rw [if_pos solid, margin]
      rfl
    · rw [if_neg solid, empty line member solid]

end Text

/-! ## Classes -/

/-- What a class is read back from: each solid line behind the margin that all of them have in
common, and each other line emptied. -/
theorem Source.FoundClass.split_definition (found : FoundClass) :
    (∀ line ∈ Text.split '\n' found.lines, line.IsSolid → Text.marginOf found.lines <+: line) ∧
      Text.split '\n' found.definition =
        (Text.split '\n' found.lines).map fun line =>
          if line.IsSolid then line.drop (Text.marginOf found.lines).length else [] :=
  ⟨fun _ member solid => Text.marginOf_isPrefix member solid, Text.split_dedent found.lines⟩

/-- A class is read back from its own lines exactly if they have no margin and each of them that is
not empty has more in it than spaces and tabs. -/
theorem Source.FoundClass.definition_eq_lines_iff (found : FoundClass) :
    found.definition = found.lines ↔ Text.marginOf found.lines = [] ∧
      ∀ line ∈ Text.split '\n' found.lines, ¬line.IsSolid → line = [] :=
  Text.dedent_eq_self_iff found.lines

end OpenRecord
