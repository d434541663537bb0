import OpenRecord.Text.Basic

namespace OpenRecord
namespace Text

/-!
# Margins

The margin of a text is what the beginnings of its lines have in common, as far as they consist of
spaces and tabs.  Lines of spaces and tabs alone have no part in it and lose all their characters.
-/

/-- Spaces and tabs. -/
def isMargin (c : Char) : Bool :=
  c == ' ' || c == '\t'

/-- The longest common beginning of two texts. -/
def commonStart : Text → Text → Text
  | a :: left, b :: right => if a = b then a :: commonStart left right else []
  | _, _ => []

/-- A line, emptied if it consists of spaces and tabs. -/
def emptied (line : Text) : Text :=
  if line.all isMargin then [] else line

/-- The longest common beginning of several texts. -/
def commonStartOfAll : List Text → Text
  | [] => []
  | [only] => only
  | first :: later => commonStart first (commonStartOfAll later)

def margin (lines : List Text) : Text :=
  commonStartOfAll ((lines.filter (!·.isEmpty)).map (·.takeWhile isMargin))

def withoutMargin (margin line : Text) : Text :=
  if margin.isPrefixOf line then line.drop margin.length else line

def dedent (t : Text) : Text :=
  let lines := (split '\n' t).map emptied
  join ['\n'] (lines.map (withoutMargin (margin lines)))

theorem commonStart_startsLeft (left right : Text) : commonStart left right <+: left := by
  fun_induction commonStart left right with
  | case1 a left right ih => exact List.cons_prefix_cons.2 ⟨rfl, ih⟩
  | case2 => exact List.nil_prefix
  | case3 => exact List.nil_prefix

theorem commonStart_startsRight (left right : Text) : commonStart left right <+: right := by
  fun_induction commonStart left right with
  | case1 a left right ih => exact List.cons_prefix_cons.2 ⟨rfl, ih⟩
  | case2 => exact List.nil_prefix
  | case3 => exact List.nil_prefix

theorem commonStartOfAll_startsEach {texts : List Text} {text : Text} (h : text ∈ texts) :
    commonStartOfAll texts <+: text := by
  fun_induction commonStartOfAll texts with
  | case1 => simp at h
  | case2 only => simp_all
  | case3 first later _ ih =>
    rcases List.mem_cons.1 h with rfl | h
    · exact commonStart_startsLeft _ _
    · exact (commonStart_startsRight _ _).trans (ih h)

end Text
end OpenRecord
