import OpenRecord.Text.Basic

namespace OpenRecord
namespace Text

/-!
# Sets of characters given by their boundaries

A set of code points is written as the increasing list of the places where membership changes:
the first entry is the first member, the second the first code point after it that is no member,
and so on.  Long character properties of the Unicode standard take half the space this way, and
the two lists of a property and of its complement differ in one entry at most.
-/

/-- Membership of a code point: every boundary at or below it changes the answer once. -/
def withinBoundaries : List Nat → Nat → Bool
  | [], _ => false
  | boundary :: later, code =>
    if code < boundary then false else !withinBoundaries later code

end Text
end OpenRecord
