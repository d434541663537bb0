import OpenRecord.Text.Basic

namespace OpenRecord
namespace Text

/-!
# White space

Two sets of blank characters are in use.  `isSpace` is the Unicode white space that is removed
around configured affixes and rendered type expressions; `isIndent` holds the three characters
that may stand between the tokens of a line.
-/

/-- Unicode white space, together with the four ASCII information separators. -/
def isSpace (c : Char) : Bool :=
  let n := c.toNat
  (9 ≤ n && n ≤ 13) || (28 ≤ n && n ≤ 32) || n == 0x85 || n == 0xA0 || n == 0x1680 ||
    (0x2000 ≤ n && n ≤ 0x200A) || n == 0x2028 || n == 0x2029 || n == 0x202F || n == 0x205F ||
    n == 0x3000

/-- Characters between tokens: space, tab and form feed. -/
def isIndent (c : Char) : Bool :=
  c == ' ' || c == '\t' || c == '\x0c'

/-- Remove white space at both ends. -/
def trim (t : Text) : Text :=
  t.strip isSpace

end Text
end OpenRecord
