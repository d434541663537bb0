import OpenRecord.Source.Token
import OpenRecord.Text.Blank

namespace OpenRecord
namespace Source

/-!
# Expressions

Only a small part of an expression matters to the library: which dotted name it spells, what is
subscripted with which elements, what is called, and what it may be assigned to.  The tree below
keeps that part.  The characters of an expression are not in the tree; where they are needed, the
tokens that were read stand beside it.

Redundant parentheses leave no trace in the tree.
-/

/-- What matters about an expression. -/
inductive Expression
  | name (identifier : Text)
  /-- One of the three reserved names that stand for a value; it is no target. -/
  | constant (identifier : Text)
  | attribute (value : Expression) (identifier : Text)
  /-- A subscript; of its elements the expression, unless it is a slice, and the tokens. -/
  | subscript (value : Expression) (elements : List (Option Expression × List Token))
  | call (function : Expression)
  /-- One literal without replacement fields, joined with no other. -/
  | literal
  | tuple (items : List Expression)
  | list (items : List Expression)
  | starred (value : Expression)
  | other

/-- The tokens of an expression as text: without the margin of the block it stands in, with plain
line feeds, and without blanks around it. -/
def render (tokens : List Token) : Text :=
  (printTokens ⟨[], ['\n']⟩ (withoutFirstGap tokens)).trim

namespace Expression

/-- The name that a chain of attributes spells, its parts joined by dots; empty for any other
expression. -/
def dottedName : Expression → Text
  | .name identifier => identifier
  | .constant identifier => identifier
  | .attribute value identifier =>
    match value.dottedName with
    | [] => []
    | head => head ++ '.' :: identifier
  | _ => []

/-- The last part of a dotted name, behind at most one subscript. -/
def lastSegment : Expression → Text
  | .subscript value _ => Text.afterLast '.' value.dottedName
  | expression => Text.afterLast '.' expression.dottedName

/-- Whether the expression may stand alone before a colon or an augmented assignment. -/
def isSingleTarget : Expression → Bool
  | .name _ => true
  | .attribute _ _ => true
  | .subscript _ _ => true
  | _ => false

mutual

/-- Whether the expression may be assigned to, inside a tuple or list at least. -/
def isTarget : Expression → Bool
  | .name _ => true
  | .attribute _ _ => true
  | .subscript _ _ => true
  | .tuple items => areTargets items
  | .list items => areTargets items
  | .starred (.starred _) => false
  | .starred value => value.isTarget
  | _ => false

def areTargets : List Expression → Bool
  | [] => true
  | first :: later => first.isTarget && areTargets later

end

mutual

def isDeletable : Expression → Bool
  | .name _ => true
  | .attribute _ _ => true
  | .subscript _ _ => true
  | .tuple items => areDeletable items
  | .list items => areDeletable items
  | _ => false

def areDeletable : List Expression → Bool
  | [] => true
  | first :: later => first.isDeletable && areDeletable later

end

end Expression

/-- An argument of a call or of a class header. -/
structure Argument where
  keyword : Option Text
  /-- The number of stars before it. -/
  stars : Nat
  value : Expression
  tokens : List Token

end Source
end OpenRecord
