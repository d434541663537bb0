import OpenRecord.Text.Basic

namespace OpenRecord
namespace Text

/-!
# Line boundaries

Two notions of line are in use.  A *break* of a source file is a line feed, a carriage return or
the pair of both; tokens, positions and printing know only these.  Emitted code is taken apart at
every Unicode *boundary*, of which the breaks are a part.
-/

def splitBreak : Text → Option (Text × Text)
  | '\r' :: '\n' :: rest => some (['\r', '\n'], rest)
  | '\r' :: rest => some (['\r'], rest)
  | '\n' :: rest => some (['\n'], rest)
  | _ => none

/-- The characters that line breaks are made of. -/
def isBreak (c : Char) : Bool :=
  c == '\n' || c == '\r'

def firstBreak : Text → Option Text
  | [] => none
  | c :: rest =>
    match splitBreak (c :: rest) with
    | some (found, _) => some found
    | none => firstBreak rest

/-- The number of line breaks; a carriage return and a line feed after it count once. -/
def breakCount : Text → Nat
  | [] => 0
  | '\r' :: '\n' :: rest => breakCount rest + 1
  | c :: rest => (if isBreak c then 1 else 0) + breakCount rest

/-- Remove one line break at the end of a text, if there is one. -/
def dropFinalBreak (t : Text) : Text :=
  match t.reverse with
  | '\n' :: '\r' :: rest => rest.reverse
  | '\n' :: rest => rest.reverse
  | '\r' :: rest => rest.reverse
  | _ => t

/-- The characters at which emitted code is taken apart into lines. -/
def isBoundary (c : Char) : Bool :=
  isBreak c || c == '\x0b' || c == '\x0c' || c == '\x1c' || c == '\x1d' || c == '\x1e' ||
    c == '\u0085' || c == '\u2028' || c == '\u2029'

/-- The lines of a text without their boundaries.  A boundary ends a line, so that a text that
ends in one has no empty line after it. -/
def lines : Text → List Text
  | [] => []
  | '\r' :: '\n' :: rest => [] :: lines rest
  | c :: rest =>
    if isBoundary c then [] :: lines rest
    else match lines rest with
      | [] => [[c]]
      | line :: later => (c :: line) :: later

end Text
end OpenRecord
