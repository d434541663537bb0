import OpenRecord.Text.Basic
import OpenRecord.Text.Printable

namespace OpenRecord
namespace Text

/-!
# Quoted texts

A text is quoted as a string literal on one line.  The mark is the single quotation mark, unless
the text holds one and no double mark.  The mark, the backslash and every character that is not
printable are escaped; all others stand for themselves.
-/

def singleMark : Char := '\x27'

def doubleMark : Char := '\x22'

def chooseMark (t : Text) : Char :=
  if t.contains singleMark && !t.contains doubleMark then doubleMark else singleMark

/-- A digit of base sixteen. -/
def hexDigit (n : Nat) : Char :=
  if n < 10 then Char.ofNat (48 + n) else Char.ofNat (87 + n)

/-- The lowest digits of a number in base sixteen, as many as asked for. -/
def hexDigits : Nat → Nat → Text
  | 0, _ => []
  | width + 1, n => hexDigits width (n / 16) ++ [hexDigit (n % 16)]

/-- The written form of one character between marks. -/
def escape (mark c : Char) : Text :=
  if c = mark || c = '\x5c' then ['\x5c', c]
  else if c = '\n' then ['\x5c', 'n']
  else if c = '\r' then ['\x5c', 'r']
  else if c = '\t' then ['\x5c', 't']
  else if isPrintable c then [c]
  else if c.toNat < 0x100 then '\x5c' :: 'x' :: hexDigits 2 c.toNat
  else if c.toNat < 0x10000 then '\x5c' :: 'u' :: hexDigits 4 c.toNat
  else '\x5c' :: 'U' :: hexDigits 8 c.toNat

/-- A text as a string literal. -/
def quoted (t : Text) : Text :=
  let mark := chooseMark t
  mark :: t.flatMap (escape mark) ++ [mark]

end Text
end OpenRecord
