import OpenRecord.Text.Identifier
import OpenRecord.Text.Lines

namespace OpenRecord
namespace Source

/-!
# The extent of numbers and quoted literals

Each function here takes the text behind the first characters of a literal and returns the
characters that still belong to it together with what follows.  The two lists spell the text
that was given.
-/

/-- A scanned run and what follows it. -/
abbrev Scan := Option (Text × Text)

/-- Put characters in front of a scanned run. -/
def Scan.push (front : Text) : Scan → Scan
  | none => none
  | some (run, rest) => some (front ++ run, rest)

/-! ## Numbers -/

/-- Digits of a base, of which any two may be joined by one underscore.  `fresh` says that an
underscore may come next only if a digit stands before it. -/
def digitRun (isDigit : Char → Bool) : Bool → Text → Scan
  | afterDigit, [] => if afterDigit then some ([], []) else none
  | afterDigit, c :: rest =>
    if isDigit c then (digitRun isDigit true rest).push [c]
    else if c == '_' then
      if afterDigit then (digitRun isDigit false rest).push [c] else none
    else if afterDigit then some ([], c :: rest) else none

/-- A digit of a hexadecimal number. -/
def isHexDigit (c : Char) : Bool :=
  Text.isAsciiDigit c || ('a' ≤ c && c ≤ 'f') || ('A' ≤ c && c ≤ 'F')

/-- The words that may touch a number, by the letters that tell them apart. -/
def wordsAfterNumber : List Text :=
  [['a', 'n', 'd'], ['e', 'l', 's', 'e'], ['f', 'o', 'r'], ['i', 'f'], ['i', 'n'], ['i', 's'],
    ['o', 'r'], ['n', 'o', 't']]

/-- Whether a number may end before this text: no name follows, or one of a few words. -/
def numberEndsBefore : Text → Bool
  | [] => true
  | c :: rest =>
    !(Text.isAsciiNameStart c || Text.isAsciiDigit c || 128 ≤ c.toNat) ||
      wordsAfterNumber.any (·.isPrefixOf (c :: rest))

/-- Accept a scanned number only where a number may end. -/
def closeNumber (scan : Scan) : Scan :=
  scan.filter fun (_, rest) => numberEndsBefore rest

/-- The rest of a number after its fraction: an exponent if there is a whole one, then the mark of
an imaginary number. -/
def exponentAndMark (text : Text) : Scan :=
  let exponent : Option Scan :=
    match text with
    | e :: sign :: d :: rest =>
      if e == 'e' || e == 'E' then
        if (sign == '+' || sign == '-') && Text.isAsciiDigit d then
          some ((digitRun Text.isAsciiDigit false (d :: rest)).push [e, sign])
        else if Text.isAsciiDigit sign then
          some ((digitRun Text.isAsciiDigit false (sign :: d :: rest)).push [e])
        else none
      else none
    | [e, d] =>
      if (e == 'e' || e == 'E') && Text.isAsciiDigit d then some (some ([e, d], [])) else none
    | _ => none
  match exponent.getD (some ([], text)) with
  | some (run, mark :: rest) =>
    if mark == 'j' || mark == 'J' then some (run ++ [mark], rest) else some (run, mark :: rest)
  | other => other

/-- The rest of a number after its decimal point. -/
def fraction (text : Text) : Scan :=
  match text with
  | d :: _ =>
    if Text.isAsciiDigit d then do
      let (digits, rest) ← digitRun Text.isAsciiDigit false text
      (exponentAndMark rest).push digits
    else exponentAndMark text
  | [] => some ([], [])

/-- The rest of a decimal number after its whole part. -/
def afterWhole (text : Text) : Scan :=
  match text with
  | '.' :: rest => (fraction rest).push ['.']
  | _ => exponentAndMark text

/-- A number at the start of a text.  A whole part with a leading zero and another digit in it is a
number only with a fraction, an exponent or the imaginary mark. -/
def number (text : Text) : Scan :=
  closeNumber <| match text with
  | '.' :: rest => (fraction rest).push ['.']
  | '0' :: x :: rest =>
    if x == 'x' || x == 'X' then based isHexDigit x rest
    else if x == 'o' || x == 'O' then based (fun c => '0' ≤ c && c ≤ '7') x rest
    else if x == 'b' || x == 'B' then based (fun c => c == '0' || c == '1') x rest
    else decimalNumber text
  | _ => decimalNumber text
where
  /-- Digits after the mark of a base; an underscore may follow the mark. -/
  based (isDigit : Char → Bool) (x : Char) (rest : Text) : Scan :=
    match rest with
    | '_' :: digits => (digitRun isDigit false digits).push ['0', x, '_']
    | _ => (digitRun isDigit false rest).push ['0', x]
  /-- A whole part, and what may come after one. -/
  decimalNumber (text : Text) : Scan := do
    let (digits, rest) ← digitRun Text.isAsciiDigit false text
    let (tail, after) ← afterWhole rest
    let padded := digits.head? == some '0' && digits.any fun c => c != '0' && c != '_'
    if padded && tail == [] then none else some (digits ++ tail, after)

/-! ## Quoted literals -/

/-- What the letters before a quotation mark say. -/
structure LiteralFlavour where
  raw : Bool
  template : Bool
deriving DecidableEq

/-- The flavour that the letters before a quotation mark give, in either case and order. -/
def LiteralFlavour.ofLetters? (letters : Text) : Option LiteralFlavour :=
  match letters.map Char.toLower with
  | [] => some ⟨false, false⟩
  | ['u'] => some ⟨false, false⟩
  | ['b'] => some ⟨false, false⟩
  | ['r'] => some ⟨true, false⟩
  | ['b', 'r'] => some ⟨true, false⟩
  | ['r', 'b'] => some ⟨true, false⟩
  | ['f'] => some ⟨false, true⟩
  | ['f', 'r'] => some ⟨true, true⟩
  | ['r', 'f'] => some ⟨true, true⟩
  | _ => none

/-- The marks that close a literal. -/
structure Quotation where
  mark : Char
  triple : Bool
  raw : Bool
deriving DecidableEq

def Quotation.marks (q : Quotation) : Text :=
  if q.triple then [q.mark, q.mark, q.mark] else [q.mark]

/-- The rest of a literal in single marks, its closing mark included.  A backslash protects the
character after it; an unprotected line break ends no literal. -/
def singleQuoted (mark : Char) : Text → Scan
  | [] => none
  | '\x5c' :: '\r' :: '\n' :: rest => (singleQuoted mark rest).push ['\x5c', '\r', '\n']
  | '\x5c' :: c :: rest => (singleQuoted mark rest).push ['\x5c', c]
  | c :: rest =>
    if c = mark then some ([c], rest)
    else if Text.isBreak c then none
    else (singleQuoted mark rest).push [c]

/-- The rest of a literal in triple marks, its closing marks included. -/
def tripleQuoted (mark : Char) : Text → Scan
  | [] => none
  | '\x5c' :: c :: rest => (tripleQuoted mark rest).push ['\x5c', c]
  | c :: rest =>
    if c = mark && [mark, mark].isPrefixOf rest then some ([c, mark, mark], rest.drop 2)
    else (tripleQuoted mark rest).push [c]

/-- Where a stretch of template text goes on inside a longer unit. -/
inductive TemplateMode
  | plain
  /-- The next character is protected. -/
  | protected_
  /-- Inside the braces of a named character. -/
  | named
deriving DecidableEq

/-- Characters of a template up to a brace that opens or closes a field, a closing mark, or a line
break that the marks do not allow.  Doubled braces are text, except in a format specification. -/
def templateText (q : Quotation) (inSpecification : Bool) : TemplateMode → Text → Text × Text
  | _, [] => ([], [])
  | .protected_, c :: rest => keep c (templateText q inSpecification .plain rest)
  | .named, c :: rest =>
    keep c (templateText q inSpecification (if c == '}' then .plain else .named) rest)
  | .plain, '\x5c' :: '{' :: rest =>
    keep '\x5c' (templateText q inSpecification .plain ('{' :: rest))
  | .plain, '\x5c' :: '}' :: rest =>
    keep '\x5c' (templateText q inSpecification .plain ('}' :: rest))
  | .plain, '\x5c' :: 'N' :: '{' :: rest =>
    if q.raw then keep '\x5c' (templateText q inSpecification .protected_ ('N' :: '{' :: rest))
    else
      keep '\x5c' (keep 'N' (keep '{' (templateText q inSpecification .named rest)))
  | .plain, '\x5c' :: '\r' :: '\n' :: rest =>
    keep '\x5c' (keep '\r' (templateText q inSpecification .protected_ ('\n' :: rest)))
  | .plain, '\x5c' :: rest => keep '\x5c' (templateText q inSpecification .protected_ rest)
  | .plain, '{' :: '{' :: rest =>
    if inSpecification then ([], '{' :: '{' :: rest)
    else keep '{' (keep '{' (templateText q inSpecification .plain rest))
  | .plain, '}' :: '}' :: rest =>
    if inSpecification then ([], '}' :: '}' :: rest)
    else keep '}' (keep '}' (templateText q inSpecification .plain rest))
  | .plain, c :: rest =>
    if c == '{' || c == '}' then ([], c :: rest)
    else if q.marks.isPrefixOf (c :: rest) then ([], c :: rest)
    else if Text.isBreak c && !q.triple then ([], c :: rest)
    else keep c (templateText q inSpecification .plain rest)
where
  /-- Put a character in front of the text that was kept. -/
  keep (c : Char) : Text × Text → Text × Text
    | (run, rest) => (c :: run, rest)

end Source
end OpenRecord
