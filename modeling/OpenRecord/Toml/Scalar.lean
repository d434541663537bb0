import OpenRecord.Toml.Value

namespace OpenRecord
namespace Toml

/-!
# Strings, numbers, dates and keys

Every reader takes a text and gives a value with the rest of the text, or nothing if the text does
not start with one.  Lines end with a line feed alone; the caller has seen to that.
-/

abbrev Reader (α : Type) := Text → Option (α × Text)

/-! ## Characters -/

/-- White space within a line. -/
def isBlank (c : Char) : Bool :=
  c == ' ' || c == '\t'

/-- Control characters of the first 128 characters, the tab not among them. -/
def isControl (c : Char) : Bool :=
  (c.toNat < 32 && c != '\t') || c.toNat == 127

/-- The characters of a key without quotation marks. -/
def isBare (c : Char) : Bool :=
  c.isAlphanum || c == '-' || c == '_'

/-- The value of a digit of base sixteen. -/
def hexValue? (c : Char) : Option Nat :=
  if c.isDigit then some (c.toNat - 48)
  else if 'a' ≤ c ∧ c ≤ 'f' then some (c.toNat - 87)
  else if 'A' ≤ c ∧ c ≤ 'F' then some (c.toNat - 55)
  else none

/-- The text without the white space at its start. -/
def skipBlanks (t : Text) : Text :=
  t.dropWhile isBlank

/-- The text without the white space and the line ends at its start. -/
def skipLines (t : Text) : Text :=
  t.dropWhile fun c => isBlank c || c == '\n'

/-- The text behind a comment, if one stands at its start.  A comment holds no control character. -/
def skipComment : Text → Option Text
  | '#' :: rest =>
    if (rest.takeWhile (· ≠ '\n')).any isControl then none else some (rest.dropWhile (· ≠ '\n'))
  | t => some t

/-! ## Strings -/

def apostrophe : Char := '\x27'

def quotation : Char := '\x22'

def literalString (t : Text) : Option (Text × Text) :=
  let content := t.takeWhile (· ≠ apostrophe)
  if content.any isControl then none
  else match t.dropWhile (· ≠ apostrophe) with
    | [] => none
    | _ :: rest => some (content, rest)

/-- The text up to the three apostrophes that end it. -/
def literalLines : Text → Option (Text × Text)
  | [] => none
  | '\x27' :: '\x27' :: '\x27' :: rest => some ([], rest)
  | c :: rest =>
    if isControl c && c != '\n' then none
    else match literalLines rest with
      | none => none
      | some (content, rest) => some (c :: content, rest)

/-- As many digits of base sixteen as asked for, after the number that stands before them. -/
def hexNumber : Nat → Nat → Reader Nat
  | 0, value, t => some (value, t)
  | _ + 1, _, [] => none
  | count + 1, value, c :: rest =>
    match hexValue? c with
    | none => none
    | some digit => hexNumber count (value * 16 + digit) rest

/-- A character by its number; surrogates are no characters. -/
def hexCharacter (count : Nat) (t : Text) : Option (Text × Text) :=
  match hexNumber count 0 t with
  | none => none
  | some (value, rest) => if value.isValidChar then some ([Char.ofNat value], rest) else none

/-- The text behind a line end that is taken away together with all white space after it. -/
def foldedLine (t : Text) : Option (Text × Text) :=
  match skipBlanks t with
  | [] => some ([], [])
  | '\n' :: rest => some ([], skipLines rest)
  | _ => none

/-- What a backslash and the characters after it stand for. -/
def escaped (severalLines : Bool) : Text → Option (Text × Text)
  | 'b' :: rest => some (['\x08'], rest)
  | 't' :: rest => some (['\t'], rest)
  | 'n' :: rest => some (['\n'], rest)
  | 'f' :: rest => some (['\x0c'], rest)
  | 'r' :: rest => some (['\r'], rest)
  | '\x22' :: rest => some (['\x22'], rest)
  | '\x5c' :: rest => some (['\x5c'], rest)
  | 'u' :: rest => hexCharacter 4 rest
  | 'U' :: rest => hexCharacter 8 rest
  | [] => none
  | c :: rest => if severalLines && (isBlank c || c == '\n') then foldedLine (c :: rest) else none

/-- Whether a text starts with three quotation marks. -/
def startsTriple (mark : Char) : Text → Bool
  | a :: b :: c :: _ => a == mark && b == mark && c == mark
  | _ => false

/-- The text up to the quotation mark, or the three of them, that ends it. -/
def basicString (severalLines : Bool) : Nat → Text → Option (Text × Text)
  | 0, _ => none
  | _ + 1, [] => none
  | fuel + 1, c :: rest =>
    if c = quotation ∧ !severalLines then some ([], rest)
    else if c = quotation ∧ startsTriple quotation (c :: rest) then some ([], rest.drop 2)
    else if c = '\x5c' then
      match escaped severalLines rest with
      | none => none
      | some (meant, rest) =>
        match basicString severalLines fuel rest with
        | none => none
        | some (content, rest) => some (meant ++ content, rest)
    else if isControl c && !(severalLines && c == '\n') then none
    else match basicString severalLines fuel rest with
      | none => none
      | some (content, rest) => some (c :: content, rest)

/-- Up to two marks right after a string of several lines belong to it. -/
def trailingMarks (mark : Char) (content : Text) : Text → Text × Text
  | a :: b :: rest =>
    if a = mark ∧ b = mark then (content ++ [mark, mark], rest)
    else if a = mark then (content ++ [mark], b :: rest)
    else (content, a :: b :: rest)
  | [a] => if a = mark then (content ++ [mark], []) else (content, [a])
  | [] => (content, [])

/-- A line end right at the start of a string of several lines does not count. -/
def skipFirstLineEnd : Text → Text
  | '\n' :: rest => rest
  | t => t

/-- A string of one of the four kinds. -/
def stringValue : Text → Option (Text × Text)
  | [] => none
  | c :: rest =>
    if c = apostrophe then
      if startsTriple apostrophe (c :: rest) then
        (literalLines (skipFirstLineEnd (rest.drop 2))).map fun (content, rest) =>
          trailingMarks apostrophe content rest
      else literalString rest
    else if c = quotation then
      if startsTriple quotation (c :: rest) then
        let body := skipFirstLineEnd (rest.drop 2)
        (basicString true (body.length + 1) body).map fun (content, rest) =>
          trailingMarks quotation content rest
      else basicString false (rest.length + 1) rest
    else none

/-! ## Keys -/

/-- One name of a key: bare, or a string on one line. -/
def keyPart : Text → Option (Text × Text)
  | [] => none
  | c :: rest =>
    if isBare c then some ((c :: rest).takeWhile isBare, (c :: rest).dropWhile isBare)
    else if c = apostrophe then literalString rest
    else if c = quotation then basicString false (rest.length + 1) rest
    else none

/-- A key: names with dots between them and white space around them. -/
def keyWithFuel : Nat → Text → Option (List Text × Text)
  | 0, _ => none
  | fuel + 1, t =>
    match keyPart t with
    | none => none
    | some (part, rest) =>
      match skipBlanks rest with
      | '.' :: rest =>
        match keyWithFuel fuel (skipBlanks rest) with
        | none => none
        | some (parts, rest) => some (part :: parts, rest)
      | rest => some ([part], rest)

/-- A key of as many names as there are. -/
def key (t : Text) : Option (List Text × Text) :=
  keyWithFuel (t.length + 1) t

/-! ## Numbers -/

/-- Digits, between any two of which one underscore may stand. -/
def moreDigits (isDigit : Char → Bool) : Text → Text × Text
  | '_' :: c :: rest =>
    if isDigit c then
      match moreDigits isDigit rest with
      | (digits, rest) => (c :: digits, rest)
    else ([], '_' :: c :: rest)
  | c :: rest =>
    if isDigit c then
      match moreDigits isDigit rest with
      | (digits, rest) => (c :: digits, rest)
    else ([], c :: rest)
  | [] => ([], [])

def digits (isDigit : Char → Bool) : Text → Option (Text × Text)
  | c :: rest =>
    if isDigit c then
      match moreDigits isDigit rest with
      | (more, rest) => some (c :: more, rest)
    else none
  | [] => none

/-- The number that digits of some base write. -/
def numeral (base : Nat) (written : Text) : Nat :=
  written.foldl (fun value c => value * base + (hexValue? c).getD 0) 0

/-- A whole number of base sixteen, eight or two. -/
def basedNumber : Text → Option (Value × Text)
  | '0' :: mark :: rest =>
    let based (base : Nat) (isDigit : Char → Bool) : Option (Value × Text) :=
      (digits isDigit rest).map fun (written, rest) => (.integer (numeral base written), rest)
    if mark = 'x' then based 16 fun c => (hexValue? c).isSome
    else if mark = 'o' then based 8 fun c => '0' ≤ c && c ≤ '7'
    else if mark = 'b' then based 2 fun c => c == '0' || c == '1'
    else none
  | _ => none

/-- A sign, if there is one: whether it is a minus, and the rest. -/
def sign : Text → Bool × Text
  | '-' :: rest => (true, rest)
  | '+' :: rest => (false, rest)
  | t => (false, t)

/-- The digits before the point: a zero alone, or digits of which the first is none. -/
def leadingDigits : Text → Option (Text × Text)
  | '0' :: rest => some (['0'], rest)
  | t => digits Char.isDigit t

def fraction : Text → Option (Text × Text)
  | '.' :: rest => digits Char.isDigit rest
  | _ => none

/-- The number behind the letter of an exponent, if there is one. -/
def exponent : Text → Option (Int × Text)
  | c :: rest =>
    if c = 'e' ∨ c = 'E' then
      match sign rest with
      | (negative, rest) =>
        (digits Char.isDigit rest).map fun (written, rest) =>
          let size : Int := numeral 10 written
          (if negative then -size else size, rest)
    else none
  | [] => none

/-- The most digits that a whole number of base ten is read with. -/
def digitLimit : Nat := 4300

/-- A number of base ten, which is whole if it has neither a fraction nor an exponent. -/
def decimalNumber (t : Text) : Option (Value × Text) :=
  match sign t with
  | (negative, rest) =>
    match leadingDigits rest with
    | none => none
    | some (leading, rest) =>
      let behind := fraction rest
      let (following, rest) := behind.getD ([], rest)
      let scale := exponent rest
      let (power, rest) := scale.getD (0, rest)
      let written := numeral 10 (leading ++ following)
      if behind.isNone && scale.isNone then
        if digitLimit < leading.length then none
        else some (.integer (if negative then -(written : Int) else written), rest)
      else some (.decimal ⟨negative, written, power - following.length⟩, rest)

/-- An infinity, or what is no number. -/
def extremeNumber (t : Text) : Option (Value × Text) :=
  match sign t with
  | (_, 'i' :: 'n' :: 'f' :: rest) => some (.extreme, rest)
  | (_, 'n' :: 'a' :: 'n' :: rest) => some (.extreme, rest)
  | _ => none

/-! ## Dates and times -/

/-- As many decimal digits as asked for, after the number that stands before them. -/
def fixedDigits : Nat → Nat → Reader Nat
  | 0, value, t => some (value, t)
  | _ + 1, _, [] => none
  | count + 1, value, c :: rest =>
    if c.isDigit then fixedDigits count (value * 10 + (c.toNat - 48)) rest else none

/-- A given character. -/
def expect (c : Char) : Text → Option Text
  | x :: rest => if x = c then some rest else none
  | [] => none

def daysOfMonth (year month : Nat) : Nat :=
  if month = 2 then
    if year % 4 = 0 ∧ (year % 100 ≠ 0 ∨ year % 400 = 0) then 29 else 28
  else if month = 4 ∨ month = 6 ∨ month = 9 ∨ month = 11 then 30
  else 31

def calendarDate (t : Text) : Option Text := do
  let (year, t) ← fixedDigits 4 0 t
  let t ← expect '-' t
  let (month, t) ← fixedDigits 2 0 t
  let t ← expect '-' t
  let (day, t) ← fixedDigits 2 0 t
  if 1 ≤ year ∧ 1 ≤ month ∧ month ≤ 12 ∧ 1 ≤ day ∧ day ≤ daysOfMonth year month then some t
  else none

/-- A time of the day, with or without a fraction of a second. -/
def timeOfDay (t : Text) : Option Text := do
  let (hour, t) ← fixedDigits 2 0 t
  let t ← expect ':' t
  let (minute, t) ← fixedDigits 2 0 t
  let t ← expect ':' t
  let (second, t) ← fixedDigits 2 0 t
  if hour ≤ 23 ∧ minute ≤ 59 ∧ second ≤ 59 then
    match t with
    | '.' :: c :: rest => some (if c.isDigit then rest.dropWhile Char.isDigit else t)
    | _ => some t
  else none

/-- The text behind a distance from universal time, if there is one. -/
def skipOffset (t : Text) : Text :=
  let numeric (t : Text) : Option Text := do
    let (hour, t) ← fixedDigits 2 0 t
    let t ← expect ':' t
    let (minute, t) ← fixedDigits 2 0 t
    if hour ≤ 23 ∧ minute ≤ 59 then some t else none
  match t with
  | [] => []
  | c :: rest =>
    if c = 'Z' ∨ c = 'z' then rest
    else if c = '+' ∨ c = '-' then (numeric rest).getD t
    else t

def moment (t : Text) : Option (Value × Text) :=
  match calendarDate t with
  | none => (timeOfDay t).map fun rest => (.time, rest)
  | some rest =>
    match rest with
    | [] => some (.date, [])
    | c :: later =>
      if c = 'T' ∨ c = 't' ∨ c = ' ' then
        match timeOfDay later with
        | some rest => some (.dateTime, skipOffset rest)
        | none => some (.date, rest)
      else some (.date, rest)

/-! ## Values without parts -/

def truthValue : Text → Option (Value × Text)
  | 't' :: 'r' :: 'u' :: 'e' :: rest => some (.boolean true, rest)
  | 'f' :: 'a' :: 'l' :: 's' :: 'e' :: rest => some (.boolean false, rest)
  | _ => none

def scalar (t : Text) : Option (Value × Text) :=
  match stringValue t with
  | some (content, rest) => some (.string content, rest)
  | none =>
    (truthValue t).or <| (moment t).or <| (basedNumber t).or <|
      (decimalNumber t).or (extremeNumber t)

end Toml
end OpenRecord
