import OpenRecord.Text.Quoted

namespace OpenRecord
namespace Text

/-!
# Texts as bytes

Files hold bytes, and a text is stored in them as UTF-8.  Reading is a machine with one step per
byte: between two characters it knows nothing, and inside a character it knows how many more bytes
are owed and which the next of them may be.  A fault names the bytes of the character that could
not be finished and why.  Overlong forms, surrogates and numbers beyond the last character are
refused at the first byte that makes them so.
-/

/-- Why bytes are no text. -/
inductive DecodingReason
  | startByte
  | continuationByte
  | endOfData
deriving DecidableEq

def DecodingReason.message : DecodingReason → Text
  | .startByte => "invalid start byte"
  | .continuationByte => "invalid continuation byte"
  | .endOfData => "unexpected end of data"

/-- The bytes of a character that could not be finished. -/
structure DecodingFault where
  reason : DecodingReason
  /-- How many bytes stand before the character. -/
  position : Nat
  /-- The first byte of the character. -/
  first : Nat
  /-- How many bytes of the character are in order. -/
  count : Nat
deriving DecidableEq

/-- A fault in words: the byte itself if there is one only, else the range of positions. -/
def DecodingFault.message (fault : DecodingFault) : Text :=
  let place : Text :=
    if fault.count ≤ 1 then
      "byte 0x" ++ hexDigits 2 fault.first ++ " in position " ++ decimal fault.position
    else
      "bytes in position " ++ decimal fault.position ++
        '-' :: decimal (fault.position + fault.count - 1)
  "'utf-8' codec can't decode " ++ place ++ ": " ++ fault.reason.message

/-- A character of which some bytes have been read. -/
structure Unfinished where
  /-- Where the character starts. -/
  position : Nat
  first : Nat
  count : Nat
  /-- How many bytes are owed after the next one. -/
  owed : Nat
  /-- The least and the greatest byte that may come next. -/
  low : Nat
  high : Nat
  /-- The number of the character as far as it is known. -/
  value : Nat

/-- The fault of a character that is not finished. -/
def Unfinished.fault (unfinished : Unfinished) (reason : DecodingReason) : DecodingFault :=
  ⟨reason, unfinished.position, unfinished.first, unfinished.count⟩

/-- A character after its first byte, if more bytes have to follow. -/
def startCharacter (position first : Nat) : Option Unfinished :=
  let start (owed low high value : Nat) : Option Unfinished :=
    some ⟨position, first, 1, owed, low, high, value⟩
  if 0xC2 ≤ first ∧ first ≤ 0xDF then start 0 0x80 0xBF (first - 0xC0)
  else if first = 0xE0 then start 1 0xA0 0xBF 0
  else if first = 0xED then start 1 0x80 0x9F 0xD
  else if 0xE1 ≤ first ∧ first ≤ 0xEF then start 1 0x80 0xBF (first - 0xE0)
  else if first = 0xF0 then start 2 0x90 0xBF 0
  else if 0xF1 ≤ first ∧ first ≤ 0xF3 then start 2 0x80 0xBF (first - 0xF0)
  else if first = 0xF4 then start 2 0x80 0x8F 4
  else none

/-- Read the rest of a sequence of bytes, of which some have been read already. -/
def decodeFrom : Nat → Option Unfinished → List UInt8 → Except DecodingFault Text
  | _, none, [] => .ok []
  | _, some unfinished, [] => .error (unfinished.fault .endOfData)
  | position, none, byte :: rest =>
    let first := byte.toNat
    if first < 0x80 then
      match decodeFrom (position + 1) none rest with
      | .ok text => .ok (Char.ofNat first :: text)
      | .error fault => .error fault
    else match startCharacter position first with
      | none => .error ⟨.startByte, position, first, 1⟩
      | some unfinished => decodeFrom (position + 1) (some unfinished) rest
  | position, some unfinished, byte :: rest =>
    let next := byte.toNat
    if next < unfinished.low ∨ unfinished.high < next then
      .error (unfinished.fault .continuationByte)
    else
      let value := unfinished.value * 64 + (next - 0x80)
      match unfinished.owed with
      | 0 =>
        match decodeFrom (position + 1) none rest with
        | .ok text => .ok (Char.ofNat value :: text)
        | .error fault => .error fault
      | owed + 1 =>
        decodeFrom (position + 1)
          (some { unfinished with
            count := unfinished.count + 1, owed, low := 0x80, high := 0xBF, value }) rest

/-- The text that a sequence of bytes stores. -/
def decode (bytes : List UInt8) : Except DecodingFault Text :=
  decodeFrom 0 none bytes

/-- The bytes that store a text. -/
def encode (t : Text) : List UInt8 :=
  t.flatMap String.utf8EncodeChar

/-- Every line break as a line feed, whichever way it was written. -/
def normalizeBreaks : Text → Text
  | [] => []
  | '\r' :: '\n' :: rest => '\n' :: normalizeBreaks rest
  | c :: rest => (if c = '\r' then '\n' else c) :: normalizeBreaks rest

end Text
end OpenRecord
