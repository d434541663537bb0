namespace OpenRecord

/-!
# Texts

Source code, names and messages are lists of characters.  Every function of the library on text
is then a function on lists, whose laws are proved by induction and whose closed instances the
kernel evaluates.  `String` appears only where a text enters or leaves the program.
-/

abbrev Text := List Char

/-- A string literal stands for the text of its characters. -/
instance : Coe String Text := ⟨String.toList⟩

namespace Text

/-- Remove the longest leading run of characters that satisfy `p`. -/
def stripLeft (p : Char → Bool) (t : Text) : Text :=
  t.dropWhile p

/-- Remove the longest trailing run of characters that satisfy `p`. -/
def stripRight (p : Char → Bool) (t : Text) : Text :=
  (t.reverse.dropWhile p).reverse

/-- Remove the runs of characters that satisfy `p` at both ends. -/
def strip (p : Char → Bool) (t : Text) : Text :=
  stripRight p (stripLeft p t)

/-- The pieces between the occurrences of a character; one piece more than occurrences. -/
def split (c : Char) : Text → List Text
  | [] => [[]]
  | x :: r =>
    if x = c then [] :: split c r
    else match split c r with
      | [] => [[x]]
      | piece :: pieces => (x :: piece) :: pieces

/-- The pieces in order with a separator between neighbours. -/
def join (separator : Text) (pieces : List Text) : Text :=
  List.intercalate separator pieces

/-- The part before the first occurrence of a character, or the whole text. -/
def before (c : Char) (t : Text) : Text :=
  t.takeWhile (· ≠ c)

/-- The part after the last occurrence of a character, or the whole text. -/
def afterLast (c : Char) (t : Text) : Text :=
  (t.reverse.takeWhile (· ≠ c)).reverse

def decimal (n : Nat) : Text :=
  Nat.toDigits 10 n

/-- Splitting never yields the empty list. -/
theorem split_ne_nil (c : Char) (t : Text) : split c t ≠ [] := by
  cases t with
  | nil => simp [split]
  | cons x r =>
    unfold split
    split
    · simp
    · split <;> simp

end Text
end OpenRecord
