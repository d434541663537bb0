import OpenRecord.Text.Basic

namespace OpenRecord

/-!
# Decimal numbers as binary fractions

A number with a point or an exponent stands for the nearest number that has 53 significant binary
places; halfway between two of them the one with an even last place is meant.  The only question
asked here is whether that number is whole, and which one it is, as long as it fits into 64 bits.
-/

/-- The digits of a decimal number times a power of ten, with a sign. -/
structure Decimal where
  negative : Bool
  digits : Nat
  exponent : Int
deriving DecidableEq

/-- The nearest whole number to a quotient, an even one if there are two. -/
def roundQuotient (numerator denominator : Nat) : Nat :=
  let quotient := numerator / denominator
  let rest := 2 * (numerator % denominator)
  if rest < denominator then quotient
  else if denominator < rest then quotient + 1
  else quotient + quotient % 2

namespace Decimal

def powerOfTwo (n : Nat) : Nat :=
  Nat.pow 2 n

def powerOfTen (n : Nat) : Nat :=
  Nat.pow 10 n

/-- The number of decimal digits. -/
def width (n : Nat) : Nat :=
  (Text.decimal n).length

/-- A quotient rounded to 53 binary places, and by which power of two these have to be divided. -/
def significand (numerator denominator : Nat) : Nat × Int :=
  let shift : Int := 52 - (numerator.log2 : Int) + denominator.log2
  let scaled (shift : Int) : Nat :=
    roundQuotient (numerator * powerOfTwo shift.toNat) (denominator * powerOfTwo (-shift).toNat)
  let exact (shift : Int) : Nat :=
    numerator * powerOfTwo shift.toNat / (denominator * powerOfTwo (-shift).toNat)
  let finer := if exact shift < powerOfTwo 52 then shift + 1 else shift
  let shift := min finer 1074
  (scaled shift, shift)

/-- The nearest binary fraction to a quotient, if it is whole. -/
def wholeQuotient (numerator denominator : Nat) : Option Nat :=
  match significand numerator denominator with
  | (places, shift) =>
    let divisor := powerOfTwo shift.toNat
    if places % divisor = 0 then some (places * powerOfTwo (-shift).toNat / divisor) else none

/-- The size of a decimal as a whole number, if the nearest binary fraction is whole and less than
the bound.  Numbers far beyond the bound or far below one are told by their digits alone. -/
def wholeSize (bound digits : Nat) (exponent : Int) : Option Nat :=
  let order : Int := width digits + exponent
  let found : Option Nat :=
    if digits = 0 ∨ order < -400 then some 0
    else if 400 < order then none
    else wholeQuotient (digits * powerOfTen exponent.toNat) (powerOfTen (-exponent).toNat)
  found.filter (· < bound)

/-- The whole number that a decimal stands for, if it stands for one of less than 64 bits. -/
def whole? (number : Decimal) : Option Int :=
  match wholeSize (powerOfTwo 63) number.digits number.exponent with
  | none => none
  | some size => some (if number.negative then -(size : Int) else size)

end Decimal
end OpenRecord
