import OpenRecord.Text.Encoding

namespace OpenRecord
namespace Text

/-!
# Texts and the bytes that store them

Bytes that can be read as a text are the bytes that store it, so that reading a file and storing what
was read makes the file again.  Different texts are stored as different bytes.
-/

/-! ## One character -/

section Character

variable {number : Nat} {first second third fourth : UInt8}

theorem toNat_ofNat (valid : number.isValidChar) : (Char.ofNat number).val.toNat = number := by
  unfold Char.ofNat
  rw [dif_pos valid]
  rfl

theorem utf8EncodeChar_one (small : first.toNat < 0x80) :
    String.utf8EncodeChar (Char.ofNat first.toNat) = [first] := by
  have valid : first.toNat.isValidChar := .inl (by omega)
  unfold String.utf8EncodeChar
  rw [toNat_ofNat valid, if_pos (by omega), UInt8.ofNat_toNat]

theorem utf8EncodeChar_two (lead : 0xC2 ≤ first.toNat ∧ first.toNat ≤ 0xDF)
    (tail : 0x80 ≤ second.toNat ∧ second.toNat ≤ 0xBF)
    (same : number = (first.toNat - 0xC0) * 64 + (second.toNat - 0x80)) :
    String.utf8EncodeChar (Char.ofNat number) = [first, second] := by
  have valid : number.isValidChar := .inl (by omega)
  have one : number / 64 % 32 + 192 = first.toNat := by omega
  have two : number % 64 + 128 = second.toNat := by omega
  unfold String.utf8EncodeChar
  rw [toNat_ofNat valid, if_neg (by omega), if_pos (by omega)]
  simp only [one, two, UInt8.ofNat_toNat]

theorem utf8EncodeChar_three (lead : 0xE0 ≤ first.toNat ∧ first.toNat ≤ 0xEF)
    (middle : 0x80 ≤ second.toNat ∧ second.toNat ≤ 0xBF)
    (tail : 0x80 ≤ third.toNat ∧ third.toNat ≤ 0xBF)
    (same : number =
      ((first.toNat - 0xE0) * 64 + (second.toNat - 0x80)) * 64 + (third.toNat - 0x80))
    (long : 0x800 ≤ number) (scalar : number < 0xD800 ∨ 0xDFFF < number) :
    String.utf8EncodeChar (Char.ofNat number) = [first, second, third] := by
  have valid : number.isValidChar := scalar.imp_right fun above => ⟨above, by omega⟩
  have one : number / 4096 % 16 + 224 = first.toNat := by omega
  have two : number / 64 % 64 + 128 = second.toNat := by omega
  have three : number % 64 + 128 = third.toNat := by omega
  unfold String.utf8EncodeChar
  rw [toNat_ofNat valid, if_neg (by omega), if_neg (by omega), if_pos (by omega)]
  simp only [one, two, three, UInt8.ofNat_toNat]

theorem utf8EncodeChar_four (lead : 0xF0 ≤ first.toNat ∧ first.toNat ≤ 0xF4)
    (middle : 0x80 ≤ second.toNat ∧ second.toNat ≤ 0xBF)
    (inner : 0x80 ≤ third.toNat ∧ third.toNat ≤ 0xBF)
    (tail : 0x80 ≤ fourth.toNat ∧ fourth.toNat ≤ 0xBF)
    (same : number = (((first.toNat - 0xF0) * 64 + (second.toNat - 0x80)) * 64 +
      (third.toNat - 0x80)) * 64 + (fourth.toNat - 0x80))
    (long : 0x10000 ≤ number) (valid : number < 0x110000) :
    String.utf8EncodeChar (Char.ofNat number) = [first, second, third, fourth] := by
  have valid : number.isValidChar := .inr ⟨by omega, by omega⟩
  have one : number / 262144 % 8 + 240 = first.toNat := by omega
  have two : number / 4096 % 64 + 128 = second.toNat := by omega
  have three : number / 64 % 64 + 128 = third.toNat := by omega
  have four : number % 64 + 128 = fourth.toNat := by omega
  unfold String.utf8EncodeChar
  rw [toNat_ofNat valid, if_neg (by omega), if_neg (by omega), if_neg (by omega)]
  simp only [one, two, three, four, UInt8.ofNat_toNat]

end Character

/-- The bytes that finish a character, of which so many are owed behind the next one, and the number of
the character. -/
inductive Finishes : Nat → Nat → Nat → Nat → List UInt8 → Nat → Prop
  | last {low high value : Nat} {byte : UInt8} : low ≤ byte.toNat ∧ byte.toNat ≤ high →
    Finishes 0 low high value [byte] (value * 64 + (byte.toNat - 0x80))
  | next {owed low high value number : Nat} {byte : UInt8} {more : List UInt8} :
    low ≤ byte.toNat ∧ byte.toNat ≤ high →
    Finishes owed 0x80 0xBF (value * 64 + (byte.toNat - 0x80)) more number →
    Finishes (owed + 1) low high value (byte :: more) number

/-- A character is read to its end before the next one. -/
theorem finishes_of_decodeFrom {position : Nat} {unfinished : Unfinished} {bytes : List UInt8}
    {text : Text} (read : decodeFrom position (some unfinished) bytes = .ok text) :
    ∃ more rest number later position',
      Finishes unfinished.owed unfinished.low unfinished.high unfinished.value more number ∧
        bytes = more ++ rest ∧ decodeFrom position' none rest = .ok later ∧
        text = Char.ofNat number :: later := by
  induction bytes generalizing position unfinished with
  | nil => cases read
  | cons byte rest ih =>
    unfold decodeFrom at read
    dsimp only at read
    split at read
    case isTrue => cases read
    case isFalse inside =>
      rw [not_or, Nat.not_lt, Nat.not_lt] at inside
      split at read
      case h_1 none_owed =>
        split at read
        case h_1 later behind =>
          cases read
          rw [none_owed]
          exact ⟨[byte], rest, _, later, position + 1, .last inside, rfl, behind, rfl⟩
        case h_2 => cases read
      case h_2 owed some_owed =>
        rcases ih read with ⟨more, rest', number, later, position', finishes, parts, behind, same⟩
        rw [some_owed]
        exact ⟨byte :: more, rest', number, later, position', .next inside finishes,
          congrArg (byte :: ·) parts, behind, same⟩

/-- What the first byte of a character of more than one byte says of the others.  The second byte is
bounded further where the character would be too small for its bytes, a surrogate, or too large. -/
theorem startCharacter_cases {position first : Nat} {unfinished : Unfinished}
    (started : startCharacter position first = some unfinished) :
    ((0xC2 ≤ first ∧ first ≤ 0xDF) ∧ unfinished.owed = 0 ∧ unfinished.value = first - 0xC0 ∧
        unfinished.low = 0x80 ∧ unfinished.high = 0xBF) ∨
      ((0xE0 ≤ first ∧ first ≤ 0xEF) ∧ unfinished.owed = 1 ∧ unfinished.value = first - 0xE0 ∧
        (0x80 ≤ unfinished.low ∧ unfinished.high ≤ 0xBF) ∧
        (first = 0xE0 → 0xA0 ≤ unfinished.low) ∧ (first = 0xED → unfinished.high ≤ 0x9F)) ∨
      ((0xF0 ≤ first ∧ first ≤ 0xF4) ∧ unfinished.owed = 2 ∧ unfinished.value = first - 0xF0 ∧
        (0x80 ≤ unfinished.low ∧ unfinished.high ≤ 0xBF) ∧
        (first = 0xF0 → 0x90 ≤ unfinished.low) ∧ (first = 0xF4 → unfinished.high ≤ 0x8F)) := by
  unfold startCharacter at started
  dsimp only at started
  repeat' split at started
  all_goals cases started
  all_goals
    dsimp only
    omega

/-- A character is stored as its first byte and the bytes that finish it. -/
theorem utf8EncodeChar_of_finishes {position number : Nat} {first : UInt8}
    {unfinished : Unfinished} {more : List UInt8}
    (started : startCharacter position first.toNat = some unfinished)
    (finishes : Finishes unfinished.owed unfinished.low unfinished.high unfinished.value more
      number) :
    String.utf8EncodeChar (Char.ofNat number) = first :: more := by
  rcases startCharacter_cases started with ⟨lead, owed, value, low, high⟩ |
    ⟨lead, owed, value, bounds, least, most⟩ | ⟨lead, owed, value, bounds, least, most⟩
  · rw [owed, value, low, high] at finishes
    cases finishes with
    | last tail => exact utf8EncodeChar_two lead tail rfl
  · rw [owed, value] at finishes
    cases finishes with
    | next middle finishes =>
      cases finishes with
      | last tail => exact utf8EncodeChar_three lead (by omega) tail rfl (by omega) (by omega)
  · rw [owed, value] at finishes
    cases finishes with
    | next middle finishes =>
      cases finishes with
      | next inner finishes =>
        cases finishes with
        | last tail => exact utf8EncodeChar_four lead (by omega) inner tail rfl (by omega) (by omega)

/-! ## Whole texts -/

theorem encode_of_decodeFrom (size : Nat) : ∀ {position : Nat} {bytes : List UInt8} {text : Text},
    bytes.length ≤ size → decodeFrom position none bytes = .ok text → encode text = bytes := by
  induction size with
  | zero =>
    intro position bytes text short read
    rw [List.eq_nil_of_length_eq_zero (Nat.le_zero.1 short)] at read ⊢
    cases read
    rfl
  | succ size ih =>
    intro position bytes text short read
    cases bytes with
    | nil =>
      cases read
      rfl
    | cons first rest =>
      rw [List.length_cons] at short
      unfold decodeFrom at read
      dsimp only at read
      split at read
      case isTrue small =>
        split at read
        case h_1 later behind =>
          cases read
          rw [encode, List.flatMap_cons, utf8EncodeChar_one small, ← encode,
            ih (by omega) behind]
          rfl
        case h_2 => cases read
      case isFalse =>
        split at read
        case h_1 => cases read
        case h_2 unfinished started =>
          rcases finishes_of_decodeFrom read with
            ⟨more, behind, number, later, position', finishes, rfl, left, rfl⟩
          have fewer : behind.length ≤ size := by
            rw [List.length_append] at short
            omega
          rw [encode, List.flatMap_cons, utf8EncodeChar_of_finishes started finishes, ← encode,
            ih fewer left]
          rfl

theorem encode_of_decode {bytes : List UInt8} {text : Text} (read : decode bytes = .ok text) :
    encode text = bytes :=
  encode_of_decodeFrom bytes.length (Nat.le_refl _) read

/-- Different texts are stored as different bytes. -/
theorem encode_injective {first second : Text} (same : encode first = encode second) :
    first = second :=
  String.ofList_inj.1 (String.toByteArray_inj.1 (congrArg List.toByteArray same))

end Text
end OpenRecord
