import Orchestration.Word

/-!
# Whole numbers as text

Readers for runs of ASCII digits with the bounds of the machine words the numbers have to fit in. No
reader takes blanks, separators or digits of other scripts.
-/

namespace Orchestration.Text

/-- The value of a run of ASCII digits. -/
def digitsToNat (digits : List Char) : Nat :=
  digits.foldl (fun value digit => value * 10 + (digit.toNat - '0'.toNat)) 0

/-- Reads a nonempty run of ASCII digits. -/
def readDigits? (text : List Char) : Option Nat :=
  if text.isEmpty || !text.all Char.isDigit then none else some (digitsToNat text)

/-- The value of a hexadecimal digit. -/
def hexadecimalValue? (digit : Char) : Option Nat :=
  if digit.isDigit then some (digit.toNat - '0'.toNat)
  else if 'a' ≤ digit ∧ digit ≤ 'f' then some (digit.toNat - 'a'.toNat + 10)
  else if 'A' ≤ digit ∧ digit ≤ 'F' then some (digit.toNat - 'A'.toNat + 10)
  else none

/-- Reads a run of digits to a base of at most sixteen. -/
def readBase? (base : Nat) (digits : List Char) : Option Nat :=
  digits.foldl (fun total? digit =>
    total?.bind fun total =>
      ((hexadecimalValue? digit).filter (· < base)).map fun value => total * base + value) (some 0)

/-- Reads a run of hexadecimal digits. -/
def readHexadecimal? (digits : List Char) : Option Nat := readBase? 16 digits

/-- Reads the character whose code point is a run of hexadecimal digits. -/
def readCodePoint? (digits : List Char) : Option Char :=
  (readHexadecimal? digits).bind fun value =>
    if value < 0xD800 ∨ (0xE000 ≤ value ∧ value < 0x110000) then some (Char.ofNat value) else none

/-- Reads an unsigned word: digits, with a plus sign in front if wanted, whose value fits. -/
def readWord? (text : List Char) : Option Nat :=
  let digits :=
    match text with
    | '+' :: rest => rest
    | _ => text
  (readDigits? digits).filter Word.isUnsigned

/-- Reads a signed word of 64 bits: digits, with a sign in front if wanted, whose value fits. -/
def readInteger? (text : List Char) : Option Int :=
  match text with
  | '-' :: rest =>
      ((readDigits? rest).filter fun value => value ≤ Word.signedLimit).map fun value => -(value : Int)
  | '+' :: rest =>
      ((readDigits? rest).filter fun value => value < Word.signedLimit).map Int.ofNat
  | _ => ((readDigits? text).filter fun value => value < Word.signedLimit).map Int.ofNat

end Orchestration.Text
