import Orchestration.Binary64.Shortest
import Orchestration.Text.Integer

/-!
# Doubles as text

Writing a double takes its shortest decimal and a layout. A layout says which decimals are written
with a point at its place and which with an exponent, and how a whole number ends. Reading a double
takes any decimal and rounds it once, to the nearest double.
-/

namespace Orchestration.Binary64

open Orchestration.Text (digitsToNat)

/-- How a shortest decimal is laid out. -/
structure Layout where
  /-- The decimal exponents, both ends included, that are written without an exponent; every decimal
  is when this is absent. -/
  positional : Option (Int × Int)
  /-- What follows a whole number written without an exponent. -/
  wholeEnding : String
  /-- Which of two equally near decimals is written. -/
  tie : Tie

/-- A JSON number keeps one decimal place on a whole number and writes very large and very small
numbers with a signed exponent. -/
def Layout.json : Layout := ⟨some (-5, 15), ".0", .even⟩

/-- An arithmetic token never has an exponent and a whole number has no decimal places. -/
def Layout.plain : Layout := ⟨none, "", .up⟩

/-- The decimal exponent of a decimal: the power of ten of its first digit. -/
def Decimal.leading (decimal : Decimal) : Int :=
  (digitCount decimal.digits : Int) - 1 + decimal.scale

/-- A decimal written with its point at its place. -/
def Decimal.positional (wholeEnding : String) (decimal : Decimal) : String :=
  let digits := Nat.toDigits 10 decimal.digits
  let leading := decimal.leading
  if 0 ≤ decimal.scale then
    String.ofList (digits ++ List.replicate decimal.scale.toNat '0') ++ wholeEnding
  else if 0 ≤ leading then
    String.ofList (digits.take (leading + 1).toNat) ++ "." ++
      String.ofList (digits.drop (leading + 1).toNat)
  else
    "0." ++ String.ofList (List.replicate (-leading - 1).toNat '0' ++ digits)

/-- A decimal written with one digit before the point and a signed exponent. -/
def Decimal.scientific (decimal : Decimal) : String :=
  let leading := decimal.leading
  let exponent := (if leading < 0 then "e-" else "e+") ++ toString leading.natAbs
  match Nat.toDigits 10 decimal.digits with
  | [] => exponent
  | [digit] => String.singleton digit ++ exponent
  | digit :: rest => String.singleton digit ++ "." ++ String.ofList rest ++ exponent

/-- A decimal in a layout. -/
def Layout.write (layout : Layout) (decimal : Decimal) : String :=
  match layout.positional with
  | some (lowest, highest) =>
      if lowest ≤ decimal.leading ∧ decimal.leading ≤ highest then
        decimal.positional layout.wholeEnding
      else decimal.scientific
  | none => decimal.positional layout.wholeEnding

/-- The text of a double in a layout. -/
def text (layout : Layout) (value : Float) : String :=
  match content value with
  | .finite negative mantissa exponent =>
      let sign := if negative then "-" else ""
      if mantissa = 0 then sign ++ "0" ++ layout.wholeEnding
      else sign ++ layout.write (shortest layout.tie mantissa exponent)
  | .infinite negative => if negative then "-inf" else "inf"
  | .notANumber => "NaN"

/-- The double nearest to `mantissa * 10 ^ exponent`; infinite from the first decimal beyond the
largest double on. Decimals far outside the range of doubles are settled by their count of digits,
so a huge exponent costs nothing. -/
def ofDecimal (negative : Bool) (mantissa : Nat) (exponent : Int) : Float :=
  let leading := (digitCount mantissa : Int) + exponent
  let magnitude : Float :=
    if mantissa = 0 ∨ leading < -330 then 0.0
    else if 330 < leading then 1.0 / 0.0
    else if exponent < 0 then Float.ofScientific mantissa true exponent.natAbs
    else Float.ofScientific mantissa false exponent.natAbs
  if negative then -magnitude else magnitude

/-- The parts of a decimal numeral: digits, then perhaps a point and digits, then perhaps an exponent
mark with a signed run of digits. Either run of digits may be empty, but not both. -/
structure Numeral where
  whole : List Char
  fraction : List Char
  exponent : Int

/-- A text whose sign has been taken off, with the sign. -/
def takeSign : List Char → Bool × List Char
  | '-' :: rest => (true, rest)
  | '+' :: rest => (false, rest)
  | text => (false, text)

/-- The exponent that ends a numeral: absent, or a mark, a sign and at least one digit. -/
def readExponent? : List Char → Option Int
  | [] => some 0
  | mark :: rest =>
      if mark = 'e' ∨ mark = 'E' then
        let (negative, digits) := takeSign rest
        if digits.isEmpty || !digits.all Char.isDigit then none
        else
          let magnitude : Int := digitsToNat digits
          some (if negative then -magnitude else magnitude)
      else none

/-- The numeral that a text without sign spells. -/
def readNumeral? (text : List Char) : Option Numeral :=
  let whole := text.takeWhile Char.isDigit
  match text.dropWhile Char.isDigit with
  | '.' :: rest =>
      let fraction := rest.takeWhile Char.isDigit
      if whole.isEmpty && fraction.isEmpty then none
      else (readExponent? (rest.dropWhile Char.isDigit)).map fun exponent =>
        ⟨whole, fraction, exponent⟩
  | rest =>
      if whole.isEmpty then none
      else (readExponent? rest).map fun exponent => ⟨whole, [], exponent⟩

/-- The double nearest to a numeral. -/
def Numeral.toFloat (negative : Bool) (numeral : Numeral) : Float :=
  ofDecimal negative (digitsToNat (numeral.whole ++ numeral.fraction))
    (numeral.exponent - numeral.fraction.length)

/-- Reads a double: a signed decimal numeral, or one of the words for the special values in any case. -/
def read? (text : List Char) : Option Float :=
  let (negative, magnitude) := takeSign text
  match readNumeral? magnitude with
  | some numeral => some (numeral.toFloat negative)
  | none =>
      let word := magnitude.map Char.toLower
      if word = ['i', 'n', 'f'] ∨ word = ['i', 'n', 'f', 'i', 'n', 'i', 't', 'y'] then
        some (if negative then -(1.0 / 0.0) else 1.0 / 0.0)
      else if word = ['n', 'a', 'n'] then some (0.0 / 0.0)
      else none

end Orchestration.Binary64
