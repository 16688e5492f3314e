import Orchestration.Word

/-!
# The exact content of a double

A double is a sign, a whole mantissa and a power of two, or one of the three special values. The
operations whose results are exact (the remainder, the whole part) are computed on that content in
`Nat` and `Int`; the rounded operations stay with `Float`.
-/

namespace Orchestration.Binary64

/-- What a double stands for. -/
inductive Content where
  /-- The number `mantissa * 2 ^ exponent`, negated when `negative`. Zero has mantissa zero and keeps
  its sign. -/
  | finite (negative : Bool) (mantissa : Nat) (exponent : Int)
  | infinite (negative : Bool)
  | notANumber
  deriving DecidableEq, Repr

/-- The count of the fractions that fifty-two bits hold. A mantissa whose leading bit is implied begins
with this number. -/
def fractionCount : Nat := 4503599627370496

/-- The count of the exponents that eleven bits hold. -/
def exponentCount : Nat := 2048

/-- Reads the content off the bit pattern: one sign bit, eleven exponent bits and fifty-two mantissa
bits, with the leading mantissa bit implied unless the exponent bits are all zero. -/
def content (value : Float) : Content :=
  let bits : Nat := value.toBits.toNat
  let negative := decide (Word.signedLimit ≤ bits)
  let biased : Nat := bits / fractionCount % exponentCount
  let fraction : Nat := bits % fractionCount
  if biased = exponentCount - 1 then
    if fraction = 0 then .infinite negative else .notANumber
  else if biased = 0 then .finite negative fraction (-1074)
  else .finite negative (fractionCount + fraction) ((biased : Int) - 1075)

/-- The double `mantissa * 2 ^ exponent` for a mantissa below `2 ^ 53` and an exponent from `-1074`
upward that together stay in the range of finite doubles. -/
def ofParts (negative : Bool) (mantissa : Nat) (exponent : Int) : Float :=
  let room := 52 - mantissa.log2
  let shift := min room (exponent + 1074).toNat
  let scaled := mantissa * Nat.pow 2 shift
  let biased := if scaled < fractionCount then 0 else (exponent - shift + 1075).toNat
  let sign := if negative then Word.signedLimit else 0
  Float.ofBits (UInt64.ofNat (sign + biased * fractionCount + scaled % fractionCount))

/-- A double that is neither infinite nor undefined. -/
def isFinite (value : Float) : Bool :=
  match content value with
  | .finite .. => true
  | _ => false

/-- The whole number that a double is equal to, if it is one. Negative zero is the whole number zero. -/
def toInt? (value : Float) : Option Int :=
  match content value with
  | .finite negative mantissa exponent =>
      let magnitude? : Option Nat :=
        if 0 ≤ exponent then some (mantissa * Nat.pow 2 exponent.toNat)
        else if mantissa % Nat.pow 2 (-exponent).toNat = 0 then
          some (mantissa / Nat.pow 2 (-exponent).toNat)
        else none
      magnitude?.map fun magnitude => if negative then -(magnitude : Int) else magnitude
  | _ => none

/-- The remainder of a division that rounds its quotient toward zero. It is exact, it takes the sign
of the dividend, and it is undefined for an infinite dividend and for a divisor of zero. -/
def remainder (dividend divisor : Float) : Float :=
  match content dividend, content divisor with
  | .finite negative mantissa exponent, .finite _ mantissa' exponent' =>
      if mantissa' = 0 then 0.0 / 0.0
      else
        let common := min exponent exponent'
        let left := mantissa * Nat.pow 2 (exponent - common).toNat
        let right := mantissa' * Nat.pow 2 (exponent' - common).toNat
        ofParts negative (left % right) common
  | .finite .., .infinite _ => dividend
  | _, _ => 0.0 / 0.0

end Orchestration.Binary64
