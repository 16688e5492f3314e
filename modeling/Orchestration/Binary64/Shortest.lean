import Orchestration.Binary64.Basic

/-!
# The shortest decimal of a double

Among the decimals that read back to a given double, the shortest has the fewest digits and, of
those, lies nearest to the double. The search is exact: it compares whole numbers only.

For a count of digits the decimals with that many digits form a grid. If any point of the grid reads
back, then one of the two points next to the double does, so two candidates per grid are enough.
-/

namespace Orchestration.Binary64

/-- The decimal `digits * 10 ^ scale`. -/
structure Decimal where
  digits : Nat
  scale : Int
  deriving DecidableEq, Repr

/-- Which of two equally near decimals is taken. -/
inductive Tie where
  /-- The one whose last digit is even. -/
  | even
  /-- The one of larger magnitude. -/
  | up
  deriving DecidableEq, Repr

/-- The count of decimal digits of a positive whole number. -/
def digitCount (number : Nat) : Nat :=
  (Nat.toDigits 10 number).length

/-- The decimal exponent of the fraction `numerator / denominator`: the power of ten in front of it
when it is written with one digit before the point. -/
def decimalExponent (numerator denominator : Nat) : Int :=
  if denominator ≤ numerator then (digitCount (numerator / denominator) : Int) - 1
  else -(digitCount ((denominator - 1) / numerator) : Int)

/-- A decimal without the zeros its digits end with. The bound counts the zeros that may go. -/
def Decimal.strip : Nat → Decimal → Decimal
  | 0, decimal => decimal
  | bound + 1, decimal =>
      if decimal.digits ≠ 0 ∧ decimal.digits % 10 = 0 then
        Decimal.strip bound ⟨decimal.digits / 10, decimal.scale + 1⟩
      else decimal

/-- The decimals that read back to a double, for a positive mantissa and its exponent. The bounds are
counted in quarters of the mantissa's unit: half a unit above and half a unit below, but only a
quarter below a power of two, where the doubles underneath lie twice as dense. The bounds themselves
read back exactly when the mantissa is even. -/
def readsBack (mantissa : Nat) (exponent : Int) (decimal : Decimal) : Bool :=
  let below := if mantissa = fractionCount ∧ -1074 < exponent then 1 else 2
  let twos := (2 - exponent).toNat
  let tens := (-decimal.scale).toNat
  let unit := Nat.pow 2 (exponent - 2 + twos).toNat * Nat.pow 10 tens
  let point := decimal.digits * Nat.pow 10 (decimal.scale + tens).toNat * Nat.pow 2 twos
  let low := (4 * mantissa - below) * unit
  let high := (4 * mantissa + 2) * unit
  if mantissa % 2 = 0 then low ≤ point && point ≤ high else low < point && point < high

/-- The point chosen on the grid of multiples of `10 ^ scale`, if one of the two next to the double
reads back. -/
def gridPoint? (tie : Tie) (mantissa : Nat) (exponent : Int) (scale : Int) : Option Decimal :=
  let numerator := mantissa * Nat.pow 2 exponent.toNat * Nat.pow 10 (-scale).toNat
  let denominator := Nat.pow 2 (-exponent).toNat * Nat.pow 10 scale.toNat
  let lower : Decimal := ⟨numerator / denominator, scale⟩
  let upper : Decimal := ⟨numerator / denominator + 1, scale⟩
  let twice := 2 * (numerator % denominator)
  match readsBack mantissa exponent lower, readsBack mantissa exponent upper with
  | false, false => none
  | true, false => some lower
  | false, true => some upper
  | true, true =>
      if twice < denominator then some lower
      else if denominator < twice then some upper
      else
        match tie with
        | .even => some (if lower.digits % 2 = 0 then lower else upper)
        | .up => some upper

/-- The shortest decimal of the double with a positive mantissa. Seventeen digits always suffice. -/
def shortest (tie : Tie) (mantissa : Nat) (exponent : Int) : Decimal :=
  let leading :=
    decimalExponent (mantissa * Nat.pow 2 exponent.toNat) (Nat.pow 2 (-exponent).toNat)
  let candidates :=
    (List.range 17).filterMap fun (more : Nat) =>
      gridPoint? tie mantissa exponent (leading - (more : Int))
  match candidates with
  | decimal :: _ => Decimal.strip 20 decimal
  | [] => ⟨0, 0⟩

end Orchestration.Binary64
