import Orchestration.Proofs.Doubles

/-!
# Rounding to the nearest double

The logical model rounds a number that it knows by a mantissa, the first bit after it and whether anything
follows. Such a number rounds to a double when it lies between the midpoints to the neighbouring doubles;
a midpoint itself goes to the even one.
-/

namespace Orchestration.Binary64

open Float.Model (Format UnpackedFloat totalExponent)
open Float.Model.UnpackedFloat

/-! ## Numbers between mantissas -/

/-- That a mantissa with its two further bits stands for a number. -/
def Stands (extended : ExtendedMantissa) (point : ℚ) : Prop :=
  match extended.roundBit, extended.stickyBit with
  | false, false => point = extended.mantissa
  | false, true => (extended.mantissa : ℚ) < point ∧ point < extended.mantissa + 1 / 2
  | true, false => point = extended.mantissa + 1 / 2
  | true, true => (extended.mantissa : ℚ) + 1 / 2 < point ∧ point < extended.mantissa + 1

namespace Stands

variable {extended : ExtendedMantissa} {point : ℚ}

/-- A mantissa with nothing behind it stands for itself. -/
theorem exact (mantissa : Nat) : Stands (.ofMantissaAndAccuracy mantissa .exact) mantissa := rfl

/-- A mantissa that is shifted by one bit stands for half of the number. -/
theorem shiftRightOne (stands : Stands extended point) :
    Stands extended.shiftRightOne (point / 2) := by
  obtain ⟨mantissa, roundBit, stickyBit⟩ := extended
  have parts : (mantissa : ℚ) = 2 * ((mantissa / 2 : Nat) : ℚ) + ((mantissa % 2 : Nat) : ℚ) := by
    exact_mod_cast (Nat.div_add_mod mantissa 2).symm
  rcases Nat.mod_two_eq_zero_or_one mantissa with even | odd
  · rw [even] at parts
    cases roundBit <;> cases stickyBit <;>
      simp_all [Stands, ExtendedMantissa.shiftRightOne] <;> constructor <;> linarith
  · rw [odd] at parts
    cases roundBit <;> cases stickyBit <;>
      simp_all [Stands, ExtendedMantissa.shiftRightOne] <;> (try constructor) <;> linarith

/-- A mantissa that is shifted by some bits stands for the number divided by that power of two. -/
theorem shiftRight (stands : Stands extended point) (amount : Nat) :
    Stands (extended >>> amount) (point / 2 ^ amount) := by
  change Stands (amount.repeat ExtendedMantissa.shiftRightOne extended) _
  induction amount with
  | zero => simpa [Nat.repeat] using stands
  | succ amount inductionHypothesis =>
      rw [Nat.repeat, pow_succ, ← div_div]
      exact inductionHypothesis.shiftRightOne

/-- The number lies from the mantissa on, within one unit. -/
theorem within (stands : Stands extended point) :
    (extended.mantissa : ℚ) ≤ point ∧ point < extended.mantissa + 1 := by
  obtain ⟨mantissa, roundBit, stickyBit⟩ := extended
  cases roundBit <;> cases stickyBit <;> simp only [Stands] at stands ⊢ <;> constructor <;> linarith

/-- A number within half a unit of a whole number rounds to it, from exactly half a unit off only when it
is even. -/
theorem roundedMantissa_eq (stands : Stands extended point) {nearest : Nat}
    (low : (nearest : ℚ) - 1 / 2 ≤ point) (high : point ≤ nearest + 1 / 2)
    (tie : nearest % 2 = 1 → (nearest : ℚ) - 1 / 2 < point ∧ point < nearest + 1 / 2) :
    extended.roundedMantissa = nearest := by
  obtain ⟨least, most⟩ := stands.within
  have candidates : nearest = extended.mantissa ∨ nearest = extended.mantissa + 1 := by
    have above : (extended.mantissa : ℚ) < nearest + 1 := by linarith
    have below : (nearest : ℚ) < extended.mantissa + 2 := by linarith
    norm_cast at above below
    omega
  obtain ⟨mantissa, roundBit, stickyBit⟩ := extended
  -- The two bits say on which side of the middle the number lies.
  cases roundBit <;> cases stickyBit <;>
    simp only [Stands, ExtendedMantissa.roundedMantissa, ExtendedMantissa.accuracy,
      Accuracy.roundToNearestEven] at stands candidates ⊢
  · rcases candidates with rfl | rfl
    · rfl
    · push_cast at low
      linarith
  · rcases candidates with rfl | rfl
    · rfl
    · push_cast at low
      linarith
  · rcases candidates with rfl | rfl
    · by_contra odd
      linarith [(tie (by omega)).2]
    · by_contra odd
      push_cast at tie
      linarith [(tie (by omega)).1]
  · rcases candidates with rfl | rfl
    · linarith
    · rfl

end Stands

/-! ## Rounding -/

/-- How far below a mantissa the midpoint to the next smaller double lies: half a unit, or a quarter at a
power of two, below which the doubles lie twice as dense. -/
def halfGapBelow (mantissa : Nat) (exponent : Int) : ℚ :=
  if mantissa = fractionCount ∧ -1074 < exponent then 1 / 4 else 1 / 2

/-- That a number lies no further from a double than the midpoints to its neighbours, and nearer to it when
the double is odd. -/
structure IsNearest (point : ℚ) (mantissa : Nat) (exponent : Int) : Prop where
  low : ((mantissa : ℚ) - halfGapBelow mantissa exponent) * 2 ^ exponent ≤ point
  high : point ≤ ((mantissa : ℚ) + 1 / 2) * 2 ^ exponent
  tie : mantissa % 2 = 1 → ((mantissa : ℚ) - halfGapBelow mantissa exponent) * 2 ^ exponent < point ∧
    point < ((mantissa : ℚ) + 1 / 2) * 2 ^ exponent

/-- The gap below is half a unit, but a quarter below a power of two that has smaller exponents. -/
theorem halfGapBelow_cases (mantissa : Nat) (exponent : Int) :
    halfGapBelow mantissa exponent = 1 / 2 ∨
      mantissa = fractionCount ∧ -1074 < exponent ∧ halfGapBelow mantissa exponent = 1 / 4 := by
  unfold halfGapBelow
  split
  · next power => exact .inr ⟨power.1, power.2, rfl⟩
  · exact .inl rfl

section Target

variable {mantissa : Nat} {exponent : Int} {accuracy : Accuracy} {point : ℚ}

/-- The exponent that a number is rounded at. -/
abbrev target (mantissa : Nat) (exponent : Int) : Int :=
  Format.targetExponent Format.binary64 (totalExponent mantissa exponent)

/-- A number is rounded to 53 bits, or at the smallest exponent of all. -/
theorem target_eq (mantissa : Nat) (exponent : Int) :
    target mantissa exponent = max (mantissa.log2 + 1 + exponent - 53) (-1074) := rfl

/-- How many bits of a mantissa are given up at a target. -/
abbrev surplus (mantissa : Nat) (exponent : Int) : Nat :=
  (target mantissa exponent - exponent).toNat

/-- As many bits are given up as the target lies above the exponent. -/
theorem surplus_eq (fine : exponent ≤ target mantissa exponent) :
    (surplus mantissa exponent : Int) = target mantissa exponent - exponent :=
  Int.toNat_of_nonneg (Int.sub_nonneg.mpr fine)

/-- What is left in units of the target is what is left after the bits that are given up. -/
theorem div_target (fine : exponent ≤ target mantissa exponent) :
    point / 2 ^ target mantissa exponent = point / 2 ^ exponent / 2 ^ surplus mantissa exponent := by
  have split : target mantissa exponent = exponent + (surplus mantissa exponent : Int) := by
    rw [surplus_eq fine]
    omega
  rw [div_div, ← zpow_natCast, ← zpow_add₀ (by norm_num), ← split]

/-- At its target a number has at most fifty-three bits, and no fewer except at the least exponent. -/
theorem target_bounds (stands : Stands (.ofMantissaAndAccuracy mantissa accuracy) (point / 2 ^ exponent))
    (fine : exponent ≤ target mantissa exponent) :
    point / 2 ^ target mantissa exponent < 2 ^ 53 ∧
      (target mantissa exponent = -1074 ∨ 2 ^ 52 ≤ point / 2 ^ target mantissa exponent) := by
  have same : (ExtendedMantissa.ofMantissaAndAccuracy mantissa accuracy).mantissa = mantissa := by
    cases accuracy with
    | exact => rfl
    | inexact order => cases order <;> rfl
  obtain ⟨least, most⟩ := stands.within
  rw [same] at least most
  have eq := target_eq mantissa exponent
  have given := surplus_eq fine
  rw [div_target fine]
  generalize point / 2 ^ exponent = unrounded at least most
  have positive : (0 : ℚ) < 2 ^ surplus mantissa exponent := by positivity
  constructor
  · rw [div_lt_iff₀ positive, ← pow_add]
    have bits : mantissa + 1 ≤ 2 ^ (mantissa.log2 + 1) := Nat.lt_log2_self
    have power : 2 ^ (mantissa.log2 + 1) ≤ 2 ^ (53 + surplus mantissa exponent) :=
      Nat.pow_le_pow_right (by norm_num) (by omega)
    have bounded : ((mantissa + 1 : Nat) : ℚ) ≤ ((2 ^ (53 + surplus mantissa exponent) : Nat) : ℚ) :=
      Nat.cast_le.mpr (bits.trans power)
    push_cast at bounded
    linarith
  · by_cases lowest : target mantissa exponent = -1074
    · exact .inl lowest
    · right
      rw [le_div_iff₀ positive, ← pow_add]
      have nonzero : mantissa ≠ 0 := by
        rintro rfl
        rw [Nat.log2_zero] at eq
        omega
      have bits : 2 ^ (52 + surplus mantissa exponent) ≤ mantissa := by
        rw [show 52 + surplus mantissa exponent = mantissa.log2 by omega]
        exact Nat.log2_self_le nonzero
      have bounded : ((2 ^ (52 + surplus mantissa exponent) : Nat) : ℚ) ≤ mantissa := Nat.cast_le.mpr bits
      push_cast at bounded
      linarith

end Target

section Round

variable {sign : Sign} {mantissa nearest : Nat} {exponent power : Int} {accuracy : Accuracy} {point : ℚ}

/-- Rounding shifts to the target, rounds, and does so once more in case that has made a bit too many. -/
theorem roundWithAccuracy_eq {rounded : Nat} (fine : exponent ≤ target mantissa exponent)
    (first : (ExtendedMantissa.ofMantissaAndAccuracy mantissa accuracy >>>
      surplus mantissa exponent).roundedMantissa = rounded)
    (second : (ExtendedMantissa.ofMantissaAndAccuracy rounded .exact >>>
      surplus rounded (target mantissa exponent)).mantissa = nearest)
    (last : target mantissa exponent + surplus rounded (target mantissa exponent) = power)
    (positive : 0 < nearest) :
    roundWithAccuracy Format.binary64 sign mantissa exponent accuracy =
      .finite sign nearest power positive := by
  have landed : exponent + (surplus mantissa exponent : Int) = target mantissa exponent := by
    rw [surplus_eq fine]
    omega
  subst first second last
  unfold roundWithAccuracy shiftToTargetExponent shiftToExponent
  dsimp only
  rw [landed]
  rw [dif_neg positive.ne']

/-- Nothing is given up of a canonical mantissa. -/
theorem target_of_canonical (positive : 0 < nearest) (canonical : IsCanonical nearest power) :
    surplus nearest power = 0 := by
  have narrow : nearest < 2 ^ 53 := canonical.narrow
  have bits := (Nat.log2_lt positive.ne').mpr narrow
  have lowest := canonical.lowest
  have eq := target_eq nearest power
  exact Int.toNat_of_nonpos (by omega)

/-- At its own exponent a double takes every number that lies nearest to it. -/
theorem rounded_at_exponent {extended : ExtendedMantissa} (stands : Stands extended (point / 2 ^ power))
    (isNearest : IsNearest point nearest power) : extended.roundedMantissa = nearest := by
  have unit : (0 : ℚ) < 2 ^ power := by positivity
  have gap : halfGapBelow nearest power ≤ 1 / 2 := by
    rcases halfGapBelow_cases nearest power with eq | ⟨_, _, eq⟩ <;> rw [eq]
    norm_num
  have low := (le_div_iff₀ unit).mpr isNearest.low
  have high := (div_le_iff₀ unit).mpr isNearest.high
  refine stands.roundedMantissa_eq (by linarith) high fun odd => ?_
  have strictLow := (lt_div_iff₀ unit).mpr (isNearest.tie odd).1
  have strictHigh := (div_lt_iff₀ unit).mpr (isNearest.tie odd).2
  exact ⟨by linarith, strictHigh⟩

/-- A number of at most fifty-three bits that lies nearest to a double of a greater exponent lies just below a
power of two. -/
theorem exponent_below {exponent : Int} (below : exponent < power) (most : point / 2 ^ exponent < 2 ^ 53)
    (lowest : -1074 ≤ exponent) (canonical : IsCanonical nearest power)
    (isNearest : IsNearest point nearest power) :
    power = exponent + 1 ∧ nearest = 2 ^ 52 ∧ (2 : ℚ) ^ 53 - 1 / 2 ≤ point / 2 ^ exponent := by
  obtain ⟨further, rfl⟩ : ∃ further : Nat, power = exponent + 1 + further :=
    ⟨(power - exponent - 1).toNat, by omega⟩
  have unit : (0 : ℚ) < 2 ^ exponent := by positivity
  have full : 2 ^ 52 ≤ nearest := canonical.normal.resolve_right (by omega)
  have fullCast : (2 : ℚ) ^ 52 ≤ nearest := by exact_mod_cast full
  have low : ((nearest : ℚ) - halfGapBelow nearest (exponent + 1 + further)) * (2 * 2 ^ further) ≤
      point / 2 ^ exponent := by
    rw [le_div_iff₀ unit]
    have lowest := isNearest.low
    rw [zpow_add₀ (by norm_num), zpow_add₀ (by norm_num), zpow_natCast] at lowest
    linarith
  have gap : halfGapBelow nearest (exponent + 1 + further) ≤ 1 / 2 := by
    rcases halfGapBelow_cases nearest (exponent + 1 + further) with eq | ⟨_, _, eq⟩ <;> rw [eq]
    norm_num
  have further_eq : further = 0 := by
    by_contra nonzero
    have double : (2 : ℚ) ≤ 2 ^ further := by
      calc (2 : ℚ) = 2 ^ 1 := by norm_num
        _ ≤ 2 ^ further := pow_le_pow_right₀ (by norm_num) (by omega)
    nlinarith
  subst further_eq
  rw [pow_zero, mul_one] at low
  have least : nearest = 2 ^ 52 := by
    have next : (nearest : ℚ) < 2 ^ 52 + 1 := by linarith
    have noMore : nearest < 2 ^ 52 + 1 := by exact_mod_cast next
    omega
  subst least
  have quarter : halfGapBelow (2 ^ 52) (exponent + 1 + (0 : Nat)) = 1 / 4 := by
    rw [halfGapBelow, if_pos ⟨rfl, by omega⟩]
  rw [quarter] at low
  refine ⟨by omega, rfl, ?_⟩
  push_cast at low
  linarith

/-- No number that fills fifty-three bits lies nearest to a double of a smaller exponent. -/
theorem exponent_not_above {exponent : Int} (full : 2 ^ 52 ≤ point / 2 ^ exponent)
    (canonical : IsCanonical nearest power) (isNearest : IsNearest point nearest power) :
    exponent ≤ power := by
  by_contra above
  obtain ⟨further, rfl⟩ : ∃ further : Nat, exponent = power + 1 + further :=
    ⟨(exponent - power - 1).toNat, by omega⟩
  have unit : (0 : ℚ) < 2 ^ power := by positivity
  have narrow : (nearest : ℚ) + 1 ≤ 2 ^ 53 := by exact_mod_cast canonical.narrow
  rw [zpow_add₀ (by norm_num), zpow_add₀ (by norm_num), zpow_natCast, zpow_one,
    le_div_iff₀ (by positivity)] at full
  have high := isNearest.high
  have atLeast : (1 : ℚ) ≤ 2 ^ further := one_le_pow₀ (by norm_num)
  have scaled : (2 : ℚ) ^ 53 * 2 ^ power ≤ 2 ^ 52 * (2 ^ power * 2 * 2 ^ further) := by nlinarith
  have bounded : (2 : ℚ) ^ 53 * 2 ^ power ≤ ((nearest : ℚ) + 1 / 2) * 2 ^ power := by linarith
  have belowHalf := le_of_mul_le_mul_right bounded unit
  linarith

/-- A number rounds to the double that it lies nearest to. -/
theorem round_eq (stands : Stands (.ofMantissaAndAccuracy mantissa accuracy) (point / 2 ^ exponent))
    (fine : exponent ≤ target mantissa exponent) (positive : 0 < nearest)
    (canonical : IsCanonical nearest power) (isNearest : IsNearest point nearest power) :
    roundWithAccuracy Format.binary64 sign mantissa exponent accuracy =
      .finite sign nearest power positive := by
  have shifted := stands.shiftRight (surplus mantissa exponent)
  rw [← div_target fine] at shifted
  obtain ⟨most, full⟩ := target_bounds stands fine
  have lowest : -1074 ≤ target mantissa exponent := le_max_right _ _
  have notAbove : target mantissa exponent ≤ power := by
    rcases full with least | full
    · rw [least]
      exact canonical.lowest
    · exact exponent_not_above full canonical isNearest
  rcases notAbove.eq_or_lt with same | below
  · rw [same] at shifted
    refine roundWithAccuracy_eq fine (rounded_at_exponent shifted isNearest) ?_ ?_ positive
    · rw [same, target_of_canonical positive canonical]
      rfl
    · rw [same, target_of_canonical positive canonical]
      simp
  · -- Rounding carries into a fifty-fourth bit, which the second shift gives up again.
    obtain ⟨rfl, rfl, close⟩ := exponent_below below most lowest canonical isNearest
    have rounded : (ExtendedMantissa.ofMantissaAndAccuracy mantissa accuracy >>>
        surplus mantissa exponent).roundedMantissa = 2 ^ 53 :=
      shifted.roundedMantissa_eq (by push_cast; linarith) (by push_cast; linarith) (by omega)
    have carried : surplus (2 ^ 53) (target mantissa exponent) = 1 := by
      have eq := target_eq (2 ^ 53) (target mantissa exponent)
      rw [Nat.log2_two_pow] at eq
      rw [surplus]
      omega
    refine roundWithAccuracy_eq fine rounded ?_ ?_ positive
    · rw [carried]
      rfl
    · rw [carried]
      rfl

end Round

end Orchestration.Binary64
