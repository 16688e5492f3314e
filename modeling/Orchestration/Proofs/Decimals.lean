import Orchestration.Proofs.Rounding

/-!
# Decimals as doubles

A decimal is turned into a double by an exact product or a quotient of whole numbers that is rounded once, or,
for few digits and a small power of ten, by the same operation on doubles that hold both of them exactly.
Either way the outcome is the double that the decimal lies nearest to.
-/

namespace Orchestration.Binary64

open Float.Model (Format UnpackedFloat totalExponent)
open Float.Model.UnpackedFloat

/-- A power with an exponent of either sign as a fraction of whole powers. -/
theorem zpow_eq_div {base : ℚ} (nonzero : base ≠ 0) (exponent : Int) :
    base ^ exponent = base ^ exponent.toNat / base ^ (-exponent).toNat := by
  rw [← zpow_natCast, ← zpow_natCast, ← zpow_sub₀ nonzero]
  congr 1
  omega

/-! ## Products and quotients -/

section Operations

variable {left right nearest : Nat} {leftExponent rightExponent power : Int}

/-- A whole number of units is rounded once. -/
theorem whole_eq (leftPositive : 0 < left) (positive : 0 < nearest) (canonical : IsCanonical nearest power)
    (isNearest : IsNearest (left * 2 ^ leftExponent) nearest power) :
    UnpackedFloat.round Format.binary64 .positive left leftExponent =
      .finite .positive nearest power positive := by
  -- The bits that are put on make the number fine enough to be rounded.
  generalize bits : (leftExponent - target left leftExponent).toNat = shift
  change roundWithAccuracy Format.binary64 .positive
    (left <<< (leftExponent - target left leftExponent).toNat)
    (leftExponent - (leftExponent - target left leftExponent).toNat) .exact = _
  rw [bits, Nat.shiftLeft_eq]
  have log : left.log2 + shift ≤ (left * 2 ^ shift).log2 := by
    rw [Nat.le_log2 (by positivity), pow_add]
    exact Nat.mul_le_mul_right _ (Nat.log2_self_le leftPositive.ne')
  have eq := target_eq left leftExponent
  refine round_eq ?_ (by rw [target_eq]; omega) positive canonical isNearest
  have exact : (left : ℚ) * 2 ^ leftExponent / 2 ^ (leftExponent - shift) = (left * 2 ^ shift : Nat) := by
    rw [mul_div_assoc, ← zpow_sub₀ (by norm_num), sub_sub_cancel, zpow_natCast]
    push_cast
    rfl
  rw [exact]
  exact .exact _

/-- A quotient is known by its whole part and by how twice its remainder compares to the divisor. -/
theorem stands_quotient (positive : 0 < right) :
    Stands (.ofMantissaAndAccuracy (left / right) (accuracyOfFraction (left % right) right))
      ((left : ℚ) / right) := by
  have divisor : (0 : ℚ) < right := Nat.cast_pos.mpr positive
  have parts : (left : ℚ) / right = ((left / right : Nat) : ℚ) + ((left % right : Nat) : ℚ) / right := by
    have whole : ((right * (left / right) + left % right : Nat) : ℚ) = left := by rw [Nat.div_add_mod]
    push_cast at whole
    field_simp
    linarith
  have small : ((left % right : Nat) : ℚ) / right < 1 := by
    rw [div_lt_one divisor]
    exact_mod_cast Nat.mod_lt left positive
  rw [parts]
  generalize left / right = quotient
  generalize left % right = remainder at small
  unfold accuracyOfFraction
  split
  · next zero =>
      rw [zero, Nat.cast_zero, zero_div, add_zero]
      exact .exact quotient
  · next nonzero =>
      have something : (0 : ℚ) < (remainder : ℚ) / right :=
        div_pos (Nat.cast_pos.mpr (Nat.pos_of_ne_zero nonzero)) divisor
      rcases lt_trichotomy (2 * remainder) right with less | equal | greater
      · rw [Nat.compare_eq_lt.mpr less]
        have half : (remainder : ℚ) / right < 1 / 2 := by
          rw [div_lt_div_iff₀ divisor (by norm_num)]
          exact_mod_cast (by omega : remainder * 2 < 1 * right)
        show (quotient : ℚ) < _ ∧ _ < (quotient : ℚ) + 1 / 2
        constructor <;> linarith
      · rw [Nat.compare_eq_eq.mpr equal]
        have half : (remainder : ℚ) / right = 1 / 2 := by
          rw [div_eq_div_iff divisor.ne' (by norm_num)]
          exact_mod_cast (by omega : remainder * 2 = 1 * right)
        rw [half]
        rfl
      · rw [Nat.compare_eq_gt.mpr greater]
        have half : 1 / 2 < (remainder : ℚ) / right := by
          rw [div_lt_div_iff₀ (by norm_num) divisor]
          exact_mod_cast (by omega : 1 * right < remainder * 2)
        show (quotient : ℚ) + 1 / 2 < _ ∧ _ < (quotient : ℚ) + 1
        constructor <;> linarith

/-- A product is rounded once. -/
theorem mul_eq (leftPositive : 0 < left) (rightPositive : 0 < right)
    (fine : leftExponent + rightExponent ≤ target (left * right) (leftExponent + rightExponent))
    (positive : 0 < nearest) (canonical : IsCanonical nearest power)
    (isNearest : IsNearest (left * right * 2 ^ (leftExponent + rightExponent)) nearest power) :
    UnpackedFloat.mul Format.binary64 (.finite .positive left leftExponent leftPositive)
      (.finite .positive right rightExponent rightPositive) = .finite .positive nearest power positive := by
  have unit : (2 : ℚ) ^ (leftExponent + rightExponent) ≠ 0 := by positivity
  refine round_eq ?_ fine positive canonical isNearest
  rw [mul_div_cancel_right₀ _ unit]
  exact_mod_cast Stands.exact (left * right)

/-- The exponent that a quotient is computed at. -/
def quotientExponent (left : Nat) (leftExponent : Int) (right : Nat) (rightExponent : Int) : Int :=
  min (leftExponent - rightExponent)
    (Format.targetExponent Format.binary64
      (totalExponent left leftExponent - totalExponent right rightExponent))

/-- A quotient is computed with no fewer bits than it is rounded to. -/
theorem quotient_fine {exponent : Int} (leftPositive : 0 < left) (rightPositive : 0 < right)
    (chosen : exponent = quotientExponent left leftExponent right rightExponent) :
    exponent ≤ target (left <<< (leftExponent - rightExponent - exponent).toNat / right) exponent := by
  have eq : exponent = min (leftExponent - rightExponent)
      (max ((left.log2 : Int) + 1 + leftExponent - (right.log2 + 1 + rightExponent) - 53) (-1074)) := chosen
  by_cases lowest : exponent ≤ -1074
  · exact lowest.trans (le_max_right _ _)
  · have wide : 2 ^ 52 ≤ left <<< (leftExponent - rightExponent - exponent).toNat / right := by
      generalize shifted : (leftExponent - rightExponent - exponent).toNat = shift
      have room : 52 + (right.log2 + 1) ≤ left.log2 + shift := by omega
      rw [Nat.shiftLeft_eq, Nat.le_div_iff_mul_le rightPositive]
      calc 2 ^ 52 * right ≤ 2 ^ 52 * 2 ^ (right.log2 + 1) := Nat.mul_le_mul_left _ Nat.lt_log2_self.le
        _ = 2 ^ (52 + (right.log2 + 1)) := (pow_add 2 _ _).symm
        _ ≤ 2 ^ (left.log2 + shift) := Nat.pow_le_pow_right (by norm_num) room
        _ = 2 ^ left.log2 * 2 ^ shift := pow_add 2 _ _
        _ ≤ left * 2 ^ shift := Nat.mul_le_mul_right _ (Nat.log2_self_le leftPositive.ne')
    have bits := (Nat.le_log2 (by omega)).mpr wide
    rw [target_eq]
    omega

/-- A quotient is rounded once. -/
theorem div_eq (leftPositive : 0 < left) (rightPositive : 0 < right)
    (positive : 0 < nearest) (canonical : IsCanonical nearest power)
    (isNearest : IsNearest (left / right * 2 ^ (leftExponent - rightExponent)) nearest power) :
    UnpackedFloat.div Format.binary64 (.finite .positive left leftExponent leftPositive)
      (.finite .positive right rightExponent rightPositive) = .finite .positive nearest power positive := by
  generalize chosen : quotientExponent left leftExponent right rightExponent = exponent
  have fine := quotient_fine leftPositive rightPositive chosen.symm
  have most : exponent ≤ leftExponent - rightExponent := chosen ▸ min_le_left _ _
  have shift := Int.toNat_of_nonneg (Int.sub_nonneg.mpr most)
  have unfolded : UnpackedFloat.div Format.binary64 (.finite .positive left leftExponent leftPositive)
      (.finite .positive right rightExponent rightPositive) =
      roundWithAccuracy Format.binary64 .positive
        (left <<< (leftExponent - rightExponent - exponent).toNat / right) exponent
        (accuracyOfFraction (left <<< (leftExponent - rightExponent - exponent).toNat % right) right) := by
    rw [← chosen]
    rfl
  rw [unfolded]
  generalize (leftExponent - rightExponent - exponent).toNat = places at fine shift
  refine round_eq ?_ fine positive canonical isNearest
  have exact : (left : ℚ) / right * 2 ^ (leftExponent - rightExponent) / 2 ^ exponent =
      ((left <<< places : Nat) : ℚ) / right := by
    rw [Nat.shiftLeft_eq, mul_div_assoc, ← zpow_sub₀ (by norm_num), ← shift, zpow_natCast]
    push_cast
    ring
  rw [exact]
  exact stands_quotient rightPositive

end Operations

/-! ## Doubles that hold a number exactly -/

section Exact

variable {value left right : Float} {number first second : ℚ} {negative : Bool} {nearest : Nat} {power : Int}

/-- The content of a positive double is what it is unpacked into. -/
theorem unpack_of_content {mantissa : Nat} {exponent : Int} (positive : 0 < mantissa)
    (found : content value = .finite false mantissa exponent) :
    value.toModel.unpack = .finite .positive mantissa exponent positive := by
  rw [content_eq] at found
  exact Content.ofUnpacked_injective found

/-- A canonical pair that is packed is the content of the double. -/
theorem content_of_pack (positive : 0 < nearest) (canonical : IsCanonical nearest power)
    (packed : value.toModel = .pack (.finite .positive nearest power positive)) :
    content value = .finite false nearest power := by
  rw [content_eq, packed, unpack_pack .positive positive canonical]
  rfl

/-- That a double is equal to a number and has all the bits of a mantissa. -/
def Holds (value : Float) (number : ℚ) : Prop :=
  ∃ mantissa exponent, content value = .finite false mantissa exponent ∧ 2 ^ 52 ≤ mantissa ∧
    (mantissa : ℚ) * 2 ^ exponent = number

/-- A product has the mantissa that is nearest to the product of the numbers. -/
theorem content_mul (leftHolds : Holds left first) (rightHolds : Holds right second)
    (positive : 0 < nearest) (canonical : IsCanonical nearest power)
    (isNearest : IsNearest (first * second) nearest power) :
    content (left * right) = .finite false nearest power := by
  obtain ⟨leftMantissa, leftExponent, leftContent, leftFull, rfl⟩ := leftHolds
  obtain ⟨rightMantissa, rightExponent, rightContent, rightFull, rfl⟩ := rightHolds
  have leftPositive : 0 < leftMantissa := by omega
  have rightPositive : 0 < rightMantissa := by omega
  have wide : 2 ^ 104 ≤ leftMantissa * rightMantissa := by
    rw [show 104 = 52 + 52 from rfl, pow_add]
    exact Nat.mul_le_mul leftFull rightFull
  have bits := (Nat.le_log2 (Nat.mul_pos leftPositive rightPositive).ne').mpr wide
  refine content_of_pack positive canonical ?_
  change Float.Model.pack (UnpackedFloat.mul Format.binary64 left.toModel.unpack right.toModel.unpack) = _
  rw [unpack_of_content leftPositive leftContent, unpack_of_content rightPositive rightContent,
    mul_eq leftPositive rightPositive (by rw [target_eq]; omega) positive canonical]
  convert isNearest using 1
  rw [zpow_add₀ (by norm_num)]
  ring

/-- A quotient has the mantissa that is nearest to the quotient of the numbers. -/
theorem content_div (leftHolds : Holds left first) (rightHolds : Holds right second)
    (positive : 0 < nearest) (canonical : IsCanonical nearest power)
    (isNearest : IsNearest (first / second) nearest power) :
    content (left / right) = .finite false nearest power := by
  obtain ⟨leftMantissa, leftExponent, leftContent, leftFull, rfl⟩ := leftHolds
  obtain ⟨rightMantissa, rightExponent, rightContent, rightFull, rfl⟩ := rightHolds
  have leftPositive : 0 < leftMantissa := by omega
  have rightPositive : 0 < rightMantissa := by omega
  refine content_of_pack positive canonical ?_
  change Float.Model.pack (UnpackedFloat.div Format.binary64 left.toModel.unpack right.toModel.unpack) = _
  rw [unpack_of_content leftPositive leftContent, unpack_of_content rightPositive rightContent,
    div_eq leftPositive rightPositive positive canonical]
  convert isNearest using 1
  rw [zpow_sub₀ (by norm_num), mul_div_mul_comm]

/-- A number that is a mantissa at an exponent is nearest to itself. -/
theorem isNearest_self {mantissa : Nat} {exponent : Int} :
    IsNearest (mantissa * 2 ^ exponent) mantissa exponent := by
  have unit : (0 : ℚ) < 2 ^ exponent := by positivity
  have gap : 0 < halfGapBelow mantissa exponent := by
    rcases halfGapBelow_cases mantissa exponent with eq | ⟨_, _, eq⟩ <;> rw [eq] <;> norm_num
  have low : ((mantissa : ℚ) - halfGapBelow mantissa exponent) * 2 ^ exponent < mantissa * 2 ^ exponent :=
    mul_lt_mul_of_pos_right (by linarith) unit
  have high : (mantissa : ℚ) * 2 ^ exponent < (mantissa + 1 / 2) * 2 ^ exponent :=
    mul_lt_mul_of_pos_right (by linarith) unit
  exact ⟨low.le, high.le, fun _ => ⟨low, high⟩⟩

/-- Whole numbers of up to fifty-three bits are held exactly. -/
theorem holds_toFloat {number : Nat} (positive : 0 < number) (narrow : number < 2 ^ 53) :
    Holds number.toUInt64.toFloat number := by
  have bits := (Nat.log2_lt positive.ne').mpr narrow
  have least := Nat.log2_self_le positive.ne'
  have most := Nat.lt_log2_self (n := number)
  obtain ⟨places, total⟩ : ∃ places, number.log2 + places = 52 := ⟨52 - number.log2, by omega⟩
  have full : 2 ^ 52 ≤ number * 2 ^ places := by
    rw [← total, pow_add]
    exact Nat.mul_le_mul_right _ least
  have fits : number * 2 ^ places < 2 ^ 53 := by
    rw [show 53 = number.log2 + 1 + places by omega, pow_add]
    exact Nat.mul_lt_mul_of_pos_right most (by positivity)
  have canonical : IsCanonical (number * 2 ^ places) (-places) :=
    ⟨fits, by omega, by omega, .inl full⟩
  have equal : ((number * 2 ^ places : Nat) : ℚ) * 2 ^ (-(places : Int)) = number := by
    push_cast
    rw [zpow_neg, zpow_natCast]
    field_simp
  refine ⟨number * 2 ^ places, -places, content_of_pack (by omega) canonical ?_, full, equal⟩
  have word : number.toUInt64.toNat = number := Nat.mod_eq_of_lt (by omega)
  have whole : UnpackedFloat.ofUInt64 Format.binary64 number.toUInt64 =
      UnpackedFloat.round Format.binary64 .positive number 0 := by
    rw [UnpackedFloat.ofUInt64, word, UnpackedFloat.ofNat, UnpackedFloat.ofInt, UnpackedFloat.normalize,
      Int.compare_eq_gt.mpr (by omega)]
    rfl
  change Float.Model.pack (UnpackedFloat.ofUInt64 Format.binary64 number.toUInt64) = _
  rw [whole, whole_eq positive (by omega) canonical]
  rw [zpow_zero, mul_one, ← equal]
  exact isNearest_self

/-- Whether a double is equal to a whole number and has all the bits of a mantissa. -/
def isHeld (value : Float) (number : Nat) : Bool :=
  match content value with
  | .finite false mantissa exponent =>
      2 ^ 52 ≤ mantissa && mantissa * 2 ^ exponent.toNat = number * 2 ^ (-exponent).toNat
  | _ => false

/-- What is seen to be equal to a whole number is equal to it. -/
theorem holds_of_isHeld {number : Nat} (held : isHeld value number = true) : Holds value number := by
  unfold isHeld at held
  split at held
  · next mantissa exponent found =>
      rw [Bool.and_eq_true, decide_eq_true_iff, decide_eq_true_iff] at held
      refine ⟨mantissa, exponent, found, held.1, ?_⟩
      have equal : (mantissa : ℚ) * 2 ^ exponent.toNat = number * 2 ^ (-exponent).toNat := by
        exact_mod_cast held.2
      rw [zpow_eq_div two_ne_zero, mul_div_assoc', equal, mul_div_cancel_right₀ _ (by positivity)]
  · cases held

/-- The powers of ten in the table are held exactly. -/
theorem holds_powerOfTen {exponent : Nat}
    (listed : exponent < Float.exactlyRepresentablePowersOfTen.size) :
    Holds Float.exactlyRepresentablePowersOfTen[exponent] (10 ^ exponent : Nat) := by
  have table : ∀ place : Fin 23,
      isHeld Float.exactlyRepresentablePowersOfTen[place] (10 ^ place.val) = true := by
    decide +kernel
  exact holds_of_isHeld (table ⟨exponent, listed⟩)

end Exact

/-! ## Decimals -/

section Scientific

variable {mantissa nearest : Nat} {exponent power : Int}

/-- A decimal within the model's bounds on its exponent is rounded once. -/
theorem scientific_eq (mantissaPositive : 0 < mantissa) (positive : 0 < nearest)
    (canonical : IsCanonical nearest power) (low : -2048 ≤ exponent) (high : exponent ≤ 2048)
    (isNearest : IsNearest (mantissa * 10 ^ exponent) nearest power) :
    UnpackedFloat.ofScientific Format.binary64 mantissa exponent =
      .finite .positive nearest power positive := by
  unfold UnpackedFloat.ofScientific
  rw [dif_neg mantissaPositive.ne', if_neg (by change ¬ (2048 < exponent); omega),
    if_neg (by change ¬ (exponent < -(2048 + (mantissa.log2 : Int))); omega)]
  split
  · next upward =>
      have width : Format.mantissaBits Format.binary64 = 53 := rfl
      have wide : 2 ^ 53 ≤ mantissa <<< Format.mantissaBits Format.binary64 * 10 ^ exponent.toNat := by
        rw [Nat.shiftLeft_eq, width]
        calc 2 ^ 53 = 1 * 2 ^ 53 * 1 := by norm_num
          _ ≤ mantissa * 2 ^ 53 * 10 ^ exponent.toNat :=
            Nat.mul_le_mul (Nat.mul_le_mul_right _ mantissaPositive) (Nat.one_le_pow _ _ (by norm_num))
      have bits := (Nat.le_log2 (by omega)).mpr wide
      refine mul_eq _ _ ?_ positive canonical ?_
      · rw [target_eq, width]
        rw [width] at bits
        omega
      · convert isNearest using 1
        rw [zpow_eq_div (by norm_num : (10 : ℚ) ≠ 0) exponent, Int.toNat_of_nonpos (by omega : -exponent ≤ 0),
          Nat.shiftLeft_eq, width]
        push_cast
        norm_num
        ring
  · next downward =>
      refine div_eq mantissaPositive _ positive canonical ?_
      convert isNearest using 1
      rw [zpow_eq_div (by norm_num : (10 : ℚ) ≠ 0) exponent, Int.toNat_of_nonpos (by omega : exponent ≤ 0)]
      push_cast
      ring

/-- A decimal becomes the double that it lies nearest to. -/
theorem content_ofScientific {shift : Nat} {down : Bool} (mantissaPositive : 0 < mantissa)
    (positive : 0 < nearest) (canonical : IsCanonical nearest power) (small : shift ≤ 2048)
    (isNearest : IsNearest (mantissa * 10 ^ (if down then -(shift : Int) else shift)) nearest power) :
    content (Float.ofScientific mantissa down shift) = .finite false nearest power := by
  unfold Float.ofScientific
  split
  · next fast =>
      have whole := holds_toFloat mantissaPositive fast.1
      have table := holds_powerOfTen (Nat.lt_succ_of_le fast.2)
      cases down
      · exact content_mul whole table positive canonical (by simpa using isNearest)
      · exact content_div whole table positive canonical (by simpa [div_eq_mul_inv] using isNearest)
  · refine content_of_pack positive canonical ?_
    rw [← scientific_eq mantissaPositive positive canonical _ _ isNearest]
    · cases down <;> rfl
    · split <;> omega
    · split <;> omega

end Scientific

section Magnitudes

variable {number mantissa nearest : Nat} {exponent power : Int} {point : ℚ}

/-- A number has so many digits at most when it is less than that power of ten. -/
theorem digitCount_le_iff {count : Nat} (positive : 0 < count) :
    digitCount number ≤ count ↔ number < 10 ^ count :=
  Nat.length_toDigits_le_iff (by norm_num) positive

/-- Every number has a digit. -/
theorem digitCount_pos (number : Nat) : 0 < digitCount number :=
  Nat.length_toDigits_pos

/-- A number is less than the power of ten with as many zeros as it has digits. -/
theorem lt_pow_digitCount (number : Nat) : number < 10 ^ digitCount number :=
  (digitCount_le_iff (digitCount_pos number)).mp le_rfl

/-- A positive number is not less than the power of ten with as many digits. -/
theorem pow_digitCount_le (positive : 0 < number) : 10 ^ (digitCount number - 1) ≤ number := by
  rcases Nat.eq_or_lt_of_le (digitCount_pos number) with one | more
  · rw [← one]
    exact positive
  · by_contra less
    have shorter := (digitCount_le_iff (by omega)).mpr (Nat.lt_of_not_le less)
    omega

/-- The power of ten of a decimal's first digit. -/
theorem decimal_bounds (positive : 0 < mantissa) (exponent : Int) :
    (10 : ℚ) ^ ((digitCount mantissa : Int) - 1 + exponent) ≤ mantissa * 10 ^ exponent ∧
      (mantissa : ℚ) * 10 ^ exponent < 10 ^ ((digitCount mantissa : Int) + exponent) := by
  have unit : (0 : ℚ) < 10 ^ exponent := by positivity
  have count := digitCount_pos mantissa
  rw [zpow_add₀ (by norm_num), zpow_add₀ (by norm_num),
    show (digitCount mantissa : Int) - 1 = ((digitCount mantissa - 1 : Nat) : Int) by omega, zpow_natCast,
    zpow_natCast]
  constructor
  · exact mul_le_mul_of_nonneg_right (by exact_mod_cast pow_digitCount_le positive) unit.le
  · exact mul_lt_mul_of_pos_right (by exact_mod_cast lt_pow_digitCount mantissa) unit

/-- A number that lies nearest to a double is neither too small nor too large for one. -/
theorem IsNearest.bounds (positive : 0 < nearest) (canonical : IsCanonical nearest power)
    (isNearest : IsNearest point nearest power) :
    (2 : ℚ) ^ (-1075 : Int) ≤ point ∧ point < 2 ^ (1024 : Int) := by
  have unit : (0 : ℚ) < 2 ^ power := by positivity
  have gap : halfGapBelow nearest power ≤ 1 / 2 := by
    rcases halfGapBelow_cases nearest power with eq | ⟨_, _, eq⟩ <;> rw [eq]
    norm_num
  constructor
  · have atLeast : (1 : ℚ) ≤ nearest := by exact_mod_cast positive
    calc (2 : ℚ) ^ (-1075 : Int) = 1 / 2 * 2 ^ (-1074 : Int) := by
          rw [show (-1075 : Int) = -1 + -1074 by norm_num, zpow_add₀ (by norm_num)]
          norm_num
      _ ≤ 1 / 2 * 2 ^ power := by
        exact mul_le_mul_of_nonneg_left (zpow_le_zpow_right₀ (by norm_num) canonical.lowest) (by norm_num)
      _ ≤ (nearest - halfGapBelow nearest power) * 2 ^ power := mul_le_mul_of_nonneg_right (by linarith) unit.le
      _ ≤ point := isNearest.low
  · have narrow : (nearest : ℚ) + 1 ≤ 2 ^ 53 := by exact_mod_cast canonical.narrow
    calc point ≤ (nearest + 1 / 2) * 2 ^ power := isNearest.high
      _ < 2 ^ 53 * 2 ^ power := mul_lt_mul_of_pos_right (by linarith) unit
      _ ≤ 2 ^ 53 * 2 ^ (971 : Int) :=
        mul_le_mul_of_nonneg_left (zpow_le_zpow_right₀ (by norm_num) canonical.highest) (by norm_num)
      _ = 2 ^ (1024 : Int) := by
        rw [show (1024 : Int) = (53 : Nat) + 971 by norm_num, zpow_add₀ (by norm_num), zpow_natCast]

/-- The first digit of a decimal that lies nearest to a double stands in the range of doubles. -/
theorem leading_bounds (mantissaPositive : 0 < mantissa) (positive : 0 < nearest)
    (canonical : IsCanonical nearest power) (isNearest : IsNearest (mantissa * 10 ^ exponent) nearest power) :
    -324 ≤ (digitCount mantissa : Int) - 1 + exponent ∧ (digitCount mantissa : Int) - 1 + exponent ≤ 308 := by
  obtain ⟨least, most⟩ := isNearest.bounds positive canonical
  obtain ⟨lower, upper⟩ := decimal_bounds mantissaPositive exponent
  constructor
  · have small : (10 : ℚ) ^ (-324 : Int) ≤ 2 ^ (-1075 : Int) := by
      have whole : 2 ^ 1075 ≤ 10 ^ 324 := by decide +kernel
      rw [zpow_neg, zpow_neg]
      exact inv_anti₀ (by positivity) (by exact_mod_cast whole)
    have above := (zpow_lt_zpow_iff_right₀ (by norm_num : (1 : ℚ) < 10)).mp
      ((small.trans least).trans_lt upper)
    omega
  · have large : (2 : ℚ) ^ (1024 : Int) ≤ 10 ^ (309 : Int) := by
      have whole : 2 ^ 1024 ≤ 10 ^ 309 := by decide +kernel
      exact_mod_cast whole
    have below := (zpow_lt_zpow_iff_right₀ (by norm_num : (1 : ℚ) < 10)).mp
      ((lower.trans_lt most).trans_le large)
    omega

/-- Reading a decimal gives the double that it lies nearest to. -/
theorem content_ofDecimal {negative : Bool} (mantissaPositive : 0 < mantissa)
    (short : digitCount mantissa ≤ 1000) (positive : 0 < nearest) (canonical : IsCanonical nearest power)
    (isNearest : IsNearest (mantissa * 10 ^ exponent) nearest power) :
    content (ofDecimal negative mantissa exponent) = .finite negative nearest power := by
  obtain ⟨lower, upper⟩ := leading_bounds mantissaPositive positive canonical isNearest
  have count := digitCount_pos mantissa
  have magnitude : content (if exponent < 0 then Float.ofScientific mantissa true exponent.natAbs
      else Float.ofScientific mantissa false exponent.natAbs) = .finite false nearest power := by
    split
    · next down =>
        refine content_ofScientific mantissaPositive positive canonical (by omega) ?_
        rw [if_pos rfl, Int.ofNat_natAbs_of_nonpos down.le, neg_neg]
        exact isNearest
    · next up =>
        refine content_ofScientific mantissaPositive positive canonical (by omega) ?_
        rw [if_neg (by decide), Int.natAbs_of_nonneg (not_lt.mp up)]
        exact isNearest
  have settled : ofDecimal negative mantissa exponent =
      if negative then -(if exponent < 0 then Float.ofScientific mantissa true exponent.natAbs
        else Float.ofScientific mantissa false exponent.natAbs)
      else if exponent < 0 then Float.ofScientific mantissa true exponent.natAbs
        else Float.ofScientific mantissa false exponent.natAbs := by
    have small : ¬ (mantissa = 0 ∨ (digitCount mantissa : Int) + exponent < -330) := by omega
    have large : ¬ 330 < (digitCount mantissa : Int) + exponent := by omega
    simp only [ofDecimal, small, large, if_false]
  rw [settled]
  cases negative
  · exact magnitude
  · exact (content_neg _).trans (congrArg Content.negated magnitude)

end Magnitudes

end Orchestration.Binary64
