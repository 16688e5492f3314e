import Orchestration.Proofs.Doubles

/-!
# Remainders of doubles

The remainder of a division is what is left of the dividend once the divisor was taken away as often as it
fits. It is a double itself, so nothing is rounded: two doubles have exactly one remainder, and the whole
numbers that a program reckons with on their mantissas come to that one.
-/

namespace Orchestration.Binary64

open Float.Model (Format UnpackedFloat)

/-- The number that a mantissa and a power of two stand for. -/
def magnitude (mantissa : Nat) (exponent : Int) : ℚ := mantissa * 2 ^ exponent

/-- What a double stands for in the logical model. -/
def meaning (value : Float) : Content := .ofUnpacked value.toModel.unpack

/-- That a content is the remainder of a dividend and a divisor. -/
inductive IsRemainder : (dividend divisor result : Content) → Prop where
  /-- The divisor fits so many times, and what is left is less than it and has the sign of the dividend. -/
  | left {negative negative' : Bool} {mantissa mantissa' rest : Nat} {exponent exponent' power : Int}
      (quotient : Nat)
      (division : magnitude mantissa exponent = quotient * magnitude mantissa' exponent' + magnitude rest power)
      (smaller : magnitude rest power < magnitude mantissa' exponent') :
      IsRemainder (.finite negative mantissa exponent) (.finite negative' mantissa' exponent')
        (.finite negative rest power)
  /-- What is infinite fits no time. -/
  | whole {negative negative' : Bool} {mantissa : Nat} {exponent : Int} :
      IsRemainder (.finite negative mantissa exponent) (.infinite negative') (.finite negative mantissa exponent)
  /-- Nothing is left that could be told when zero is taken away. -/
  | byZero {negative negative' : Bool} {mantissa : Nat} {exponent exponent' : Int} :
      IsRemainder (.finite negative mantissa exponent) (.finite negative' 0 exponent') .notANumber
  | ofInfinite {negative : Bool} {divisor : Content} : IsRemainder (.infinite negative) divisor .notANumber
  | ofUndefined {divisor : Content} : IsRemainder .notANumber divisor .notANumber
  | byUndefined {dividend : Content} : IsRemainder dividend .notANumber .notANumber

/-! ## One remainder -/

section Unique

variable {mantissa mantissa' : Nat} {exponent exponent' : Int}

/-- Powers of two are moved between the mantissa and the exponent. -/
theorem magnitude_shift (mantissa : Nat) (exponent : Int) (shift : Nat) :
    magnitude (mantissa * 2 ^ shift) exponent = magnitude mantissa (exponent + shift) := by
  rw [magnitude, magnitude, zpow_add₀ (by norm_num), zpow_natCast]
  push_cast
  ring

/-- A number can be written with any lower exponent. -/
theorem magnitude_of_le {common : Int} (below : common ≤ exponent) :
    magnitude (mantissa * 2 ^ (exponent - common).toNat) common = magnitude mantissa exponent := by
  rw [magnitude_shift]
  congr 1
  omega

/-- On one exponent, numbers compare as their mantissas do. -/
theorem magnitude_le_iff :
    magnitude mantissa exponent ≤ magnitude mantissa' exponent ↔ mantissa ≤ mantissa' := by
  rw [magnitude, magnitude, mul_le_mul_iff_left₀ (by positivity), Nat.cast_le]

/-- On one exponent, numbers compare strictly as their mantissas do. -/
theorem magnitude_lt_iff :
    magnitude mantissa exponent < magnitude mantissa' exponent ↔ mantissa < mantissa' := by
  rw [← not_le, magnitude_le_iff, not_le]

/-- On one exponent, a number determines its mantissa. -/
theorem magnitude_inj :
    magnitude mantissa exponent = magnitude mantissa' exponent ↔ mantissa = mantissa' := by
  rw [le_antisymm_iff, le_antisymm_iff, magnitude_le_iff, magnitude_le_iff]

/-- Of two canonical mantissas for one number neither has the higher exponent: it would have all its bits, and
the other one more than there are. -/
theorem IsCanonical.not_below (lower : IsCanonical mantissa exponent) (higher : IsCanonical mantissa' exponent')
    (same : magnitude mantissa exponent = magnitude mantissa' exponent') : ¬ exponent < exponent' := by
  intro below
  obtain ⟨shift, rfl⟩ : ∃ shift : Nat, exponent' = exponent + (shift + 1 : Nat) :=
    ⟨(exponent' - exponent - 1).toNat, by omega⟩
  rw [← magnitude_shift, magnitude_inj] at same
  have full : fractionCount ≤ mantissa' := higher.normal.resolve_right (by have := lower.lowest; omega)
  have wide : mantissa' * 2 ≤ mantissa' * 2 ^ (shift + 1) :=
    Nat.mul_le_mul_left _ (Nat.le_self_pow (Nat.succ_ne_zero shift) 2)
  have narrow := lower.narrow
  omega

/-- A number has one canonical mantissa. -/
theorem IsCanonical.unique (first : IsCanonical mantissa exponent) (second : IsCanonical mantissa' exponent')
    (same : magnitude mantissa exponent = magnitude mantissa' exponent') :
    mantissa = mantissa' ∧ exponent = exponent' := by
  obtain rfl : exponent = exponent' :=
    le_antisymm (not_lt.mp (second.not_below first same.symm)) (not_lt.mp (first.not_below second same))
  exact ⟨magnitude_inj.mp same, rfl⟩

/-- A number is divided in one way. -/
theorem eq_of_division {divisor first second : ℚ} {quotient quotient' : Nat} (nonneg : 0 ≤ first)
    (smaller : first < divisor) (nonneg' : 0 ≤ second) (smaller' : second < divisor)
    (same : quotient * divisor + first = quotient' * divisor + second) : first = second := by
  have positive : 0 < divisor := nonneg.trans_lt smaller
  -- A quotient that is greater by one makes the sum greater by the divisor, which no rest makes up for.
  have apart {one other : Nat} (less : one < other) : (one + 1 : ℚ) * divisor ≤ other * divisor :=
    mul_le_mul_of_nonneg_right (by exact_mod_cast less) positive.le
  obtain less | rfl | less := lt_trichotomy quotient quotient'
  · linarith [apart less]
  · linarith
  · linarith [apart less]

/-- Signs are kept apart from mantissas. -/
theorem magnitude_nonneg (mantissa : Nat) (exponent : Int) : 0 ≤ magnitude mantissa exponent := by
  unfold magnitude
  positivity

/-- Nothing is less than zero. -/
theorem not_magnitude_lt_zero : ¬ magnitude mantissa exponent < magnitude 0 exponent' := by
  rw [not_lt, magnitude, Nat.cast_zero, zero_mul]
  exact magnitude_nonneg mantissa exponent

/-- The mantissas of doubles are canonical. -/
theorem isCanonical_of_meaning {value : Float} {negative : Bool}
    (found : meaning value = .finite negative mantissa exponent) : IsCanonical mantissa exponent :=
  isCanonical_of_content ((content_eq value).trans found)

/-- A double is determined by what it stands for. -/
theorem meaning_injective : Function.Injective meaning := fun left right equal =>
  content_injective ((content_eq left).trans (equal.trans (content_eq right).symm))

/-- Two doubles have no more than one remainder. -/
theorem IsRemainder.unique {dividend divisor : Content} {first second : Float}
    (one : IsRemainder dividend divisor (meaning first))
    (other : IsRemainder dividend divisor (meaning second)) :
    first = second := by
  apply meaning_injective
  generalize isFirst : meaning first = result at one
  generalize isSecond : meaning second = result' at other
  cases one with
  | left quotient division smaller =>
      cases other with
      | left quotient' division' smaller' =>
          have same := eq_of_division (magnitude_nonneg _ _) smaller (magnitude_nonneg _ _) smaller'
            (division.symm.trans division')
          obtain ⟨rfl, rfl⟩ :=
            (isCanonical_of_meaning isFirst).unique (isCanonical_of_meaning isSecond) same
          rfl
      | byZero => exact absurd smaller not_magnitude_lt_zero
  | whole =>
      cases other
      rfl
  | byZero =>
      cases other with
      | left _ _ smaller => exact absurd smaller not_magnitude_lt_zero
      | byZero => rfl
  | ofInfinite | ofUndefined | byUndefined =>
      cases other <;> rfl

end Unique

/-! ## The remainder that is computed -/

section Computed

variable {mantissa : Nat} {exponent : Int}

/-- A bit pattern whose exponent has a zero in it is kept by the double. -/
theorem toBits_ofBits {bits : UInt64} (finite : bits.toNat / fractionCount % exponentCount ≠ exponentCount - 1) :
    (Float.ofBits bits).toBits = bits := by
  have mixed : @UnpackedFloat.unpackExponent Format.binary64 bits.toBitVec ≠ -1#11 := by
    intro ones
    have full := toNat_unpackExponent bits.toBitVec
    rw [ones] at full
    exact finite full.symm
  apply UInt64.toBitVec_inj.mp
  exact UnpackedFloat.pack_unpack_of_valid ⟨fun ones => absurd ones mixed⟩

/-- The content that is packed into a sign bit, exponent bits and the bits of a fraction. -/
theorem content_ofBits (negative : Bool) {biased fraction : Nat} (finite : biased < exponentCount - 1)
    (small : fraction < fractionCount) :
    content (Float.ofBits (UInt64.ofNat
      ((if negative then Word.signedLimit else 0) + biased * fractionCount + fraction))) =
      if biased = 0 then .finite negative fraction (-1074)
      else .finite negative (fractionCount + fraction) ((biased : Int) - 1075) := by
  generalize isBits : (if negative then Word.signedLimit else 0) + biased * fractionCount + fraction = bits
  simp only [exponentCount, fractionCount] at finite small isBits
  have fits : bits < 18446744073709551616 ∧ bits / fractionCount % exponentCount = biased ∧
      bits % fractionCount = fraction ∧ decide (Word.signedLimit ≤ bits) = negative := by
    simp only [fractionCount, exponentCount, Word.signedLimit] at isBits ⊢
    cases negative with
    | false =>
        simp only [Bool.false_eq_true, if_false] at isBits
        exact ⟨by omega, by omega, by omega, decide_eq_false (by omega)⟩
    | true =>
        simp only [if_true] at isBits
        exact ⟨by omega, by omega, by omega, decide_eq_true (by omega)⟩
  obtain ⟨inWord, isBiased, isFraction, isNegative⟩ := fits
  have isWord : (UInt64.ofNat bits).toNat = bits := by
    rw [UInt64.toNat_ofNat', Nat.mod_eq_of_lt inWord]
  have kept : (Float.ofBits (UInt64.ofNat bits)).toBits = UInt64.ofNat bits := by
    refine toBits_ofBits ?_
    rw [isWord, isBiased]
    exact finite.ne
  simp only [content, kept, isWord, isBiased, isFraction, isNegative]
  exact if_neg finite.ne

/-- A mantissa is moved up until it has all its bits, or until the exponent is the least one. -/
theorem shifted_bounds (narrow : mantissa < 2 * fractionCount) {shift : Nat}
    (isShift : shift = min (52 - mantissa.log2) (exponent + 1074).toNat) :
    mantissa * 2 ^ shift < 2 * fractionCount ∧
      (mantissa * 2 ^ shift < fractionCount → mantissa = 0 ∨ exponent + 1074 ≤ shift) := by
  have few : mantissa.log2 ≤ 52 := by
    rcases Nat.eq_zero_or_pos mantissa with rfl | positive
    · decide
    · exact Nat.lt_succ_iff.mp ((Nat.log2_lt positive.ne').mpr narrow)
  constructor
  · calc mantissa * 2 ^ shift < 2 ^ (mantissa.log2 + 1) * 2 ^ shift :=
          Nat.mul_lt_mul_of_pos_right Nat.lt_log2_self (Nat.two_pow_pos shift)
      _ = 2 ^ (mantissa.log2 + 1 + shift) := (pow_add _ _ _).symm
      _ ≤ 2 ^ 53 := Nat.pow_le_pow_right (by decide) (by omega)
  · intro less
    rcases Nat.eq_zero_or_pos mantissa with zero | positive
    · exact .inl zero
    refine .inr (not_lt.mp fun room => absurd less (not_lt.mpr ?_))
    obtain rfl : shift = 52 - mantissa.log2 := by omega
    calc 2 ^ 52 = 2 ^ mantissa.log2 * 2 ^ (52 - mantissa.log2) := by
          rw [← pow_add, Nat.add_sub_cancel' few]
      _ ≤ mantissa * 2 ^ (52 - mantissa.log2) :=
          Nat.mul_le_mul_right _ (Nat.log2_self_le positive.ne')

/-- What is packed from a mantissa without superfluous bits and an exponent in range is their number. -/
theorem content_ofParts (negative : Bool) (narrow : mantissa < 2 * fractionCount) (lowest : -1074 ≤ exponent)
    (highest : exponent ≤ 971) : ∃ packed power,
      content (ofParts negative mantissa exponent) = .finite negative packed power ∧
        magnitude packed power = magnitude mantissa exponent := by
  obtain ⟨shift, isShift⟩ : ∃ shift, shift = min (52 - mantissa.log2) (exponent + 1074).toNat := ⟨_, rfl⟩
  obtain ⟨scaled, isScaled⟩ : ∃ scaled, scaled = mantissa * 2 ^ shift := ⟨_, rfl⟩
  have unfolded : ofParts negative mantissa exponent = Float.ofBits (UInt64.ofNat
      ((if negative then Word.signedLimit else 0) +
        (if scaled < fractionCount then 0 else (exponent - shift + 1075).toNat) * fractionCount +
          scaled % fractionCount)) := by
    rw [isScaled, isShift]
    rfl
  have preserved : magnitude scaled (exponent - shift) = magnitude mantissa exponent := by
    rw [isScaled, magnitude_shift, sub_add_cancel]
  obtain ⟨bounded, least⟩ := shifted_bounds narrow isShift
  rw [← isScaled] at bounded least
  have fraction := Nat.mod_lt scaled (by decide : 0 < fractionCount)
  rw [unfolded]
  by_cases less : scaled < fractionCount
  · rw [if_pos less, content_ofBits negative (by decide) fraction, if_pos rfl, Nat.mod_eq_of_lt less]
    refine ⟨_, _, rfl, ?_⟩
    rcases least less with rfl | reached
    · rw [isScaled, Nat.zero_mul]
      simp [magnitude]
    · rwa [show exponent - shift = -1074 by omega] at preserved
  · have inRange : (exponent - shift + 1075).toNat < exponentCount - 1 := by
      simp only [exponentCount]
      omega
    rw [if_neg less, content_ofBits negative inRange fraction, if_neg (by omega)]
    have whole : fractionCount + scaled % fractionCount = scaled := by
      rw [Nat.mod_eq_sub_mod (not_lt.mp less), Nat.mod_eq_of_lt (by omega)]
      omega
    have power : ((exponent - shift + 1075).toNat : Int) - 1075 = exponent - shift := by omega
    exact ⟨_, _, rfl, by rwa [whole, power]⟩

/-- On a common exponent the remainder of two numbers is that of their mantissas. -/
theorem isRemainder_ofParts (negative negative' : Bool) {mantissa' : Nat} {exponent' : Int}
    (canonical : IsCanonical mantissa exponent) (canonical' : IsCanonical mantissa' exponent')
    (nonzero : mantissa' ≠ 0) :
    IsRemainder (.finite negative mantissa exponent) (.finite negative' mantissa' exponent')
      (content (ofParts negative
        (mantissa * Nat.pow 2 (exponent - min exponent exponent').toNat %
          (mantissa' * Nat.pow 2 (exponent' - min exponent exponent').toNat))
        (min exponent exponent'))) := by
  obtain ⟨common, isCommon⟩ : ∃ common, common = min exponent exponent' := ⟨_, rfl⟩
  obtain ⟨dividend, isDividend⟩ : ∃ number, number = mantissa * 2 ^ (exponent - common).toNat := ⟨_, rfl⟩
  obtain ⟨divisor, isDivisor⟩ : ∃ number, number = mantissa' * 2 ^ (exponent' - common).toNat := ⟨_, rfl⟩
  simp only [← isCommon, Nat.pow_eq, ← isDividend, ← isDivisor]
  have ofDividend : magnitude dividend common = magnitude mantissa exponent := by
    rw [isDividend, magnitude_of_le (isCommon ▸ min_le_left _ _)]
  have ofDivisor : magnitude divisor common = magnitude mantissa' exponent' := by
    rw [isDivisor, magnitude_of_le (isCommon ▸ min_le_right _ _)]
  have positive : 0 < divisor := by
    rw [isDivisor]
    exact Nat.mul_pos (Nat.pos_of_ne_zero nonzero) (Nat.two_pow_pos _)
  -- One of the two has not been shifted, and the rest exceeds neither.
  have narrow : dividend % divisor < 2 * fractionCount := by
    rcases min_choice exponent exponent' with isLeast | isLeast
    · have same : dividend = mantissa := by
        rw [isDividend, isCommon, isLeast, sub_self, Int.toNat_zero, pow_zero, Nat.mul_one]
      exact (Nat.mod_le _ _).trans_lt (same ▸ canonical.narrow)
    · have same : divisor = mantissa' := by
        rw [isDivisor, isCommon, isLeast, sub_self, Int.toNat_zero, pow_zero, Nat.mul_one]
      exact (Nat.mod_lt _ positive).trans (same ▸ canonical'.narrow)
  obtain ⟨packed, power, isPacked, same⟩ := content_ofParts negative narrow
    (isCommon ▸ le_min canonical.lowest canonical'.lowest)
    (isCommon ▸ (min_le_left _ _).trans canonical.highest)
  rw [isPacked]
  refine .left (dividend / divisor) ?_ ?_
  · rw [same, ← ofDividend, ← ofDivisor]
    have divided : (dividend : ℚ) = (dividend / divisor : Nat) * divisor + (dividend % divisor : Nat) := by
      exact_mod_cast (Nat.div_add_mod' dividend divisor).symm
    simp only [magnitude]
    rw [divided]
    ring
  · rw [same, ← ofDivisor, magnitude_lt_iff]
    exact Nat.mod_lt _ positive

/-- What is computed as the remainder of two doubles is their remainder. -/
theorem isRemainder_remainder (dividend divisor : Float) :
    IsRemainder (meaning dividend) (meaning divisor) (meaning (remainder dividend divisor)) := by
  have undefined : meaning (0.0 / 0.0) = .notANumber := by
    rw [meaning, ← content_eq]
    decide +kernel
  have isDividend : content dividend = meaning dividend := content_eq dividend
  have isDivisor : content divisor = meaning divisor := content_eq divisor
  unfold remainder
  split
  · next negative mantissa exponent negative' mantissa' exponent' first second =>
      rw [← isDividend, ← isDivisor, first, second]
      split
      · next zero =>
          subst zero
          rw [undefined]
          exact .byZero
      · next nonzero =>
          rw [meaning, ← content_eq]
          exact isRemainder_ofParts negative negative' (isCanonical_of_content first)
            (isCanonical_of_content second) nonzero
  · next first second =>
      rw [← isDividend, ← isDivisor, first, second]
      exact .whole
  · next none notWhole =>
      rw [undefined]
      cases first : meaning dividend with
      | infinite => exact .ofInfinite
      | notANumber => exact .ofUndefined
      | finite negative mantissa exponent =>
          cases second : meaning divisor with
          | infinite => exact absurd (isDivisor.trans second) (notWhole _ _ _ _ (isDividend.trans first))
          | notANumber => exact .byUndefined
          | finite => exact absurd (isDivisor.trans second) (none _ _ _ _ _ _ (isDividend.trans first))

end Computed

/-- Two doubles have a remainder. -/
theorem exists_isRemainder (dividend divisor : Float) :
    ∃ result, IsRemainder (meaning dividend) (meaning divisor) (meaning result) :=
  ⟨remainder dividend divisor, isRemainder_remainder dividend divisor⟩

/-- The remainder of two doubles. -/
noncomputable def exactRemainder (dividend divisor : Float) : Float :=
  (exists_isRemainder dividend divisor).choose

/-- The remainder is what is computed. -/
theorem remainder_eq (dividend divisor : Float) : remainder dividend divisor = exactRemainder dividend divisor :=
  (isRemainder_remainder dividend divisor).unique (exists_isRemainder dividend divisor).choose_spec

end Orchestration.Binary64
