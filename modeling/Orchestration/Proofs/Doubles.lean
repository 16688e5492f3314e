import Mathlib
import Orchestration.Binary64.Written

/-!
# The content of doubles

The content read off a bit pattern is what the double stands for in the logical model of doubles, and it
determines the double. The finite contents are canonical: the mantissa has all its bits except at the
least exponent.
-/

namespace Orchestration.Binary64

open Float.Model (Format UnpackedFloat)
open Float.Model.UnpackedFloat (Sign)

/-- The mantissas and exponents that finite doubles have. -/
structure IsCanonical (mantissa : Nat) (exponent : Int) : Prop where
  narrow : mantissa < 2 * fractionCount
  lowest : -1074 ≤ exponent
  highest : exponent ≤ 971
  normal : fractionCount ≤ mantissa ∨ exponent = -1074

def isNegative : Sign → Bool
  | .negative => true
  | .positive => false

/-- The content of a double in the logical model. -/
def Content.ofUnpacked : UnpackedFloat → Content
  | .notANumber => .notANumber
  | .infinity sign => .infinite (isNegative sign)
  | .zero sign => .finite (isNegative sign) 0 (-1074)
  | .finite sign mantissa exponent _ => .finite (isNegative sign) mantissa exponent

/-- An unpacked number is determined by its content. -/
theorem Content.ofUnpacked_injective : Function.Injective Content.ofUnpacked := by
  have signs : Function.Injective isNegative := by
    intro left right equal
    cases left <;> cases right <;> first | rfl | cases equal
  intro left right equal
  cases left <;> cases right <;>
    simp only [ofUnpacked, Content.finite.injEq, Content.infinite.injEq, reduceCtorEq] at equal
  · rw [signs equal]
  · rfl
  · rw [signs equal.1]
  · omega
  · omega
  · obtain ⟨sign, rfl, rfl⟩ := equal
    rw [signs sign]

section Bits

variable (bits : BitVec 64)

/-- The fraction is in the lowest bits. -/
theorem toNat_unpackMantissa :
    (@UnpackedFloat.unpackMantissa Format.binary64 bits).toNat = bits.toNat % fractionCount := by
  rw [UnpackedFloat.unpackMantissa_def, BitVec.extractLsb'_toNat]
  rfl

/-- The exponent is in the bits above the fraction. -/
theorem toNat_unpackExponent :
    (@UnpackedFloat.unpackExponent Format.binary64 bits).toNat =
      bits.toNat / fractionCount % exponentCount := by
  rw [UnpackedFloat.unpackExponent_def, BitVec.extractLsb'_toNat, Nat.shiftRight_eq_div_pow]
  rfl

/-- The sign is the highest bit. -/
theorem toNat_unpackSign :
    (@UnpackedFloat.unpackSign Format.binary64 bits).toNat = bits.toNat / Word.signedLimit % 2 := by
  rw [UnpackedFloat.unpackSign_def, BitVec.extractLsb'_toNat, Nat.shiftRight_eq_div_pow]
  rfl

/-- A sign bit that is set stands for a negative number. -/
theorem isNegative_ofBitVec (sign : BitVec 1) :
    isNegative (Sign.ofBitVec sign) = decide (sign.toNat = 1) := by
  revert sign
  decide

/-- The implied bit stands above the fraction. -/
theorem toNat_append_one (fraction : BitVec 52) :
    (1#1 ++ fraction).toNat = fractionCount + fraction.toNat := by
  rw [BitVec.toNat_append, ← Nat.shiftLeft_add_eq_or_of_lt fraction.isLt]
  rfl

end Bits

/-- The content read off the bit pattern is that of the logical model. -/
theorem content_eq (value : Float) : content value = .ofUnpacked value.toModel.unpack := by
  let bits : BitVec 64 := value.toBits.toBitVec
  have size : bits.toNat < 2 * Word.signedLimit := bits.isLt
  have negative : isNegative (Sign.ofBitVec (@UnpackedFloat.unpackSign Format.binary64 bits)) =
      decide (Word.signedLimit ≤ bits.toNat) := by
    rw [isNegative_ofBitVec, toNat_unpackSign, decide_eq_decide]
    simp only [Word.signedLimit] at size ⊢
    omega
  have exponent := toNat_unpackExponent bits
  have mantissa := toNat_unpackMantissa bits
  have allOnes : @UnpackedFloat.unpackExponent Format.binary64 bits = -1#11 ↔
      bits.toNat / fractionCount % exponentCount = exponentCount - 1 := by
    rw [← exponent, ← BitVec.toNat_inj]
    rfl
  have allZeros : @UnpackedFloat.unpackExponent Format.binary64 bits = 0#11 ↔
      bits.toNat / fractionCount % exponentCount = 0 := by
    rw [← exponent, ← BitVec.toNat_inj]
    rfl
  have empty : @UnpackedFloat.unpackMantissa Format.binary64 bits = 0#52 ↔
      bits.toNat % fractionCount = 0 := by
    rw [← mantissa, ← BitVec.toNat_inj]
    rfl
  change _ = Content.ofUnpacked (UnpackedFloat.unpack Format.binary64 bits)
  have left : content value =
      if bits.toNat / fractionCount % exponentCount = exponentCount - 1 then
        if bits.toNat % fractionCount = 0 then .infinite (decide (Word.signedLimit ≤ bits.toNat))
        else .notANumber
      else if bits.toNat / fractionCount % exponentCount = 0 then
        .finite (decide (Word.signedLimit ≤ bits.toNat)) (bits.toNat % fractionCount) (-1074)
      else
        .finite (decide (Word.signedLimit ≤ bits.toNat)) (fractionCount + bits.toNat % fractionCount)
          ((bits.toNat / fractionCount % exponentCount : Nat) - 1075) := rfl
  rw [left, ← negative]
  simp only [UnpackedFloat.unpack, allOnes, allZeros, empty]
  split
  · split <;> rfl
  · split
    · split
      · next zero => rw [zero]; rfl
      · next zero nonzero =>
          rw [Content.ofUnpacked, mantissa, exponent, zero]
          rfl
    · rw [Content.ofUnpacked, exponent, toNat_append_one, mantissa]
      rfl

/-- A double is determined by its content. -/
theorem content_injective : Function.Injective content := by
  intro left right equal
  rw [content_eq, content_eq] at equal
  have unpacked := Content.ofUnpacked_injective equal
  have bits := (UnpackedFloat.unpack_inj_of_valid left.toModel.valid right.toModel.valid).mp unpacked
  exact Float.toBits_inj.mp (UInt64.toBitVec_inj.mp bits)

section Finite

variable {value : Float} {negative : Bool} {mantissa : Nat} {exponent : Int}

/-- A double is finite exactly if its content is. -/
theorem isFinite_iff : isFinite value = true ↔
    ∃ negative mantissa exponent, content value = .finite negative mantissa exponent := by
  unfold isFinite
  cases content value <;> simp

/-- The mantissa of a finite double has all its bits, except at the least exponent. -/
theorem isCanonical_of_content (found : content value = .finite negative mantissa exponent) :
    IsCanonical mantissa exponent := by
  have small := Nat.mod_lt value.toBits.toNat (by decide : 0 < fractionCount)
  have bounded := Nat.mod_lt (value.toBits.toNat / fractionCount) (by decide : 0 < exponentCount)
  unfold content at found
  dsimp only at found
  generalize value.toBits.toNat % fractionCount = fraction at found small
  generalize value.toBits.toNat / fractionCount % exponentCount = biased at found bounded
  simp only [exponentCount] at bounded
  split at found
  · split at found <;> cases found
  · next finite =>
      simp only [exponentCount] at finite
      split at found
      · cases found
        exact ⟨by omega, by omega, by omega, .inr rfl⟩
      · cases found
        exact ⟨by omega, by omega, by omega, .inl (by omega)⟩

end Finite

section Packing

variable {mantissa : Nat} {exponent : Int}

/-- The content that is packed from a sign, an exponent and a fraction, unless the exponent has all bits set. -/
theorem unpack_packComponents (sign : Sign) (biased : BitVec 11) (fraction : BitVec 52)
    (finite : biased ≠ -1#11) :
    Content.ofUnpacked (UnpackedFloat.unpack Format.binary64
      (UnpackedFloat.packComponents Format.binary64 sign biased fraction)) =
    if biased = 0#11 then .finite (isNegative sign) fraction.toNat (-1074)
    else .finite (isNegative sign) (fractionCount + fraction.toNat) ((biased.toNat : Int) - 1075) := by
  have bias : (Format.exponentBias Format.binary64 : Int) = 1023 := rfl
  simp only [UnpackedFloat.unpack, UnpackedFloat.unpackExponent_packComponents,
    UnpackedFloat.unpackMantissa_packComponents, UnpackedFloat.unpackSign_packComponents,
    UnpackedFloat.Sign.ofBitVec_toBitVec, bias]
  rw [if_neg finite]
  split
  · next zero =>
      subst zero
      split
      · next empty => subst empty; rfl
      · rfl
  · rw [Content.ofUnpacked, toNat_append_one]
    rfl

/-- Packing a canonical number loses nothing. -/
theorem unpack_pack (sign : Sign) (positive : 0 < mantissa) (canonical : IsCanonical mantissa exponent) :
    (Float.Model.pack (.finite sign mantissa exponent positive)).unpack =
      .finite sign mantissa exponent positive := by
  obtain ⟨narrow, lowest, highest, normal⟩ := canonical
  simp only [fractionCount] at narrow normal
  have bias : (Format.exponentBias Format.binary64 : Int) = 1023 := rfl
  have inRange : ¬ 2 ^ 11 ≤ (exponent + 1023 + 52).toNat + 1 := by omega
  apply Content.ofUnpacked_injective
  change Content.ofUnpacked (UnpackedFloat.unpack Format.binary64
    (UnpackedFloat.pack Format.binary64 (.finite sign mantissa exponent positive))) = _
  simp only [UnpackedFloat.pack, bias, Nat.cast_ofNat, inRange, if_false]
  have full : mantissa.log2 + 1 = Format.mantissaBits Format.binary64 ↔ 2 ^ 52 ≤ mantissa := by
    have mantissaBits : Format.mantissaBits Format.binary64 = 53 := rfl
    rw [mantissaBits, Nat.succ_inj, Nat.log2_eq_iff positive.ne']
    exact ⟨And.left, fun most => ⟨most, by omega⟩⟩
  simp only [full]
  split
  · next most =>
      have biased : (BitVec.ofNat 11 (exponent + 1023 + 52).toNat).toNat = (exponent + 1075).toNat := by
        rw [BitVec.toNat_ofNat, Nat.mod_eq_of_lt (by omega)]
        omega
      have fraction : (BitVec.ofNat 52 mantissa).toNat = mantissa - 2 ^ 52 := by
        rw [BitVec.toNat_ofNat]
        omega
      rw [unpack_packComponents, if_neg, Content.ofUnpacked, biased, fraction, fractionCount,
        Content.finite.injEq]
      · exact ⟨rfl, by omega, by omega⟩
      · intro zero
        have noExponent := congrArg BitVec.toNat zero
        simp only [biased, BitVec.toNat_zero] at noExponent
        omega
      · intro ones
        have fullExponent := congrArg BitVec.toNat ones
        rw [biased] at fullExponent
        change _ = 2047 at fullExponent
        omega
  · next less =>
      have fraction : (BitVec.ofNat 52 mantissa).toNat = mantissa := by
        rw [BitVec.toNat_ofNat, Nat.mod_eq_of_lt (by omega)]
      rw [unpack_packComponents _ _ _ (by decide), if_pos rfl, Content.ofUnpacked, fraction,
        Content.finite.injEq]
      exact ⟨rfl, rfl, by omega⟩

end Packing

section Negation

/-- The content of a number with its sign turned around. -/
def Content.negated : Content → Content
  | .finite negative mantissa exponent => .finite (!negative) mantissa exponent
  | .infinite negative => .infinite (!negative)
  | .notANumber => .notANumber

/-- The opposite sign is negative where the sign is not. -/
theorem isNegative_neg (sign : Sign) : isNegative (-sign) = !isNegative sign := by
  cases sign <;> rfl

/-- Turning the sign of a double around turns the sign of its content around and nothing else. -/
theorem content_neg (value : Float) : content (-value) = (content value).negated := by
  have canonical : ∀ negative mantissa exponent,
      content value = .finite negative mantissa exponent → IsCanonical mantissa exponent :=
    fun _ _ _ => isCanonical_of_content
  rw [content_eq] at canonical ⊢
  rw [content_eq]
  change Content.ofUnpacked (Float.Model.pack (UnpackedFloat.neg value.toModel.unpack)).unpack = _
  cases unpacked : value.toModel.unpack with
  | notANumber => rfl
  | infinity sign => cases sign <;> rfl
  | zero sign => cases sign <;> rfl
  | finite sign mantissa exponent positive =>
      rw [UnpackedFloat.neg, unpack_pack _ positive (canonical _ _ _ (by rw [unpacked]; rfl))]
      simp [Content.ofUnpacked, Content.negated, isNegative_neg]

end Negation

end Orchestration.Binary64
