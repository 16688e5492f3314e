import Orchestration.Proofs.Decimals

/-!
# Shortest decimals

A decimal reads back to a double exactly when it lies nearest to it. The decimals of seventeen digits lie
closer together than the doubles, so one of the two next to a double reads back and the search for the
shortest decimal always finds one.
-/

namespace Orchestration.Binary64

/-- The number that a decimal stands for. -/
def Decimal.value (decimal : Decimal) : ℚ :=
  decimal.digits * 10 ^ decimal.scale

/-! ## Reading back -/

section ReadsBack

variable {mantissa : Nat} {exponent : Int} {decimal : Decimal}

/-- Whole numbers are ordered like the numbers that they are common multiples of. -/
theorem le_iff_of_scaled {left right : Nat} {first second common : ℚ} (positive : 0 < common)
    (leftEq : (left : ℚ) = first * common) (rightEq : (right : ℚ) = second * common) :
    left ≤ right ↔ first ≤ second := by
  rw [← Nat.cast_le (α := ℚ), leftEq, rightEq, mul_le_mul_iff_left₀ positive]

/-- Whole numbers are strictly ordered like the numbers that they are common multiples of. -/
theorem lt_iff_of_scaled {left right : Nat} {first second common : ℚ} (positive : 0 < common)
    (leftEq : (left : ℚ) = first * common) (rightEq : (right : ℚ) = second * common) :
    left < right ↔ first < second := by
  rw [← Nat.cast_lt (α := ℚ), leftEq, rightEq, mul_lt_mul_iff_left₀ positive]

/-- The comparisons of whole numbers are those of the midpoints to the neighbouring doubles. -/
theorem readsBack_iff (positive : 0 < mantissa) :
    readsBack mantissa exponent decimal = true ↔ IsNearest decimal.value mantissa exponent := by
  let twos := (2 - exponent).toNat
  let tens := (-decimal.scale).toNat
  let below : Nat := if mantissa = fractionCount ∧ -1074 < exponent then 1 else 2
  let unit := Nat.pow 2 (exponent - 2 + twos).toNat * Nat.pow 10 tens
  let common : ℚ := 2 ^ twos * 10 ^ tens
  have commonPositive : 0 < common := by positivity
  have gap : halfGapBelow mantissa exponent = (below : ℚ) / 4 := by
    simp only [halfGapBelow, below]
    split <;> norm_num
  have atMost : below ≤ 4 * mantissa := by
    simp only [below]
    split <;> omega
  have unitCast : (unit : ℚ) = 2 ^ exponent / 4 * common := by
    simp only [unit, common, Nat.pow_eq]
    push_cast
    rw [← zpow_natCast, Int.toNat_of_nonneg (by omega), zpow_add₀ two_ne_zero, zpow_sub₀ two_ne_zero,
      zpow_natCast]
    norm_num
    ring
  have low : (((4 * mantissa - below) * unit : Nat) : ℚ) =
      ((mantissa : ℚ) - halfGapBelow mantissa exponent) * 2 ^ exponent * common := by
    rw [Nat.cast_mul, Nat.cast_sub atMost, unitCast, gap]
    push_cast
    ring
  have high : (((4 * mantissa + 2) * unit : Nat) : ℚ) =
      ((mantissa : ℚ) + 1 / 2) * 2 ^ exponent * common := by
    rw [Nat.cast_mul, unitCast]
    push_cast
    ring
  have point : ((decimal.digits * Nat.pow 10 (decimal.scale + tens).toNat * Nat.pow 2 twos : Nat) : ℚ) =
      decimal.value * common := by
    simp only [Decimal.value, common, Nat.pow_eq]
    push_cast
    rw [← zpow_natCast 10 (decimal.scale + tens).toNat, Int.toNat_of_nonneg (by omega),
      zpow_add₀ (by norm_num), zpow_natCast]
    ring
  have compared : readsBack mantissa exponent decimal =
      if mantissa % 2 = 0 then
        decide (((mantissa : ℚ) - halfGapBelow mantissa exponent) * 2 ^ exponent ≤ decimal.value) &&
          decide (decimal.value ≤ ((mantissa : ℚ) + 1 / 2) * 2 ^ exponent)
      else
        decide (((mantissa : ℚ) - halfGapBelow mantissa exponent) * 2 ^ exponent < decimal.value) &&
          decide (decimal.value < ((mantissa : ℚ) + 1 / 2) * 2 ^ exponent) := by
    simp only [← le_iff_of_scaled commonPositive low point, ← le_iff_of_scaled commonPositive point high,
      ← lt_iff_of_scaled commonPositive low point, ← lt_iff_of_scaled commonPositive point high]
    rfl
  rw [compared]
  split
  · next even =>
      rw [Bool.and_eq_true, decide_eq_true_iff, decide_eq_true_iff]
      exact ⟨fun within => ⟨within.1, within.2, fun odd => by omega⟩,
        fun isNearest => ⟨isNearest.low, isNearest.high⟩⟩
  · next odd =>
      rw [Bool.and_eq_true, decide_eq_true_iff, decide_eq_true_iff]
      exact ⟨fun within => ⟨within.1.le, within.2.le, fun _ => within⟩,
        fun isNearest => isNearest.tie (by omega)⟩

end ReadsBack

/-! ## Grids -/

section Grid

variable {tie : Tie} {mantissa : Nat} {exponent scale : Int} {decimal : Decimal}

/-- How many points of a grid lie from zero up to a double, not counting zero. -/
def gridIndex (mantissa : Nat) (exponent scale : Int) : Nat :=
  mantissa * Nat.pow 2 exponent.toNat * Nat.pow 10 (-scale).toNat /
    (Nat.pow 2 (-exponent).toNat * Nat.pow 10 scale.toNat)

/-- The points of a grid on both sides of a double. -/
theorem gridIndex_bounds (mantissa : Nat) (exponent scale : Int) :
    (gridIndex mantissa exponent scale : ℚ) * 10 ^ scale ≤ mantissa * 2 ^ exponent ∧
    (mantissa : ℚ) * 2 ^ exponent < (gridIndex mantissa exponent scale + 1) * 10 ^ scale := by
  let numerator := mantissa * Nat.pow 2 exponent.toNat * Nat.pow 10 (-scale).toNat
  let denominator := Nat.pow 2 (-exponent).toNat * Nat.pow 10 scale.toNat
  let common : ℚ := 2 ^ (-exponent).toNat * 10 ^ (-scale).toNat
  have commonPositive : 0 < common := by positivity
  have denominatorPositive : 0 < denominator :=
    Nat.mul_pos (Nat.pow_pos (by norm_num)) (Nat.pow_pos (by norm_num))
  have numeratorEq : (numerator : ℚ) = mantissa * 2 ^ exponent * common := by
    simp only [numerator, common, Nat.pow_eq, zpow_eq_div two_ne_zero]
    push_cast
    field_simp
  have denominatorEq : (denominator : ℚ) = 10 ^ scale * common := by
    simp only [denominator, common, Nat.pow_eq, zpow_eq_div (by norm_num : (10 : ℚ) ≠ 0)]
    push_cast
    field_simp
  have lower : ((numerator / denominator * denominator : Nat) : ℚ) ≤ numerator :=
    Nat.cast_le.mpr (Nat.div_mul_le_self _ _)
  have upper : (numerator : ℚ) < (((numerator / denominator + 1) * denominator : Nat) : ℚ) :=
    Nat.cast_lt.mpr (Nat.lt_mul_of_div_lt (Nat.lt_succ_self _) denominatorPositive)
  push_cast [denominatorEq, numeratorEq] at lower upper
  rw [← mul_assoc _ ((10 : ℚ) ^ scale) common] at lower upper
  exact ⟨le_of_mul_le_mul_right lower commonPositive, lt_of_mul_lt_mul_right upper commonPositive.le⟩

/-- A point that is chosen on a grid reads back and is next to the double. -/
theorem gridPoint?_spec (chosen : gridPoint? tie mantissa exponent scale = some decimal) :
    readsBack mantissa exponent decimal = true ∧ decimal.scale = scale ∧
      (decimal.digits = gridIndex mantissa exponent scale ∨
        decimal.digits = gridIndex mantissa exponent scale + 1) := by
  unfold gridPoint? at chosen
  dsimp only at chosen
  split at chosen
  · cases chosen
  · next lower _ =>
      cases chosen
      exact ⟨lower, rfl, .inl rfl⟩
  · next _ upper =>
      cases chosen
      exact ⟨upper, rfl, .inr rfl⟩
  · next lower upper =>
      have either : decimal = ⟨gridIndex mantissa exponent scale, scale⟩ ∨
          decimal = ⟨gridIndex mantissa exponent scale + 1, scale⟩ := by
        split at chosen
        · exact .inl (Option.some.inj chosen).symm
        · split at chosen
          · exact .inr (Option.some.inj chosen).symm
          · cases tie with
            | even =>
                dsimp only at chosen
                split at chosen
                · exact .inl (Option.some.inj chosen).symm
                · exact .inr (Option.some.inj chosen).symm
            | up => exact .inr (Option.some.inj chosen).symm
      rcases either with rfl | rfl
      · exact ⟨lower, rfl, .inl rfl⟩
      · exact ⟨upper, rfl, .inr rfl⟩

/-- There is a point of the grid to print when one next to the double is read back as it. -/
theorem gridPoint?_ne_none (tie : Tie)
    (readBack : readsBack mantissa exponent ⟨gridIndex mantissa exponent scale, scale⟩ = true ∨
      readsBack mantissa exponent ⟨gridIndex mantissa exponent scale + 1, scale⟩ = true) :
    gridPoint? tie mantissa exponent scale ≠ none := by
  intro absent
  unfold gridPoint? at absent
  dsimp only at absent
  split at absent
  · next lower upper =>
      rcases readBack with back | back
      · exact Bool.false_ne_true (lower.symm.trans back)
      · exact Bool.false_ne_true (upper.symm.trans back)
  · cases absent
  · cases absent
  · split at absent
    · cases absent
    · split at absent
      · cases absent
      · cases tie <;> cases absent

/-- On a grid that is fine enough a point next to the double reads back. -/
theorem readsBack_of_fine (positive : 0 < mantissa) (canonical : IsCanonical mantissa exponent)
    (fine : (10 : ℚ) ^ scale * 10 ^ 16 ≤ mantissa * 2 ^ exponent) :
    readsBack mantissa exponent ⟨gridIndex mantissa exponent scale, scale⟩ = true ∨
      readsBack mantissa exponent ⟨gridIndex mantissa exponent scale + 1, scale⟩ = true := by
  obtain ⟨lower, upper⟩ := gridIndex_bounds mantissa exponent scale
  have unit : (0 : ℚ) < 2 ^ exponent := by positivity
  have gapPositive : 0 < halfGapBelow mantissa exponent := by
    rcases halfGapBelow_cases mantissa exponent with eq | ⟨_, _, eq⟩ <;> rw [eq] <;> norm_num
  have narrow : (mantissa : ℚ) * 2 ^ exponent ≤ 2 ^ 53 * 2 ^ exponent :=
    mul_le_mul_of_nonneg_right (by exact_mod_cast canonical.narrow.le) unit.le
  rw [readsBack_iff positive, readsBack_iff positive]
  simp only [Decimal.value]
  push_cast
  generalize (gridIndex mantissa exponent scale : ℚ) = index at lower upper ⊢
  generalize (10 : ℚ) ^ scale = step at fine lower upper ⊢
  by_cases near : (index + 1) * step < (mantissa + 1 / 2) * 2 ^ exponent
  · right
    have low : ((mantissa : ℚ) - halfGapBelow mantissa exponent) * 2 ^ exponent < (index + 1) * step := by
      nlinarith
    exact ⟨low.le, near.le, fun _ => ⟨low, near⟩⟩
  · -- The point above is no nearer than the midpoint, so the one below is within half a unit.
    left
    have half : halfGapBelow mantissa exponent = 1 / 2 := by
      rcases halfGapBelow_cases mantissa exponent with eq | ⟨power, _, _⟩
      · exact eq
      · have cast : (mantissa : ℚ) = 2 ^ 52 := by rw [power]; norm_num [fractionCount]
        rw [cast] at fine near lower
        exact absurd (by linarith) near
    have low : ((mantissa : ℚ) - halfGapBelow mantissa exponent) * 2 ^ exponent < index * step := by
      rw [half]
      linarith
    have high : index * step < ((mantissa : ℚ) + 1 / 2) * 2 ^ exponent := by linarith
    exact ⟨low.le, high.le, fun _ => ⟨low, high⟩⟩

end Grid

/-! ## The search -/

section Search

variable {tie : Tie} {mantissa numerator denominator : Nat} {exponent : Int} {decimal : Decimal}

/-- The decimal exponent is the power of ten that a fraction lies above. -/
theorem pow_decimalExponent_le (positive : 0 < numerator) (divisor : 0 < denominator) :
    (10 : ℚ) ^ decimalExponent numerator denominator ≤ numerator / denominator := by
  have denominatorCast : (0 : ℚ) < denominator := Nat.cast_pos.mpr divisor
  rw [le_div_iff₀ denominatorCast]
  unfold decimalExponent
  split
  · next whole =>
      have quotient : 0 < numerator / denominator := Nat.div_pos whole divisor
      have count := digitCount_pos (numerator / denominator)
      have power := pow_digitCount_le quotient
      have bounded : 10 ^ (digitCount (numerator / denominator) - 1) * denominator ≤ numerator :=
        (Nat.mul_le_mul_right _ power).trans (Nat.div_mul_le_self _ _)
      rw [show (digitCount (numerator / denominator) : Int) - 1 =
        ((digitCount (numerator / denominator) - 1 : Nat) : Int) by omega, zpow_natCast]
      exact_mod_cast bounded
  · have power := lt_pow_digitCount ((denominator - 1) / numerator)
    have bounded : denominator ≤ 10 ^ digitCount ((denominator - 1) / numerator) * numerator := by
      have less := (Nat.div_lt_iff_lt_mul positive).mp power
      omega
    have cast : (denominator : ℚ) ≤ 10 ^ digitCount ((denominator - 1) / numerator) * numerator := by
      exact_mod_cast bounded
    rw [zpow_neg, zpow_natCast, inv_mul_le_iff₀ (by positivity)]
    exact cast

/-- Zeros that are taken off the end do not count. -/
theorem strip_value (bound : Nat) (decimal : Decimal) :
    (decimal.strip bound).value = decimal.value := by
  induction bound generalizing decimal with
  | zero => rfl
  | succ bound inductionHypothesis =>
      rw [Decimal.strip]
      split
      · next zeros =>
          have digits : (decimal.digits : ℚ) = (decimal.digits / 10 : Nat) * 10 := by
            exact_mod_cast (Nat.div_mul_cancel (Nat.dvd_of_mod_eq_zero zeros.2)).symm
          rw [inductionHypothesis, Decimal.value, Decimal.value, digits, zpow_add₀ (by norm_num)]
          ring
      · rfl

/-- A number is less than the power of ten above its decimal exponent. -/
theorem lt_pow_decimalExponent (positive : 0 < numerator) (divisor : 0 < denominator) :
    (numerator : ℚ) / denominator < 10 ^ (decimalExponent numerator denominator + 1) := by
  have denominatorCast : (0 : ℚ) < denominator := Nat.cast_pos.mpr divisor
  rw [div_lt_iff₀ denominatorCast]
  unfold decimalExponent
  split
  · have power := lt_pow_digitCount (numerator / denominator)
    have bounded : numerator < 10 ^ digitCount (numerator / denominator) * denominator :=
      (Nat.div_lt_iff_lt_mul divisor).mp power
    rw [sub_add_cancel, zpow_natCast]
    exact_mod_cast bounded
  · next less =>
      have quotient : 0 < (denominator - 1) / numerator := Nat.div_pos (by omega) positive
      have count := digitCount_pos ((denominator - 1) / numerator)
      have power := pow_digitCount_le quotient
      have bounded : 10 ^ (digitCount ((denominator - 1) / numerator) - 1) * numerator < denominator := by
        have most := (Nat.mul_le_mul_right numerator power).trans (Nat.div_mul_le_self _ _)
        omega
      have cast : (10 : ℚ) ^ (digitCount ((denominator - 1) / numerator) - 1) * numerator < denominator := by
        exact_mod_cast bounded
      rw [show -(digitCount ((denominator - 1) / numerator) : Int) + 1 =
        -((digitCount ((denominator - 1) / numerator) - 1 : Nat) : Int) by omega, zpow_neg, zpow_natCast,
        lt_inv_mul_iff₀ (by positivity)]
      exact cast

/-- The power of ten that the search begins at. -/
def startingExponent (mantissa : Nat) (exponent : Int) : Int :=
  decimalExponent (mantissa * Nat.pow 2 exponent.toNat) (Nat.pow 2 (-exponent).toNat)

/-- The search begins at the largest power of ten that is not above the double. -/
theorem startingExponent_bounds (positive : 0 < mantissa) (exponent : Int) :
    (10 : ℚ) ^ startingExponent mantissa exponent ≤ mantissa * 2 ^ exponent ∧
      (mantissa : ℚ) * 2 ^ exponent < 10 ^ (startingExponent mantissa exponent + 1) := by
  have divisor : 0 < Nat.pow 2 (-exponent).toNat := Nat.pow_pos (by norm_num)
  have numerator : 0 < mantissa * Nat.pow 2 exponent.toNat := Nat.mul_pos positive (Nat.pow_pos (by norm_num))
  have fraction : (mantissa : ℚ) * 2 ^ exponent =
      ((mantissa * Nat.pow 2 exponent.toNat : Nat) : ℚ) / (Nat.pow 2 (-exponent).toNat : Nat) := by
    simp only [Nat.pow_eq, zpow_eq_div two_ne_zero exponent]
    push_cast
    ring
  rw [fraction]
  exact ⟨pow_decimalExponent_le numerator divisor, lt_pow_decimalExponent numerator divisor⟩

/-- The search ends at a point of at most seventeen digits, or the least number of more, that reads back. -/
theorem shortest_spec (tie : Tie) (positive : 0 < mantissa) (canonical : IsCanonical mantissa exponent) :
    ∃ decimal : Decimal, shortest tie mantissa exponent = decimal.strip 20 ∧
      readsBack mantissa exponent decimal = true ∧ decimal.digits ≤ 10 ^ 17 := by
  obtain ⟨least, most⟩ := startingExponent_bounds positive exponent
  let candidates := (List.range 17).filterMap fun (more : Nat) =>
    gridPoint? tie mantissa exponent (startingExponent mantissa exponent - (more : Int))
  have found : ∃ decimal others, candidates = decimal :: others := by
    refine List.exists_cons_of_ne_nil fun none => ?_
    have fine : (10 : ℚ) ^ (startingExponent mantissa exponent - ((16 : Nat) : Int)) * 10 ^ 16 ≤
        mantissa * 2 ^ exponent := by
      rw [zpow_sub₀ (by norm_num), zpow_natCast, div_mul_cancel₀ _ (by positivity)]
      exact least
    exact gridPoint?_ne_none tie (readsBack_of_fine positive canonical fine)
      (List.filterMap_eq_nil_iff.mp none 16 (by decide))
  obtain ⟨decimal, others, first⟩ := found
  refine ⟨decimal, ?_, ?_⟩
  · unfold candidates startingExponent at first
    simp only [shortest, first]
  · have member : decimal ∈ candidates := first ▸ List.mem_cons_self
    obtain ⟨more, within, chosen⟩ := List.mem_filterMap.mp member
    obtain ⟨back, scale, digits⟩ := gridPoint?_spec chosen
    refine ⟨back, ?_⟩
    have lower := (gridIndex_bounds mantissa exponent (startingExponent mantissa exponent - (more : Int))).1
    have power : (10 : ℚ) ^ (startingExponent mantissa exponent + 1) =
        10 ^ (more + 1) * 10 ^ (startingExponent mantissa exponent - (more : Int)) := by
      rw [← zpow_natCast, ← zpow_add₀ (by norm_num)]
      congr 1
      push_cast
      ring
    have bounded := lt_of_mul_lt_mul_right ((lower.trans_lt most).trans_eq power) (by positivity)
    have index : gridIndex mantissa exponent (startingExponent mantissa exponent - (more : Int)) <
        10 ^ (more + 1) := by exact_mod_cast bounded
    have few := List.mem_range.mp within
    have places : 10 ^ (more + 1) ≤ 10 ^ 17 := Nat.pow_le_pow_right (by norm_num) (by omega)
    omega

/-- The shortest decimal of a double lies nearest to it. -/
theorem isNearest_shortest (tie : Tie) (positive : 0 < mantissa) (canonical : IsCanonical mantissa exponent) :
    IsNearest (shortest tie mantissa exponent).value mantissa exponent := by
  obtain ⟨decimal, found, back, _⟩ := shortest_spec tie positive canonical
  rw [found, strip_value]
  exact (readsBack_iff positive).mp back

/-- Taking zeros off makes no digits. -/
theorem strip_digits_le (bound : Nat) (decimal : Decimal) : (decimal.strip bound).digits ≤ decimal.digits := by
  induction bound generalizing decimal with
  | zero => exact le_rfl
  | succ bound inductionHypothesis =>
      rw [Decimal.strip]
      split
      · exact (inductionHypothesis _).trans (Nat.div_le_self _ _)
      · exact le_rfl

/-- The shortest decimal of a double has at most eighteen digits. -/
theorem digitCount_shortest_le (tie : Tie) (positive : 0 < mantissa) (canonical : IsCanonical mantissa exponent) :
    digitCount (shortest tie mantissa exponent).digits ≤ 18 := by
  obtain ⟨decimal, found, _, short⟩ := shortest_spec tie positive canonical
  rw [digitCount_le_iff (by norm_num), found]
  have noMore := strip_digits_le 20 decimal
  omega

/-- What is printed of a positive double has digits other than zero. -/
theorem digits_shortest_pos (tie : Tie) (positive : 0 < mantissa) (canonical : IsCanonical mantissa exponent) :
    0 < (shortest tie mantissa exponent).digits := by
  have bounds := (isNearest_shortest tie positive canonical).bounds positive canonical
  refine Nat.pos_of_ne_zero fun zero => ?_
  rw [Decimal.value, zero, Nat.cast_zero, zero_mul] at bounds
  exact absurd bounds.1 (not_le.mpr (by positivity))

end Search

end Orchestration.Binary64
