import Orchestration.Proofs.Values

/-!
# Being the same

Doubles compare as the numbers that they hold: what becomes of a comparison when its sides change places,
that equality is transitive, and that a double is equal to itself exactly if it is a number. What a stored
number is read or rounded to is one. Two values are the same if they are built alike from parts that are
equal, so what holds of being the same is proved of a value from its parts.
-/

namespace Orchestration

/-! ## Doubles -/

namespace Binary64

open Float.Model (UnpackedFloat Format)
open Float.Model.UnpackedFloat (Sign)

section Order

/-- How two doubles compare. What is no number compares with nothing. -/
def order? (left right : Float) : Option Ordering :=
  left.toModel.unpack.compare right.toModel.unpack

/-- Doubles are equal when they compare as equal. -/
theorem beq_eq (left right : Float) : (left == right) = (order? left right == some .eq) := rfl

/-- A double is less than another one when it compares so. -/
theorem lt_iff {left right : Float} : left < right ↔ order? left right = some .lt := by
  change (decide (Float.Model.lt left.toModel right.toModel = true) = true) ↔ _
  simp [Float.Model.lt, UnpackedFloat.lt, order?]

/-- The other way round, two doubles compare the other way round. -/
theorem order?_swap (left right : Float) : order? right left = (order? left right).map Ordering.swap := by
  have exponents (first second : Int) : compare second first = (compare first second).swap :=
    Std.OrientedOrd.eq_swap
  have mantissas (first second : Nat) : compare second first = (compare first second).swap :=
    Std.OrientedOrd.eq_swap
  unfold order?
  generalize left.toModel.unpack = first
  generalize right.toModel.unpack = second
  cases first with
  | notANumber => cases second <;> rfl
  | infinity sign =>
      cases second with
      | infinity other => cases sign <;> cases other <;> rfl
      | _ => cases sign <;> rfl
  | zero sign =>
      cases second with
      | notANumber => rfl
      | zero => rfl
      | infinity other => cases other <;> rfl
      | finite other => cases other <;> rfl
  | finite sign mantissa exponent =>
      cases second with
      | notANumber => cases sign <;> rfl
      | zero => cases sign <;> rfl
      | infinity other => cases sign <;> cases other <;> rfl
      | finite other otherMantissa otherExponent =>
          cases sign <;> cases other <;>
            simp [UnpackedFloat.compare, exponents exponent otherExponent, mantissas mantissa otherMantissa,
              Ordering.swap_then]

/-- Equality of doubles is symmetric. -/
theorem beq_symm (left right : Float) : (left == right) = (right == left) := by
  rw [beq_eq, beq_eq, order?_swap left right]
  rcases order? left right with _ | _ | _ | _ <;> rfl

/-- Doubles that are equal to one are equal. -/
theorem beq_trans {left middle right : Float} (first : (left == middle) = true)
    (second : (middle == right) = true) : (left == right) = true := by
  change left.toModel.unpack.beq middle.toModel.unpack = true at first
  change middle.toModel.unpack.beq right.toModel.unpack = true at second
  change left.toModel.unpack.beq right.toModel.unpack = true
  rw [UnpackedFloat.beq_iff_ne_notANumber_and_eq] at first second ⊢
  obtain ⟨number, -, same⟩ := first
  obtain ⟨-, otherNumber, otherSame⟩ := second
  refine ⟨number, otherNumber, ?_⟩
  grind

/-- That a double is a number, perhaps an infinite one. -/
def IsNumber (value : Float) : Prop := content value ≠ .notANumber

/-- A double is equal to itself exactly if it is a number. -/
theorem beq_self_iff {value : Float} : (value == value) = true ↔ IsNumber value := by
  change value.toModel.unpack.beq value.toModel.unpack = true ↔ content value ≠ .notANumber
  rw [UnpackedFloat.beq_iff_ne_notANumber_and_eq, content_eq]
  cases value.toModel.unpack <;> simp [Content.ofUnpacked]

end Order

section Rounding

/-- Rounding gives a number. -/
theorem roundWithAccuracy_ne (sign : Sign) (mantissa : Nat) (exponent : Int)
    (accuracy : UnpackedFloat.Accuracy) :
    UnpackedFloat.roundWithAccuracy Format.binary64 sign mantissa exponent accuracy ≠ .notANumber := by
  unfold UnpackedFloat.roundWithAccuracy
  dsimp only
  split <;> exact fun equal => nomatch equal

/-- A number is packed as a number. -/
theorem isNumber_of_pack {value : Float} {number : UnpackedFloat} (packed : value.toModel = .pack number)
    (isNumber : number ≠ .notANumber) : IsNumber value := by
  rw [IsNumber, content_eq, packed]
  change Content.ofUnpacked (UnpackedFloat.unpack Format.binary64
    (UnpackedFloat.pack Format.binary64 number)) ≠ .notANumber
  have infinite (sign : Sign) : Content.ofUnpacked (UnpackedFloat.unpack Format.binary64
      (UnpackedFloat.packedInfinity Format.binary64 sign)) ≠ .notANumber := by
    cases sign <;> exact fun equal => nomatch equal
  have finite (sign : Sign) (biased : BitVec 11) (fraction : BitVec 52) (small : biased ≠ -1#11) :
      Content.ofUnpacked (UnpackedFloat.unpack Format.binary64
        (UnpackedFloat.packComponents Format.binary64 sign biased fraction)) ≠ .notANumber := by
    rw [unpack_packComponents sign biased fraction small]
    split <;> exact fun equal => nomatch equal
  cases number with
  | notANumber => exact absurd rfl isNumber
  | infinity sign => exact infinite sign
  | zero sign => exact finite sign 0 0 (by decide)
  | finite sign mantissa exponent =>
      rw [UnpackedFloat.pack]
      dsimp only
      split
      · exact infinite sign
      · rename_i inRange
        split
        · refine finite sign _ _ fun ones => ?_
          have full := congrArg BitVec.toNat ones
          rw [BitVec.toNat_ofNat] at full
          change _ % 2 ^ 11 = 2047 at full
          change ¬ 2 ^ 11 ≤ _ + 1 at inRange
          omega
        · exact finite sign _ _ (by decide)

/-- Every whole number has a nearest double. -/
theorem isNumber_ofNat (number : Nat) : IsNumber (Float.ofNat number) := by
  rcases Nat.eq_zero_or_pos number with rfl | positive
  · rw [IsNumber]
    decide
  · by_cases narrow : number < 2 ^ 53
    · obtain ⟨mantissa, exponent, found, full, equal⟩ := holds_toFloat positive narrow
      have exactly : content (Float.ofScientific number false 0) = .finite false mantissa exponent := by
        refine content_ofScientific positive (by omega) (isCanonical_of_content found) (by omega) ?_
        rw [if_neg Bool.false_ne_true, Nat.cast_zero, zpow_zero, mul_one, ← equal]
        exact isNearest_self
      exact fun none => nomatch exactly.symm.trans none
    · have packed : (Float.ofScientific number false 0).toModel =
          .pack (UnpackedFloat.ofScientific Format.binary64 number 0) := by
        unfold Float.ofScientific
        rw [dif_neg fun fast => narrow fast.1]
        simp only [Bool.false_eq_true, if_false, Float.Model.ofScientific, Int.ofNat_eq_natCast, Nat.cast_zero]
      refine isNumber_of_pack packed ?_
      unfold UnpackedFloat.ofScientific
      rw [dif_neg positive.ne', if_neg, if_neg, if_pos le_rfl, UnpackedFloat.mul]
      · exact roundWithAccuracy_ne _ _ _ _
      · change ¬ (0 < -((2 : Int) ^ 11 + (number.log2 : Int)))
        omega
      · change ¬ ((2 : Int) ^ 11 < 0)
        omega

/-- The double of a whole number is a number. -/
theorem isNumber_ofInt (number : Int) : IsNumber (Float.ofInt number) := by
  cases number with
  | ofNat magnitude => exact isNumber_ofNat magnitude
  | negSucc magnitude =>
      have isNumber := isNumber_ofNat (magnitude + 1)
      change content (-Float.ofNat (magnitude + 1)) ≠ .notANumber
      rw [content_neg]
      unfold IsNumber at isNumber
      cases found : content (Float.ofNat (magnitude + 1)) with
      | notANumber => exact absurd found isNumber
      | _ => exact fun equal => nomatch equal

end Rounding

end Binary64

/-- A stored number has a double that is a number. -/
theorem Number.IsStored.isNumber {number : Number} (stored : number.IsStored) :
    Binary64.IsNumber number.toFloat := by
  cases number with
  | integer value => exact Binary64.isNumber_ofInt value
  | double value =>
      obtain ⟨negative, mantissa, exponent, found⟩ := Binary64.isFinite_iff.mp stored
      exact fun none => nomatch found.symm.trans none

/-! ## Values -/

namespace Value

/-- What holds of a value where it holds of its parts holds of every value. -/
theorem induct {motive : Value → Prop} (null : motive .null) (boolean : ∀ value, motive (.boolean value))
    (number : ∀ held, motive (.number held)) (text : ∀ written, motive (.text written))
    (list : ∀ items, (∀ item ∈ items, motive item) → motive (.list items))
    (record : ∀ entries, (∀ entry ∈ entries, motive entry.2) → motive (.record entries))
    (value : Value) : motive value :=
  @Value.rec motive (fun items => ∀ item ∈ items, motive item)
    (fun entries => ∀ entry ∈ entries, motive entry.2) (fun entry => motive entry.2)
    null boolean number text list record
    (fun _ within => nomatch within) (fun _ _ first others => List.forall_mem_cons.mpr ⟨first, others⟩)
    (fun _ within => nomatch within) (fun _ _ first others => List.forall_mem_cons.mpr ⟨first, others⟩)
    (fun _ _ second => second) value

section Sameness

/-- That two values are the same. -/
def Same (left right : Value) : Prop := left.same right = true

/-- That two entries have one key and the same value. -/
def SameEntry (left right : String × Value) : Prop := left.1 = right.1 ∧ left.2.Same right.2

/-- A comparison that goes through two lists side by side finds out whether they agree in every place. -/
theorem forall₂_iff_of_pairwise {Item : Type} {agree : Item → Item → Prop}
    {all : List Item → List Item → Bool} (both : all [] [] = true)
    (longer : ∀ left lefts, all (left :: lefts) [] = false)
    (shorter : ∀ right rights, all [] (right :: rights) = false)
    (next : ∀ left lefts right rights, all (left :: lefts) (right :: rights) = true ↔
      agree left right ∧ all lefts rights = true) (lefts rights : List Item) :
    all lefts rights = true ↔ List.Forall₂ agree lefts rights := by
  induction lefts generalizing rights with
  | nil =>
      cases rights with
      | nil => exact iff_of_true both .nil
      | cons right rights => simp [shorter]
  | cons left lefts inductionHypothesis =>
      cases rights with
      | nil => simp [longer]
      | cons right rights => rw [next, inductionHypothesis, List.forall₂_cons]

/-- Lists have the same items when these are the same one by one. -/
theorem sameItems_iff {lefts rights : List Value} :
    sameItems lefts rights = true ↔ List.Forall₂ Same lefts rights :=
  forall₂_iff_of_pairwise rfl (fun _ _ => rfl) (fun _ _ => rfl)
    (fun _ _ _ _ => Bool.and_eq_true_iff) lefts rights

/-- Records have the same entries when these are the same one by one. -/
theorem sameEntries_iff {lefts rights : List (String × Value)} :
    sameEntries lefts rights = true ↔ List.Forall₂ SameEntry lefts rights := by
  refine forall₂_iff_of_pairwise rfl (fun _ _ => rfl) (fun _ _ => rfl) ?_ lefts rights
  intro left lefts right rights
  have entry : (left.1 == right.1 && left.2.same right.2) = true ↔ SameEntry left right := by
    rw [Bool.and_eq_true, beq_iff_eq]
    rfl
  exact Bool.and_eq_true_iff.trans (and_congr_left' entry)

/-- What the values are that a value is the same as. -/
def Matches : Value → Value → Prop
  | .null, other => other = .null
  | .boolean held, other => other = .boolean held
  | .number (.integer held), other => other = .number (.integer held)
  | .number (.double held), other => ∃ near, other = .number (.double near) ∧ (held == near) = true
  | .text written, other => other = .text written
  | .list items, other => ∃ others, other = .list others ∧ List.Forall₂ Same items others
  | .record entries, other => ∃ others, other = .record others ∧ List.Forall₂ SameEntry entries others

/-- Sameness goes by what the first value is. -/
theorem same_iff {left right : Value} : left.Same right ↔ left.Matches right := by
  -- The values of one kind are the same where their contents are; no two kinds have anything in common.
  have alike {Content : Type} {kind : Content → Value} (injective : Function.Injective kind)
      {held other : Content} : held = other ↔ kind other = kind held :=
    ⟨fun same => same ▸ rfl, fun same => (injective same).symm⟩
  cases left with
  | null =>
      cases right with
      | null => exact iff_of_true rfl rfl
      | _ => exact iff_of_false Bool.false_ne_true (by rintro ⟨⟩)
  | boolean held =>
      cases right with
      | boolean other => exact beq_iff_eq.trans (alike fun _ _ => Value.boolean.inj)
      | _ => exact iff_of_false Bool.false_ne_true (by rintro ⟨⟩)
  | text written =>
      cases right with
      | text other => exact beq_iff_eq.trans (alike fun _ _ => Value.text.inj)
      | _ => exact iff_of_false Bool.false_ne_true (by rintro ⟨⟩)
  | list items =>
      cases right with
      | list others => exact sameItems_iff.trans ⟨fun each => ⟨others, rfl, each⟩, by rintro ⟨_, ⟨⟩, each⟩; exact each⟩
      | _ => exact iff_of_false Bool.false_ne_true (by rintro ⟨_, ⟨⟩, _⟩)
  | record entries =>
      cases right with
      | record others =>
          exact sameEntries_iff.trans ⟨fun each => ⟨others, rfl, each⟩, by rintro ⟨_, ⟨⟩, each⟩; exact each⟩
      | _ => exact iff_of_false Bool.false_ne_true (by rintro ⟨_, ⟨⟩, _⟩)
  | number held =>
      cases held with
      | integer held =>
          cases right with
          | number other =>
              cases other with
              | integer other => exact beq_iff_eq.trans (alike fun _ _ same => Number.integer.inj (Value.number.inj same))
              | double => exact iff_of_false Bool.false_ne_true (by rintro ⟨⟩)
          | _ => exact iff_of_false Bool.false_ne_true (by rintro ⟨⟩)
      | double held =>
          cases right with
          | number other =>
              cases other with
              | double other => exact ⟨fun equal => ⟨other, rfl, equal⟩, by rintro ⟨_, ⟨⟩, equal⟩; exact equal⟩
              | integer => exact iff_of_false Bool.false_ne_true (by rintro ⟨_, ⟨⟩, _⟩)
          | _ => exact iff_of_false Bool.false_ne_true (by rintro ⟨_, ⟨⟩, _⟩)

end Sameness

section Equivalence

variable {Item : Type} {relates : Item → Item → Prop} {lefts middles rights : List Item}

/-- Lists whose items are related one by one are so the other way round, where their items are. -/
theorem forall₂_symm (symm : ∀ left ∈ lefts, ∀ right, relates left right → relates right left)
    (related : List.Forall₂ relates lefts rights) : List.Forall₂ relates rights lefts :=
  ((List.forall₂_and_left _ _).mpr ⟨symm, related⟩).imp (fun _ right both => both.1 right both.2) |>.flip

/-- A relation of items that is transitive for the items of a list is so for the list. -/
theorem forall₂_trans
    (trans : ∀ left ∈ lefts, ∀ middle right, relates left middle → relates middle right → relates left right)
    (first : List.Forall₂ relates lefts middles) (second : List.Forall₂ relates middles rights) :
    List.Forall₂ relates lefts rights := by
  induction first generalizing rights with
  | nil => exact second
  | cons related _ inductionHypothesis =>
      cases second with
      | cons furtherRelated others =>
          obtain ⟨transFirst, transOthers⟩ := List.forall_mem_cons.mp trans
          exact .cons (transFirst _ _ related furtherRelated) (inductionHypothesis transOthers others)

/-- Sameness is symmetric. -/
theorem Same.symm {left right : Value} (same : left.Same right) : right.Same left := by
  have found := same_iff.mp same
  rw [same_iff]
  induction left using induct generalizing right with
  | null => exact found.symm ▸ rfl
  | boolean value => exact found.symm ▸ rfl
  | number held =>
      cases held with
      | integer value => exact found.symm ▸ rfl
      | double value =>
          obtain ⟨other, rfl, equal⟩ := found
          exact ⟨value, rfl, (Binary64.beq_symm other value).trans equal⟩
  | text written => exact found.symm ▸ rfl
  | list items inductionHypothesis =>
      obtain ⟨others, rfl, each⟩ := found
      refine ⟨items, rfl, forall₂_symm (fun item within other same => ?_) each⟩
      exact same_iff.mpr (inductionHypothesis item within same (same_iff.mp same))
  | record entries inductionHypothesis =>
      obtain ⟨others, rfl, each⟩ := found
      refine ⟨entries, rfl, forall₂_symm (fun entry within other same => ⟨same.1.symm, ?_⟩) each⟩
      exact same_iff.mpr (inductionHypothesis entry within same.2 (same_iff.mp same.2))

/-- Sameness is transitive. -/
theorem Same.trans {left middle right : Value} (first : left.Same middle) (second : middle.Same right) :
    left.Same right := by
  have found := same_iff.mp first
  induction left using induct generalizing middle right with
  | null => exact found ▸ second
  | boolean value => exact found ▸ second
  | number held =>
      cases held with
      | integer value => exact found ▸ second
      | double value =>
          obtain ⟨other, rfl, equal⟩ := found
          obtain ⟨further, rfl, furtherEqual⟩ := same_iff.mp second
          exact same_iff.mpr ⟨further, rfl, Binary64.beq_trans equal furtherEqual⟩
  | text written => exact found ▸ second
  | list items inductionHypothesis =>
      obtain ⟨others, rfl, each⟩ := found
      obtain ⟨further, rfl, furtherEach⟩ := same_iff.mp second
      refine same_iff.mpr ⟨further, rfl, forall₂_trans (fun item within other third same later => ?_)
        each furtherEach⟩
      exact inductionHypothesis item within same later (same_iff.mp same)
  | record entries inductionHypothesis =>
      obtain ⟨others, rfl, each⟩ := found
      obtain ⟨further, rfl, furtherEach⟩ := same_iff.mp second
      refine same_iff.mpr ⟨further, rfl, forall₂_trans (fun entry within other third same later => ?_)
        each furtherEach⟩
      exact ⟨same.1.trans later.1, inductionHypothesis entry within same.2 later.2 (same_iff.mp same.2)⟩

/-- A stored value is the same as itself. -/
theorem IsStored.same_self {value : Value} (stored : value.IsStored) : value.Same value := by
  rw [same_iff]
  induction stored with
  | null => rfl
  | boolean value => rfl
  | @number held stored =>
      cases held with
      | integer value => rfl
      | double value => exact ⟨value, rfl, Binary64.beq_self_iff.mpr stored.isNumber⟩
  | text written => rfl
  | list _ inductionHypothesis =>
      exact ⟨_, rfl, List.forall₂_same.mpr fun item within => same_iff.mpr (inductionHypothesis item within)⟩
  | record _ _ inductionHypothesis =>
      exact ⟨_, rfl, List.forall₂_same.mpr fun entry within =>
        ⟨rfl, same_iff.mpr (inductionHypothesis entry within)⟩⟩

end Equivalence

end Value
end Orchestration
