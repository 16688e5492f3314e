import Orchestration.Proofs.Sameness
import Orchestration.Value.Comparison

/-!
# Laws of the comparisons

Strict equality goes through a table of the kinds of values: it is being the same, apart from numbers, which
are equal if their doubles are. Loose equality goes through another table that makes numbers of some pairs,
and the order through a third one. What is strictly equal is loosely equal, every table is the same from
either side, and between the values that have an order by themselves the second and the third table agree:
loosely equal is what the order calls equal.
-/

namespace Orchestration

/-! ## Values -/

namespace Value

section Equality

variable {left middle right : Value}

/-- What strictly equals a number is a number with an equal double. -/
theorem strictlyEqual_number_iff {held : Number} : strictlyEqual (.number held) right = true ↔
    ∃ other, right = .number other ∧ (held.toFloat == other.toFloat) = true := by
  cases right with
  | number other =>
      refine ⟨fun equal => ⟨other, rfl, equal⟩, ?_⟩
      rintro ⟨_, ⟨⟩, equal⟩
      exact equal
  | _ =>
      refine iff_of_false ?_ (by rintro ⟨_, ⟨⟩, _⟩)
      cases held <;> exact Bool.false_ne_true

/-- What is no number is strictly equal to the values that are the same. -/
theorem strictlyEqual_iff_same (noNumber : ∀ held, left ≠ .number held) :
    left.strictlyEqual right = true ↔ left.Same right := by
  cases left with
  | number held => exact absurd rfl (noNumber held)
  | _ => cases right <;> rfl

/-- What is the same as no number is no number. -/
theorem Same.ne_number (same : left.Same right) (noNumber : ∀ held, left ≠ .number held) :
    ∀ held, right ≠ .number held := by
  rintro held rfl
  obtain ⟨other, rfl⟩ : ∃ other, left = .number other := by
    have found := same_iff.mp same.symm
    cases held with
    | integer value => exact ⟨_, found⟩
    | double value =>
        obtain ⟨other, rfl, -⟩ := found
        exact ⟨_, rfl⟩
  exact noNumber other rfl

/-- What is strictly equal to a value is a number as the value is, or the same. -/
theorem strictlyEqual_iff : left.strictlyEqual right = true ↔
    (∃ held other, left = .number held ∧ right = .number other ∧
      (held.toFloat == other.toFloat) = true) ∨
    (∀ held, left ≠ .number held) ∧ left.Same right := by
  by_cases number : ∃ held, left = .number held
  · obtain ⟨held, rfl⟩ := number
    simp [strictlyEqual_number_iff]
  · rw [not_exists] at number
    rw [strictlyEqual_iff_same number]
    exact ⟨fun same => .inr ⟨number, same⟩, fun either => either.elim
      (fun ⟨held, _, isNumber, _⟩ => absurd isNumber (number held)) And.right⟩

/-- Strict equality of values is symmetric. -/
theorem strictlyEqual_symm (left right : Value) : left.strictlyEqual right = right.strictlyEqual left := by
  have turned {left right : Value} (equal : left.strictlyEqual right = true) :
      right.strictlyEqual left = true := by
    rcases strictlyEqual_iff.mp equal with ⟨held, other, rfl, rfl, meet⟩ | ⟨noNumber, same⟩
    · exact strictlyEqual_number_iff.mpr ⟨held, rfl, (Binary64.beq_symm _ _).trans meet⟩
    · exact (strictlyEqual_iff_same (same.ne_number noNumber)).mpr same.symm
  exact Bool.eq_iff_iff.mpr ⟨turned, turned⟩

/-- Strict equality of values is transitive. -/
theorem strictlyEqual_trans (first : left.strictlyEqual middle = true)
    (second : middle.strictlyEqual right = true) : left.strictlyEqual right = true := by
  rcases strictlyEqual_iff.mp first with ⟨held, other, rfl, rfl, meet⟩ | ⟨noNumber, same⟩
  · obtain ⟨further, rfl, meetFurther⟩ := strictlyEqual_number_iff.mp second
    exact strictlyEqual_number_iff.mpr ⟨further, rfl, Binary64.beq_trans meet meetFurther⟩
  · rw [strictlyEqual_iff_same (same.ne_number noNumber)] at second
    exact (strictlyEqual_iff_same noNumber).mpr (same.trans second)

/-- A value that can be stored equals itself. -/
theorem IsStored.strictlyEqual_self (stored : left.IsStored) : left.strictlyEqual left = true := by
  by_cases number : ∃ held, left = .number held
  · obtain ⟨held, rfl⟩ := number
    cases stored with
    | number stored => exact Binary64.beq_self_iff.mpr stored.isNumber
  · exact (strictlyEqual_iff_same (not_exists.mp number)).mpr stored.same_self

/-- Loose equality has the same table for either order of its sides. -/
theorem looselyEqual_symm (left right : Value) : left.looselyEqual right = right.looselyEqual left := by
  have numbers := Binary64.beq_symm left.toNumber right.toNumber
  have strictly := strictlyEqual_symm left right
  cases left <;> cases right <;>
    first
      | rfl
      | exact numbers
      | exact strictly

/-- What is strictly equal is of one kind, and one kind is compared strictly. -/
theorem looselyEqual_of_strictlyEqual (equal : left.strictlyEqual right = true) :
    left.looselyEqual right = true := by
  rcases strictlyEqual_iff.mp equal with ⟨held, other, rfl, rfl, -⟩ | ⟨noNumber, same⟩
  · exact equal
  · have found := same_iff.mp same
    cases left with
    | null => exact found.symm ▸ rfl
    | number held => exact absurd rfl (noNumber held)
    | boolean held =>
        obtain rfl : right = .boolean held := found
        exact equal
    | text written =>
        obtain rfl : right = .text written := found
        exact equal
    | list items =>
        obtain ⟨others, rfl, -⟩ := found
        exact equal
    | record entries =>
        obtain ⟨others, rfl, -⟩ := found
        exact equal

end Equality

section Order

variable {left right : Value}

/-- That a value has an order by itself: it is a Boolean, a number or a text. -/
def IsScalar : Value → Prop
  | .boolean _ => True
  | .number _ => True
  | .text _ => True
  | .null => False
  | .list _ => False
  | .record _ => False

/-- Two values that are not both texts are ordered as numbers. -/
theorem order?_eq (left right : Value) : left.order? right = match left, right with
    | .text written, .text other => some (compare written other)
    | _, _ => Binary64.order? left.toNumber right.toNumber := by
  have numbers (first second : Float) :
      (if first < second then some .lt else if first == second then some .eq
        else if first > second then some .gt else none) = Binary64.order? first second := by
    simp only [gt_iff_lt, Binary64.lt_iff, Binary64.beq_eq]
    rw [Binary64.order?_swap first second]
    rcases Binary64.order? first second with _ | _ | _ | _ <;> rfl
  cases left <;> cases right <;> first | rfl | exact numbers _ _

/-- Values in the other order have the other order. -/
theorem order?_swap (left right : Value) : right.order? left = (left.order? right).map Ordering.swap := by
  rw [order?_eq, order?_eq]
  cases left <;> cases right <;>
    first
      | exact Binary64.order?_swap _ _
      | exact congrArg some Std.OrientedOrd.eq_swap

/-- Two Booleans count as one number exactly if they are the same. -/
theorem order?_boolean (held other : Bool) :
    Binary64.order? (toNumber (.boolean held)) (toNumber (.boolean other)) = some .eq ↔ held = other := by
  cases held <;> cases other <;> decide

/-- Where two values have an order by themselves, the table of loose equality and the table of the order
agree. -/
theorem looselyEqual_iff_order? (scalar : left.IsScalar) (otherScalar : right.IsScalar) :
    left.looselyEqual right = true ↔ left.order? right = some .eq := by
  rw [order?_eq]
  have numbers : (left.toNumber == right.toNumber) = true ↔
      Binary64.order? left.toNumber right.toNumber = some .eq := by
    rw [Binary64.beq_eq, beq_iff_eq]
  cases left with
  | null => exact scalar.elim
  | list items => exact scalar.elim
  | record entries => exact scalar.elim
  | boolean held =>
      cases right with
      | boolean other =>
          have equal : (held == other) = true ↔ held = other := beq_iff_eq
          exact equal.trans (order?_boolean held other).symm
      | number other => exact numbers
      | text other => exact numbers
      | _ => exact otherScalar.elim
  | number held =>
      cases right with
      | number other => exact numbers
      | boolean other => exact numbers
      | text other => exact numbers
      | _ => exact otherScalar.elim
  | text written =>
      cases right with
      | text other =>
          have equal : (written == other) = true ↔ some (compare written other) = some .eq := by simp
          exact equal
      | boolean other => exact numbers
      | number other => exact numbers
      | _ => exact otherScalar.elim

end Order
end Value

/-! ## Operands -/

namespace Operand

variable {left middle right : Operand}

/-- That an operand is undefined or a stored value. -/
def IsStored (operand : Operand) : Prop := ∀ value ∈ operand, value.IsStored

/-- That an operand is a value with an order by itself. -/
def IsScalar (operand : Operand) : Prop := ∃ value, operand = some value ∧ value.IsScalar

/-- A stored operand strictly equals itself. -/
theorem IsStored.strictlyEqual_self (stored : left.IsStored) : left.strictlyEqual left = true := by
  cases left with
  | none => rfl
  | some value => exact (stored value rfl).strictlyEqual_self

/-- Strict equality of operands is symmetric. -/
theorem strictlyEqual_symm (left right : Operand) : left.strictlyEqual right = right.strictlyEqual left := by
  cases left <;> cases right <;> first | rfl | exact Value.strictlyEqual_symm _ _

/-- Strict equality of operands is transitive. -/
theorem strictlyEqual_trans (first : left.strictlyEqual middle = true)
    (second : middle.strictlyEqual right = true) : left.strictlyEqual right = true := by
  cases left <;> cases middle <;> cases right <;>
    first
      | exact first
      | exact second
      | exact Value.strictlyEqual_trans first second
      | exact absurd first Bool.false_ne_true

/-- Loose equality holds of undefined and `null` whichever comes first. -/
theorem looselyEqual_symm (left right : Operand) : left.looselyEqual right = right.looselyEqual left := by
  cases left with
  | none => cases right with
      | none => rfl
      | some value => cases value <;> rfl
  | some value => cases right with
      | none => cases value <;> rfl
      | some other => exact Value.looselyEqual_symm value other

/-- What is strictly equal is loosely equal. -/
theorem looselyEqual_of_strictlyEqual (equal : left.strictlyEqual right = true) :
    left.looselyEqual right = true := by
  cases left <;> cases right <;>
    first
      | exact equal
      | exact Value.looselyEqual_of_strictlyEqual equal
      | exact absurd equal Bool.false_ne_true

/-- Operands in the other order have the other order. -/
theorem order?_swap (left right : Operand) :
    right.order? left = (left.order? right).map Ordering.swap := by
  cases left <;> cases right <;> first | rfl | exact Value.order?_swap _ _

/-- Operands with an order are loosely equal when neither comes first. -/
theorem looselyEqual_iff_order? (scalar : left.IsScalar) (otherScalar : right.IsScalar) :
    left.looselyEqual right = true ↔ left.order? right = some .eq := by
  obtain ⟨value, rfl, scalar⟩ := scalar
  obtain ⟨other, rfl, otherScalar⟩ := otherScalar
  exact Value.looselyEqual_iff_order? scalar otherScalar

end Operand

namespace Comparison

/-- The operands in the other order satisfy the operator that faces the other way. -/
theorem holds_swap (left right : Operand) : greater.holds left right = less.holds right left ∧
    atLeast.holds left right = atMost.holds right left := by
  rw [holds, holds, holds, holds, Operand.order?_swap left right]
  rcases left.order? right with _ | _ | _ | _ <;> exact ⟨rfl, rfl⟩

/-- No operand is less than another one and greater. -/
theorem not_less_and_greater (left right : Operand) :
    ¬ (less.holds left right = true ∧ greater.holds left right = true) := by
  rw [holds, holds]
  rcases left.order? right with _ | _ | _ | _ <;> decide

/-- The comparison operators are coherent: strict equality is an equivalence of operands, loose equality
is reflexive, symmetric and holds of whatever strict equality holds of, the order of two operands is the
same from either side, and between Booleans, numbers and texts the operators with "or equal" are made of
the order and of loose equality. -/
theorem operators_cohere :
    (∀ operand : Operand, operand.IsStored →
      identical.holds operand operand = true ∧ equal.holds operand operand = true) ∧
    (∀ left right : Operand,
      identical.holds left right = identical.holds right left ∧
      equal.holds left right = equal.holds right left ∧
      (identical.holds left right = true → equal.holds left right = true) ∧
      greater.holds left right = less.holds right left ∧
      atLeast.holds left right = atMost.holds right left ∧
      ¬ (less.holds left right = true ∧ greater.holds left right = true)) ∧
    (∀ left middle right : Operand, identical.holds left middle = true → identical.holds middle right = true →
      identical.holds left right = true) ∧
    ∀ left right : Operand, left.IsScalar → right.IsScalar →
      (equal.holds left right = true ↔ atMost.holds left right = true ∧ atLeast.holds left right = true) ∧
      (atMost.holds left right = true ↔ less.holds left right = true ∨ equal.holds left right = true) := by
  refine ⟨fun operand stored => ⟨stored.strictlyEqual_self,
      Operand.looselyEqual_of_strictlyEqual stored.strictlyEqual_self⟩,
    fun left right => ⟨Operand.strictlyEqual_symm left right, Operand.looselyEqual_symm left right,
      Operand.looselyEqual_of_strictlyEqual, (holds_swap left right).1, (holds_swap left right).2,
      not_less_and_greater left right⟩,
    fun _ _ _ => Operand.strictlyEqual_trans, fun left right scalar otherScalar => ?_⟩
  have equality : equal.holds left right = true ↔ left.order? right = some .eq :=
    Operand.looselyEqual_iff_order? scalar otherScalar
  rw [equality, holds, holds, holds]
  rcases left.order? right with _ | _ | _ | _ <;> decide

/-- A text and the number written in it are loosely and not strictly equal, from either side, and each is
at most and at least the other. -/
theorem cohere_text_and_number :
    let written : Operand := some (.text "5")
    let number : Operand := some (.number (.integer 5))
    identical.holds written written = true ∧ identical.holds written number = false ∧
    equal.holds written number = true ∧ equal.holds number written = true ∧
    atMost.holds written number = true ∧ atLeast.holds written number = true := by
  intro written number
  have scalar : written.IsScalar := ⟨_, rfl, trivial⟩
  have otherScalar : number.IsScalar := ⟨_, rfl, trivial⟩
  have stored : written.IsStored := fun value within => (Option.mem_some.mp within) ▸ .text "5"
  have meets : equal.holds written number = true := by decide
  have both := ((operators_cohere.2.2.2 written number scalar otherScalar).1).mp meets
  exact ⟨(operators_cohere.1 written stored).1, by decide, meets,
    (operators_cohere.2.1 written number).2.1.symm.trans meets, both.1, both.2⟩

end Comparison
end Orchestration
