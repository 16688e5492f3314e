/-!
# Words

The bounds of machine words of 64 bits. Whole numbers are kept without bounds everywhere; where a number
has to fit a word it is held against these.
-/

namespace Orchestration.Word

/-- The count of words. -/
def count : Nat := 18446744073709551616

/-- The least magnitude that no signed word has above zero: half the count of words. -/
def signedLimit : Nat := 9223372036854775808

/-- True of the whole numbers that are unsigned words. -/
def isUnsigned (value : Nat) : Bool := value < count

/-- True of the whole numbers that are signed words. -/
def isSigned (value : Int) : Bool := -(signedLimit : Int) ≤ value && value < signedLimit

/-- Half the words are not negative. -/
theorem count_eq : count = 2 * signedLimit := rfl

/-- The signed words lie between the two bounds. -/
theorem isSigned_iff {value : Int} :
    isSigned value = true ↔ -9223372036854775808 ≤ value ∧ value < 9223372036854775808 := by
  rw [isSigned, Bool.and_eq_true, decide_eq_true_iff, decide_eq_true_iff]
  exact Iff.rfl

/-- A number that is not negative is a signed word just below the limit. -/
theorem isSigned_natCast {value : Nat} :
    isSigned (value : Int) = true ↔ value < signedLimit := by
  simp only [isSigned_iff, signedLimit]
  omega

end Orchestration.Word
