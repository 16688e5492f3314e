import Std.Data.String.ToNat

/-!
# Namings

How instances are told apart: a name for every number, no two of them the same.
-/

namespace Orchestration

/-- A name for each number. -/
structure Naming where
  name : Nat → String
  name_injective : ∀ {first second : Nat}, name first = name second → first = second

namespace Naming

/-- The numbers behind a stem. -/
def numbered (stem : String) : Naming where
  name := fun number => stem ++ number.repr
  name_injective := fun same => Nat.repr_inj.mp ((String.append_right_inj stem).mp same)

/-- A text is not the same text with a dash and more behind it. -/
theorem ne_append_dash (given rest : String) : given ≠ given ++ "-" ++ rest := by
  intro same
  have lengths := congrArg String.length same
  rw [String.length_append, String.length_append] at lengths
  have dash : "-".length = 1 := rfl
  omega

/-- A given name for the number one, and that name with the number behind it for every other. -/
def beginningWith (given : String) : Naming where
  name := fun number => if number = 1 then given else given ++ "-" ++ number.repr
  name_injective := by
    intro first second same
    by_cases firstIsOne : first = 1 <;> by_cases secondIsOne : second = 1
    · rw [firstIsOne, secondIsOne]
    · rw [if_pos firstIsOne, if_neg secondIsOne] at same
      exact absurd same (ne_append_dash given _)
    · rw [if_neg firstIsOne, if_pos secondIsOne] at same
      exact absurd same.symm (ne_append_dash given _)
    · rw [if_neg firstIsOne, if_neg secondIsOne] at same
      exact Nat.repr_inj.mp ((String.append_right_inj _).mp same)

end Naming

end Orchestration
