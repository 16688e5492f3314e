import Mathlib.Data.List.Forall2
import Orchestration.Proofs.Dangling

/-!
# Signs in front of terms

A sign `!` in front of a term without a comparison turns its truth. It uses up a level, so what stands in the
parentheses behind it is read with one level fewer, and reading with fewer levels gives the same or comes to
the limit.

Comparisons are looked for before signs. In front of a comparison a sign becomes the first character of the
left side, which is then the path that begins with it, whatever stood there without the sign.
-/

namespace Orchestration.Condition

open Grammar (Rank readInside)

/-! ## Fewer levels -/

section Levels

variable {bag : Bag} {text whole : List Char}

/-- That a condition has the value of another one wherever that has one, unless it comes to the limit of
nesting. -/
def Follows (condition other : Condition) : Prop :=
  ∀ bag operand, other.value bag = .ok operand →
    condition.value bag = .ok operand ∨ condition.value bag = .error (.tooDeep maximumNesting)

/-- Every condition follows itself. -/
theorem Follows.refl (condition : Condition) : Follows condition condition :=
  fun _ _ found => .inl found

/-- A condition that came to the limit of nesting follows any other one. -/
theorem tooDeep_follows (condition : Condition) : Follows (.refused (.tooDeep maximumNesting)) condition :=
  fun _ _ _ => .inr rfl

/-- What follows a condition with a truth has that truth, unless it nests too deeply. -/
theorem Follows.holds {condition other : Condition} (follows : Follows condition other) {truth : Bool}
    (found : other.holds bag = .ok truth) :
    condition.holds bag = .ok truth ∨ condition.holds bag = .error (.tooDeep maximumNesting) := by
  rw [Condition.holds] at found ⊢
  cases value : other.value bag with
  | error error => simp [value, Except.map] at found
  | ok operand =>
      rw [value] at found
      exact (follows bag operand value).imp (fun same => by rw [same, found]) fun deep => by
        rw [deep, Except.map]

/-- Negations follow each other when what they negate does. -/
theorem follows_negated {inner other : Condition} (follows : Follows inner other) :
    Follows (.negated inner) (.negated other) := by
  intro bag operand found
  rw [value] at found
  cases otherValue : other.value bag with
  | error error => simp [otherValue] at found
  | ok turned =>
      rw [otherValue] at found
      exact (follows bag turned otherValue).imp (fun same => by rw [value, same, found]) fun deep => by
        rw [value, deep]

/-- Comparisons follow each other when both of their sides do. -/
theorem follows_compared {comparison : Comparison} {left right otherLeft otherRight : Condition}
    (followsLeft : Follows left otherLeft) (followsRight : Follows right otherRight) :
    Follows (.compared comparison left right) (.compared comparison otherLeft otherRight) := by
  intro bag operand found
  rw [value] at found
  cases leftValue : otherLeft.value bag with
  | error error => simp [leftValue] at found
  | ok leftOperand =>
      cases rightValue : otherRight.value bag with
      | error error => simp [leftValue, rightValue] at found
      | ok rightOperand =>
          simp only [leftValue, rightValue] at found
          rcases followsLeft bag leftOperand leftValue with sameLeft | deep
          · rcases followsRight bag rightOperand rightValue with sameRight | deep
            · exact .inl (by rw [value, sameLeft, sameRight]; exact found)
            · exact .inr (by rw [value, sameLeft, deep])
          · exact .inr (by rw [value, deep])

/-- Terms are looked at up to the same place, unless the limit comes first. -/
theorem ShortCircuits.follows {truth : Bool} {scan : List Condition → Except ExpressionError Bool}
    (shortCircuits : ShortCircuits bag truth scan) {terms others : List Condition}
    (each : List.Forall₂ Follows terms others) {outcome : Bool} (found : scan others = .ok outcome) :
    scan terms = .ok outcome ∨ scan terms = .error (.tooDeep maximumNesting) := by
  induction each with
  | nil => exact .inl found
  | @cons term other terms others follows _ inductionHypothesis =>
      rw [shortCircuits.cons] at found ⊢
      cases first : other.holds bag with
      | error error => simp [first, Except.bind] at found
      | ok held =>
          simp only [first, Except.bind] at found
          rcases follows.holds first with same | deep
          · simp only [same, Except.bind]
            split at found
            · rw [if_pos ‹_›]
              exact inductionHypothesis found
            · rw [if_neg ‹_›]
              exact .inl found
          · exact .inr (by rw [deep, Except.bind])

/-- A conjunction follows the one whose terms its own terms follow. -/
theorem follows_conjunction {terms others : List Condition} (each : List.Forall₂ Follows terms others) :
    Follows (.conjunction terms) (.conjunction others) := by
  intro bag operand found
  rw [value] at found ⊢
  cases held : every bag others with
  | error error => simp [held, Except.map] at found
  | ok outcome =>
      rw [held] at found
      exact ((shortCircuits_every bag).follows each held).imp (fun same => by rw [same, found]) fun deep => by
        rw [deep, Except.map]

/-- A disjunction follows the one whose terms its own terms follow. -/
theorem follows_disjunction {terms others : List Condition} (each : List.Forall₂ Follows terms others) :
    Follows (.disjunction terms) (.disjunction others) := by
  intro bag operand found
  rw [value] at found ⊢
  cases held : any bag others with
  | error error => simp [held, Except.map] at found
  | ok outcome =>
      rw [held] at found
      exact ((shortCircuits_any bag).follows each held).imp (fun same => by rw [same, found]) fun deep => by
        rw [deep, Except.map]

/-- An operand follows another reading of itself when what it nests does. -/
theorem follows_readOperand {nested other : List Char → Condition}
    (follows : ∀ inner, Follows (nested inner) (other inner)) (text : List Char) :
    Follows (readOperand nested text) (readOperand other text) := by
  rw [readOperand, readOperand]
  split
  · exact .refl _
  · split
    · exact follows _
    · exact .refl _

/-- An operand behind signs follows another reading of itself, with as many signs read before. -/
theorem follows_readSigned {nested other : Nat → List Char → Condition}
    (follows : ∀ signs inner, Follows (nested signs inner) (other signs inner)) (signs : Nat) :
    Follows (readSigned nested whole signs text) (readSigned other whole signs text) := by
  induction text generalizing signs with
  | nil => exact .refl _
  | cons character rest inductionHypothesis =>
      rw [readSigned, readSigned]
      split
      · exact inductionHypothesis signs
      · split
        · exact follows_negated (inductionHypothesis (signs + 1))
        · exact follows_readOperand (follows signs) _

/-- A term follows another reading of itself when what it nests does. -/
theorem follows_readTerm {nested other : Nat → List Char → Condition}
    (follows : ∀ signs inner, Follows (nested signs inner) (other signs inner)) :
    Follows (readTerm nested whole text) (readTerm other whole text) := by
  rw [readTerm, readTerm]
  split
  · exact follows_compared (follows_readOperand (follows 0) _) (follows_readOperand (follows 0) _)
  · exact follows_readSigned follows 0

/-- Reading with fewer levels gives what reading with more of them gives, or comes to the limit. -/
theorem follows_read {levels more : Nat} (fewer : levels ≤ more) (text : List Char) :
    Follows (read levels text) (read more text) := by
  induction levels using Nat.strong_induction_on generalizing more text with
  | _ levels inductionHypothesis =>
      cases levels with
      | zero =>
          rw [read]
          exact tooDeep_follows _
      | succ deeper =>
          obtain ⟨further, rfl⟩ : ∃ further, more = further + 1 := ⟨more - 1, by omega⟩
          cases visible : (terms text).any fun conjuncts => conjuncts.any Text.isBlankText with
          | true =>
              rw [read, if_pos visible, read, if_pos visible]
              exact .refl _
          | false =>
              have within (signs : Nat) (inner : List Char) :
                  Follows (readInside deeper signs inner) (readInside further signs inner) :=
                inductionHypothesis (deeper - signs) (by omega) (by omega) inner
              rw [read_of_visible deeper visible, read_of_visible further visible]
              refine follows_disjunction (List.forall₂_map_left_iff.mpr (List.forall₂_map_right_iff.mpr
                (List.forall₂_same.mpr fun conjuncts _ => ?_)))
              exact follows_conjunction (List.forall₂_map_left_iff.mpr (List.forall₂_map_right_iff.mpr
                (List.forall₂_same.mpr fun term _ => follows_readTerm within)))

end Levels

/-! ## Signs -/

section Signs

variable {text left right : List Char} {bag : Bag}

/-- That a text may be an operand: it closes the quotations and parentheses that it opens, shows no operator
outside of them, and is not blank. -/
structure IsOperand (text : List Char) : Prop where
  balanced : Balanced Rank.operand.Shows text
  visible : Text.isBlankText text = false

/-- A sign goes to the left side of the first comparison, unless it is the beginning of an operator itself. -/
theorem comparison?_sign (noEquality : text.head? ≠ some '=') : comparison? ('!' :: text) =
    (comparison? text).map fun found => (found.1, '!' :: found.2.1, found.2.2) := by
  have skipped (comparison : Comparison) : cut? comparison.sign.toList ('!' :: text) =
      (cut? comparison.sign.toList text).map fun parts => ('!' :: parts.1, parts.2) := by
    have noPrefix : comparison.sign.toList.isPrefixOf ('!' :: text) = false := by
      cases text with
      | nil => cases comparison <;> rfl
      | cons next rest =>
          have notEqual : next ≠ '=' := fun equal => noEquality (by rw [equal]; rfl)
          cases comparison <;> simp [Comparison.sign, List.isPrefixOf, notEqual.symm]
    rw [cut?, cutFrom, noPrefix, Bool.and_false, if_neg Bool.false_ne_true]
    rfl
  rw [comparison?, comparison?, List.map_findSome?]
  congr 1
  funext comparison
  rw [skipped, Option.map_map, Function.comp_apply, Option.map_map]
  rfl

/-- What begins with a sign is read as a path. -/
theorem readOperand_sign (nested : List Char → Condition) (text : List Char) :
    readOperand nested ('!' :: text) = .stored (String.ofList ('!' :: Text.trimEnd text)) := by
  have visible : Text.isBlank '!' = false := rfl
  have trimmed : Text.trim ('!' :: text) = '!' :: Text.trimEnd text := by
    simp [Text.trim, Text.trimStart, Text.trimEnd, visible]
  have notNumeral : isNumeral ('!' :: Text.trimEnd text) = false :=
    Grammar.isNumeral_eq_false (by decide) (by decide)
  simp [readOperand, trimmed, enclosed?, ofToken, notNumeral, quotation?]

/-- What begins with an operand does not begin with an equals sign, so the sign before it is not a longer one.
-/
theorem IsOperand.head?_ne (operand : IsOperand left) (after : List Char) :
    (left ++ after).head? ≠ some '=' := by
  obtain ⟨balanced, visible⟩ := operand
  cases left with
  | nil => cases visible
  | cons first rest =>
      rintro ⟨⟩
      exact absurd (balanced.of_cons rfl).1 (by decide)

/-- An operand is a term by itself. -/
theorem IsOperand.holds_read (operand : IsOperand text) (levels : Nat) (bag : Bag) :
    (read (levels + 1) text).holds bag = (readOperand (readInside levels 0) text).holds bag := by
  rw [read_of_balanced (operand.balanced.mono (Rank.Shows.loosen (by decide))) operand.visible, holds_group,
    Grammar.readSigned_of_balanced operand.balanced operand.visible]

/-- A sign in front of an operand turns its truth and takes one of the levels that are left for it. -/
theorem IsOperand.holds_read_sign (operand : IsOperand text) (levels : Nat) (bag : Bag) :
    (read (levels + 1) ('!' :: text)).holds bag =
      ((readOperand (readInside levels 1) text).holds bag).map Bool.not := by
  have balanced : Balanced Rank.signed.Shows ('!' :: text) :=
    .plain rfl (by decide) (operand.balanced.mono (Grammar.Rank.Shows.loosen (by decide)))
  rw [read_of_balanced balanced rfl, holds_group, Grammar.readSigned_sign, holds_negated,
    Grammar.readSigned_of_balanced operand.balanced operand.visible]

/-- Two operands with the sign of a comparison between them show no other operator. -/
theorem balanced_compared (comparison : Comparison) (operand : IsOperand left) (other : IsOperand right) :
    Balanced Rank.term.Shows (left ++ (comparison.sign.toList ++ right)) := by
  have sign : Balanced Rank.term.Shows comparison.sign.toList :=
    Grammar.balanced_of_sign (by cases comparison <;> decide) (by cases comparison <;> decide)
  exact (operand.balanced.mono (Rank.Shows.loosen (by decide))).append
    (sign.append (other.balanced.mono (Rank.Shows.loosen (by decide))))

/-- Two operands with a comparison between them are compared. -/
theorem holds_read_compared (comparison : Comparison) (operand : IsOperand left) (other : IsOperand right)
    (levels : Nat) (bag : Bag) :
    (read (levels + 1) (left ++ (comparison.sign.toList ++ right))).holds bag =
      (compared comparison (readOperand (readInside levels 0) left)
        (readOperand (readInside levels 0) right)).holds bag := by
  have visible : Text.isBlankText (left ++ (comparison.sign.toList ++ right)) = false := by
    simp [Text.isBlankText_append, operand.visible]
  rw [read_of_term (balanced_compared comparison operand other) visible, holds_group, readTerm,
    Grammar.comparison?_append comparison operand.balanced other.balanced]

/-- A sign in front of a comparison belongs to the path on its left. -/
theorem holds_read_sign_compared (comparison : Comparison) (operand : IsOperand left)
    (other : IsOperand right) (levels : Nat) (bag : Bag) :
    (read (levels + 1) ('!' :: (left ++ (comparison.sign.toList ++ right)))).holds bag =
      (compared comparison (.stored (String.ofList ('!' :: Text.trimEnd left)))
        (readOperand (readInside levels 0) right)).holds bag := by
  have balanced : Balanced Rank.term.Shows ('!' :: (left ++ (comparison.sign.toList ++ right))) :=
    .plain rfl (by decide) (balanced_compared comparison operand other)
  rw [read_of_term balanced rfl, holds_group, readTerm, comparison?_sign (operand.head?_ne _),
    Grammar.comparison?_append comparison operand.balanced other.balanced]
  exact congrArg (fun side => (compared comparison side _).holds bag) (readOperand_sign _ left)

/-- A comparison has the truth that its operands give it, and needs both of them. -/
theorem holds_compared_eq_ok_iff {comparison : Comparison} {first second : Condition} {truth : Bool} :
    (compared comparison first second).holds bag = .ok truth ↔ ∃ operand other,
      first.value bag = .ok operand ∧ second.value bag = .ok other ∧
        comparison.holds operand other = truth := by
  rw [holds, value]
  cases first.value bag with
  | error error => simp [Except.map]
  | ok operand => cases second.value bag <;> simp [Except.map, Grammar.isTruthy_ofBool]

/-- A condition is read with one level for each that it may nest. -/
theorem evaluate_ofList (text : List Char) (bag : Bag) :
    evaluate (String.ofList text) bag = (read (maximumNesting - 1 + 1) text).holds bag := by
  rw [evaluate, ofText, String.toList_ofList]
  rfl

/-- What a sign `!` does in front of a term. In front of an operand it turns the truth, unless the operand
then nests too deeply. In front of a comparison it takes the place of the left side what the path leads to
that begins with the sign, so the truth is turned exactly if the comparison has the other outcome for that. -/
theorem evaluate_sign (bag : Bag) :
    (∀ text, IsOperand text → ∀ truth, evaluate (String.ofList text) bag = .ok truth →
      evaluate (String.ofList ('!' :: text)) bag = .ok (!truth) ∨
        evaluate (String.ofList ('!' :: text)) bag = .error (.tooDeep maximumNesting)) ∧
    ∀ (comparison : Comparison) (left right : List Char), IsOperand left → IsOperand right → ∀ truth,
      evaluate (String.ofList (left ++ (comparison.sign.toList ++ right))) bag = .ok truth →
      ∃ operand other,
        (readOperand (readInside (maximumNesting - 1) 0) left).value bag = .ok operand ∧
        (readOperand (readInside (maximumNesting - 1) 0) right).value bag = .ok other ∧
        comparison.holds operand other = truth ∧
        evaluate (String.ofList ('!' :: (left ++ (comparison.sign.toList ++ right)))) bag =
          .ok (comparison.holds (bag.get? (String.ofList ('!' :: Text.trimEnd left))) other) := by
  constructor
  · intro text operand truth found
    rw [evaluate_ofList, operand.holds_read] at found
    rw [evaluate_ofList, operand.holds_read_sign]
    have follows := follows_readOperand
      (fun inner => follows_read (Nat.sub_le_sub_left (Nat.zero_le 1) (maximumNesting - 1)) inner) text
    rcases follows.holds found with same | deep
    · exact .inl (congrArg (Except.map Bool.not) same)
    · exact .inr (congrArg (Except.map Bool.not) deep)
  · intro comparison left right isOperand isOther truth found
    rw [evaluate_ofList, holds_read_compared comparison isOperand isOther] at found
    obtain ⟨operand, other, leftValue, rightValue, outcome⟩ := holds_compared_eq_ok_iff.mp found
    refine ⟨operand, other, leftValue, rightValue, outcome, ?_⟩
    rw [evaluate_ofList, holds_read_sign_compared comparison isOperand isOther]
    exact holds_compared_eq_ok_iff.mpr ⟨_, other, rfl, rightValue, rfl⟩

end Signs

namespace ComparedTruth

def name : List Char := ['a', ' ']

def word : List Char := [' ', 'f', 'a', 'l', 's', 'e']

def given : Bag := [("a", .number (.integer 1))]

/-- A name before a blank is an operand. -/
theorem isOperand_name : IsOperand name := ⟨Grammar.balanced_of_sign (by decide) (by decide), rfl⟩

/-- A keyword behind a blank is an operand. -/
theorem isOperand_word : IsOperand word := ⟨Grammar.balanced_of_sign (by decide) (by decide), rfl⟩

/-- The name has the value that was given. -/
theorem value_name (nested : List Char → Condition) :
    (readOperand nested name).value given = .ok (some (.number (.integer 1))) := rfl

/-- The number counts as true, so it is not equal to the word. -/
theorem evaluate_compared :
    evaluate (String.ofList (name ++ (Comparison.equal.sign.toList ++ word))) given = .ok false := by
  rw [evaluate_ofList, holds_read_compared .equal isOperand_name isOperand_word]
  exact holds_compared_eq_ok_iff.mpr
    ⟨some (.number (.integer 1)), some (.boolean false), value_name _, rfl, by decide⟩

end ComparedTruth

open ComparedTruth in
/-- A sign in front of a comparison with a number that counts as true changes nothing, whether it is taken to
turn the number or the outcome. -/
theorem exists_sign_unheeded :
    evaluate "a == false" [("a", .number (.integer 1))] = .ok false ∧
      evaluate "!a == false" [("a", .number (.integer 1))] = .ok false := by
  refine ⟨evaluate_compared, ?_⟩
  have signed := holds_read_sign_compared .equal isOperand_name isOperand_word (maximumNesting - 1) given
  rw [← evaluate_ofList] at signed
  exact signed.trans (holds_compared_eq_ok_iff.mpr ⟨none, some (.boolean false), rfl, rfl, rfl⟩)

open ComparedTruth in
/-- In front of the number by itself a sign turns its truth. Where the comparison fails without the sign, it
fails again with the path that begins with the sign. -/
theorem evaluate_sign_truth :
    (evaluate (String.ofList name) given = .ok true ∧
      evaluate (String.ofList ('!' :: name)) given = .ok false) ∧
    evaluate (String.ofList (name ++ (Comparison.equal.sign.toList ++ word))) given = .ok false ∧
    evaluate (String.ofList ('!' :: (name ++ (Comparison.equal.sign.toList ++ word)))) given = .ok false := by
  have truthy : evaluate (String.ofList name) given = .ok true := by
    rw [evaluate_ofList, isOperand_name.holds_read, holds, value_name]
    have isTruthy : Operand.isTruthy (some (.number (.integer 1))) = true := by decide
    exact congrArg Except.ok isTruthy
  obtain ⟨alone, compared⟩ := evaluate_sign given
  obtain ⟨operand, other, -, found, -, signed⟩ :=
    compared .equal name word isOperand_name isOperand_word false evaluate_compared
  obtain rfl : some (.boolean false) = other := Except.ok.inj found
  have shallow : evaluate (String.ofList ('!' :: name)) given ≠ .error (.tooDeep maximumNesting) := by
    rw [evaluate_ofList, isOperand_name.holds_read_sign, holds, value_name]
    intro deep
    cases deep
  exact ⟨⟨truthy, (alone name isOperand_name true truthy).resolve_right shallow⟩, evaluate_compared, signed⟩

end Orchestration.Condition
