import Orchestration.Proofs.Levels

/-!
# Dangling operators

A place in a condition stands behind others that are looked at before it: earlier terms, which decide by
short-circuiting whether evaluation goes on, and the left side of a comparison. What is asked of them are
the guards of the place. Evaluation fails exactly where it meets all guards of a faulty place.

A level of a condition, that is the whole text or the inside of some parentheses, checks all of its terms
for being empty before it looks at any of them. So an empty term of the level is reported whatever the
data as soon as evaluation comes to the level. Whether it comes to a level inside of parentheses depends
on the data, by the guards.
-/

namespace Orchestration.Condition

/-! ## Guards -/

/-- What evaluation asks of one part of a condition before it looks at what stands behind it. -/
inductive Guard where
  /-- That the left side of a comparison has a value. -/
  | valued (side : Condition)
  /-- That an earlier term does not decide the conjunction or disjunction that it is in. -/
  | undecided (term : Condition) (truth : Bool)

/-- That a guard lets evaluation pass. -/
def Guard.Met (bag : Bag) : Guard → Prop
  | .valued side => ∃ operand, side.value bag = .ok operand
  | .undecided term truth => term.holds bag = .ok truth

/-- That a place stands in a condition under some guards, the outermost first. -/
inductive Stands (place : Condition) : List Guard → Condition → Prop where
  | here : Stands place [] place
  | left {guards : List Guard} {left : Condition} (comparison : Comparison) (right : Condition)
      (within : Stands place guards left) : Stands place guards (.compared comparison left right)
  | right {guards : List Guard} {right : Condition} (comparison : Comparison) (left : Condition)
      (within : Stands place guards right) :
      Stands place (.valued left :: guards) (.compared comparison left right)
  | negated {guards : List Guard} {inner : Condition} (within : Stands place guards inner) :
      Stands place guards (.negated inner)
  /-- All terms before it have to be true. -/
  | conjunct {guards : List Guard} {term : Condition} (before after : List Condition)
      (within : Stands place guards term) :
      Stands place (before.map (.undecided · true) ++ guards) (.conjunction (before ++ term :: after))
  /-- All terms before it have to be false. -/
  | disjunct {guards : List Guard} {term : Condition} (before after : List Condition)
      (within : Stands place guards term) :
      Stands place (before.map (.undecided · false) ++ guards) (.disjunction (before ++ term :: after))

section Failing

variable {bag : Bag} {error : ExpressionError} {condition term : Condition} {terms : List Condition}

/-- A condition has no truth for the same reason for which it has no value. -/
theorem holds_eq_error_iff : condition.holds bag = .error error ↔ condition.value bag = .error error := by
  rw [holds]
  cases condition.value bag <;> simp [Except.map]

/-- That terms are looked at as long as they have one truth, and the first of the other truth is the last
that is looked at. -/
structure ShortCircuits (bag : Bag) (truth : Bool)
    (scan : List Condition → Except ExpressionError Bool) : Prop where
  nil : scan [] = .ok truth
  cons : ∀ term terms, scan (term :: terms) =
    (term.holds bag).bind fun outcome => if outcome = truth then scan terms else .ok (!truth)

/-- A conjunction goes on while its terms are true. -/
theorem shortCircuits_every (bag : Bag) : ShortCircuits bag true (every bag) where
  nil := by rw [every]
  cons term terms := by
    rw [every, holds]
    cases term.value bag <;> rfl

/-- A disjunction goes on while its conjunctions are false. -/
theorem shortCircuits_any (bag : Bag) : ShortCircuits bag false (any bag) where
  nil := by rw [any]
  cons term terms := by
    rw [any, holds]
    cases term.value bag with
    | error cause => rfl
    | ok operand => cases truthy : operand.isTruthy <;> simp [Except.map, Except.bind, truthy]

/-- Such a scan fails where a term fails behind undecided ones only. -/
theorem ShortCircuits.eq_error_iff {truth : Bool} {scan : List Condition → Except ExpressionError Bool}
    (shortCircuits : ShortCircuits bag truth scan) :
    scan terms = .error error ↔ ∃ before term after, terms = before ++ term :: after ∧
      (∀ earlier ∈ before, earlier.holds bag = .ok truth) ∧ term.holds bag = .error error := by
  constructor
  · intro fails
    induction terms with
    | nil => simp [shortCircuits.nil] at fails
    | cons first others inductionHypothesis =>
        rw [shortCircuits.cons] at fails
        cases found : first.holds bag with
        | error cause =>
            simp only [found, Except.bind] at fails
            exact ⟨[], first, others, rfl, by simp, found.trans fails⟩
        | ok outcome =>
            simp only [found, Except.bind] at fails
            split at fails
            · rename_i undecided
              subst undecided
              obtain ⟨before, term, after, rfl, passed, failed⟩ := inductionHypothesis fails
              exact ⟨first :: before, term, after, rfl,
                List.forall_mem_cons.mpr ⟨found, passed⟩, failed⟩
            · cases fails
  · rintro ⟨before, term, after, rfl, passed, failed⟩
    induction before with
    | nil => rw [List.nil_append, shortCircuits.cons, failed, Except.bind]
    | cons first before inductionHypothesis =>
        obtain ⟨found, others⟩ := List.forall_mem_cons.mp passed
        rw [List.cons_append, shortCircuits.cons, found, Except.bind, if_pos rfl]
        exact inductionHypothesis others

/-- A truth fails as an operand when it fails. -/
theorem map_ofBool_eq_error_iff {truth : Except ExpressionError Bool} :
    truth.map Operand.ofBool = .error error ↔ truth = .error error := by
  cases truth <;> simp [Except.map]

/-- The guards that are the terms before a place, and those further inside. -/
theorem forall_met_append_iff {before : List Condition} {guards : List Guard} {truth : Bool} :
    (∀ guard ∈ before.map (Guard.undecided · truth) ++ guards, guard.Met bag) ↔
      (∀ earlier ∈ before, earlier.holds bag = .ok truth) ∧ ∀ guard ∈ guards, guard.Met bag := by
  rw [List.forall_mem_append, List.forall_mem_map]
  rfl

/-- What holds of a condition where it holds of its parts holds of every condition. -/
theorem induct {motive : Condition → Prop} (refused : ∀ error, motive (.refused error))
    (literal : ∀ operand, motive (.literal operand)) (stored : ∀ path, motive (.stored path))
    (compared : ∀ comparison left right, motive left → motive right →
      motive (.compared comparison left right))
    (negated : ∀ inner, motive inner → motive (.negated inner))
    (conjunction : ∀ terms, (∀ term ∈ terms, motive term) → motive (.conjunction terms))
    (disjunction : ∀ terms, (∀ term ∈ terms, motive term) → motive (.disjunction terms))
    (condition : Condition) : motive condition :=
  @Condition.rec motive (fun terms => ∀ term ∈ terms, motive term) refused literal stored compared negated
    conjunction disjunction (fun _ within => nomatch within)
    (fun _ _ first others => List.forall_mem_cons.mpr ⟨first, others⟩) condition

/-- A condition fails at a faulty place whose guards are met. -/
theorem exists_stands_of_value (fails : condition.value bag = .error error) :
    ∃ guards, Stands (.refused error) guards condition ∧ ∀ guard ∈ guards, guard.Met bag := by
  induction condition using induct with
  | refused cause =>
      cases fails
      exact ⟨[], .here, by simp⟩
  | literal operand => cases fails
  | stored path => cases fails
  | compared comparison left right leftHypothesis rightHypothesis =>
      rw [value] at fails
      cases found : left.value bag with
      | error cause =>
          simp only [found] at fails
          obtain ⟨guards, within, met⟩ := leftHypothesis (found.trans fails)
          exact ⟨guards, .left comparison right within, met⟩
      | ok operand =>
          cases other : right.value bag with
          | error cause =>
              simp only [found, other] at fails
              obtain ⟨guards, within, met⟩ := rightHypothesis (other.trans fails)
              exact ⟨_, .right comparison left within,
                List.forall_mem_cons.mpr ⟨⟨operand, found⟩, met⟩⟩
          | ok otherOperand => simp [found, other] at fails
  | negated inner inductionHypothesis =>
      rw [value] at fails
      cases found : inner.value bag with
      | error cause =>
          simp only [found] at fails
          obtain ⟨guards, within, met⟩ := inductionHypothesis (found.trans fails)
          exact ⟨guards, .negated within, met⟩
      | ok operand => simp [found] at fails
  | conjunction terms inductionHypothesis =>
      rw [value, map_ofBool_eq_error_iff, (shortCircuits_every bag).eq_error_iff] at fails
      obtain ⟨before, term, after, rfl, passed, failed⟩ := fails
      obtain ⟨guards, within, met⟩ :=
        inductionHypothesis term List.mem_append_cons_self (holds_eq_error_iff.mp failed)
      exact ⟨_, .conjunct before after within, forall_met_append_iff.mpr ⟨passed, met⟩⟩
  | disjunction terms inductionHypothesis =>
      rw [value, map_ofBool_eq_error_iff, (shortCircuits_any bag).eq_error_iff] at fails
      obtain ⟨before, term, after, rfl, passed, failed⟩ := fails
      obtain ⟨guards, within, met⟩ :=
        inductionHypothesis term List.mem_append_cons_self (holds_eq_error_iff.mp failed)
      exact ⟨_, .disjunct before after within, forall_met_append_iff.mpr ⟨passed, met⟩⟩

/-- A failing place whose guards are met makes the whole condition fail. -/
theorem Stands.value_eq_error {place : Condition} {guards : List Guard}
    (stands : Stands place guards condition) (met : ∀ guard ∈ guards, guard.Met bag)
    (fails : place.value bag = .error error) : condition.value bag = .error error := by
  induction stands with
  | here => exact fails
  | left comparison right _ inductionHypothesis => rw [value, inductionHypothesis met]
  | right comparison left _ inductionHypothesis =>
      obtain ⟨⟨operand, found⟩, others⟩ := List.forall_mem_cons.mp met
      simp only [value, found, inductionHypothesis others]
  | negated _ inductionHypothesis => rw [value, inductionHypothesis met]
  | conjunct before after _ inductionHypothesis =>
      obtain ⟨passed, others⟩ := forall_met_append_iff.mp met
      rw [value, map_ofBool_eq_error_iff, (shortCircuits_every bag).eq_error_iff]
      exact ⟨before, _, after, rfl, passed, holds_eq_error_iff.mpr (inductionHypothesis others)⟩
  | disjunct before after _ inductionHypothesis =>
      obtain ⟨passed, others⟩ := forall_met_append_iff.mp met
      rw [value, map_ofBool_eq_error_iff, (shortCircuits_any bag).eq_error_iff]
      exact ⟨before, _, after, rfl, passed, holds_eq_error_iff.mpr (inductionHypothesis others)⟩

/-- A condition fails exactly if it meets all guards of a faulty place. -/
theorem value_eq_error_iff :
    condition.value bag = .error error ↔
      ∃ guards, Stands (.refused error) guards condition ∧ ∀ guard ∈ guards, guard.Met bag := by
  refine ⟨exists_stands_of_value, ?_⟩
  rintro ⟨guards, stands, met⟩
  exact stands.value_eq_error met rfl

/-- Evaluation fails with what stands in the condition behind guards that are all met. -/
theorem evaluate_eq_error_iff {text : String} :
    evaluate text bag = .error error ↔
      ∃ guards, Stands (.refused error) guards (ofText text) ∧ ∀ guard ∈ guards, guard.Met bag :=
  holds_eq_error_iff.trans value_eq_error_iff

end Failing

/-! ## Empty terms -/

/-- That a level of a condition has a term with nothing in it. -/
def Dangles (text : List Char) : Prop :=
  ∃ conjuncts ∈ terms text, ∃ term ∈ conjuncts, Text.isBlankText term = true

/-- A level is checked for empty terms before any of its terms is looked at. -/
theorem Dangles.read_eq {text : List Char} (dangles : Dangles text) (levels : Nat) :
    read (levels + 1) text = .refused (.emptyTerm (String.ofList text)) := by
  obtain ⟨conjuncts, isConjunction, term, present, blank⟩ := dangles
  have found : (terms text).any (fun conjuncts => conjuncts.any Text.isBlankText) = true :=
    List.any_eq_true.mpr ⟨conjuncts, isConjunction, List.any_eq_true.mpr ⟨term, present, blank⟩⟩
  rw [read, if_pos found]

/-- That evaluation reports an empty term. -/
def ReportsEmptyTerm (text : String) (bag : Bag) : Prop :=
  ∃ level, evaluate text bag = .error (.emptyTerm level)

/-- That the data let evaluation pass to an empty term. -/
def ExposesEmptyTerm (text : String) (bag : Bag) : Prop :=
  ∃ level guards, Stands (.refused (.emptyTerm level)) guards (ofText text) ∧
    ∀ guard ∈ guards, guard.Met bag

/-- An empty term is reported whatever the data on every level that stands under no guard, the whole text
among them, and on a guarded level wherever the guards are met. Two bags agree on whether an empty term is
reported exactly if both of them let evaluation pass to one or neither does. -/
theorem dangling_reported_iff (text : String) :
    (Dangles text.toList → ∀ bag, evaluate text bag = .error (.emptyTerm text)) ∧
      (∀ levels level guards, Stands (read (levels + 1) level) guards (ofText text) → Dangles level →
        ∀ bag, (∀ guard ∈ guards, guard.Met bag) →
          evaluate text bag = .error (.emptyTerm (String.ofList level))) ∧
      ∀ first second : Bag,
        (ReportsEmptyTerm text first ↔ ReportsEmptyTerm text second) ↔
          (ExposesEmptyTerm text first ↔ ExposesEmptyTerm text second) := by
  have level_reported (levels : Nat) (level : List Char) (guards : List Guard)
      (stands : Stands (read (levels + 1) level) guards (ofText text)) (dangles : Dangles level)
      (bag : Bag) (met : ∀ guard ∈ guards, guard.Met bag) :
      evaluate text bag = .error (.emptyTerm (String.ofList level)) := by
    rw [dangles.read_eq] at stands
    exact evaluate_eq_error_iff.mpr ⟨guards, stands, met⟩
  refine ⟨fun dangles bag => ?_, level_reported, fun first second => ?_⟩
  · have whole := level_reported 255 text.toList [] .here dangles bag (by simp)
    rwa [String.ofList_toList] at whole
  · have exposed (bag : Bag) : ReportsEmptyTerm text bag ↔ ExposesEmptyTerm text bag :=
      exists_congr fun level => evaluate_eq_error_iff
    rw [exposed first, exposed second]

namespace GuardedParentheses

def spelling : String := "a && (b &&)"

/-- The inside of the parentheses. -/
def level : List Char := ['b', ' ', '&', '&']

/-- A bag that decides the first term. -/
def deciding (truth : Bool) : Bag := [("a", .boolean truth)]

/-- The inside of the parentheses has an empty term. -/
theorem dangles : Dangles level :=
  ⟨[['b', ' '], []], by decide, [], by decide, rfl⟩

/-- The condition is read as a conjunction of a variable and the parentheses. -/
theorem ofText_eq :
    ofText spelling = .disjunction [.conjunction [.stored "a", read 255 level]] := by
  have cut : terms spelling.toList = [[['a', ' '], ' ' :: '(' :: (level ++ [')'])]] := by decide
  rw [ofText, maximumNesting, read_of_visible 255 (by rw [cut]; decide), cut]
  rfl

/-- The parentheses are guarded by the first term. -/
theorem stands : Stands (read 255 level) [.undecided (.stored "a") true] (ofText spelling) := by
  rw [ofText_eq]
  exact .disjunct [] [] (.conjunct [.stored "a"] [] .here)

end GuardedParentheses

open GuardedParentheses in
/-- Where the first term is true, the empty term in the parentheses is reported. -/
theorem dangling_reported_behind_truth :
    evaluate spelling (deciding true) = .error (.emptyTerm "b &&") :=
  (dangling_reported_iff spelling).2.1 254 level _ stands dangles (deciding true)
    (List.forall_mem_singleton.mpr rfl)

open GuardedParentheses in
/-- An empty term in parentheses is reported for one bag and not for another. -/
theorem exists_unreported_dangling :
    ReportsEmptyTerm spelling (deciding true) ∧ ¬ ReportsEmptyTerm spelling (deciding false) := by
  have guarded := ofText_eq
  rw [dangles.read_eq 254] at guarded
  constructor
  · exact ⟨_, by rw [evaluate, guarded]; rfl⟩
  · rintro ⟨level, reported⟩
    rw [evaluate, guarded] at reported
    cases reported

end Orchestration.Condition
