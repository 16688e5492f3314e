import Orchestration.Proofs.Executions

/-!
# Loops keep to the limit

What an execution of a loop does is a list of turns: tests of its condition, and runs of its body with all
that is done in them. A loop that tests first takes a test and a run by turns and ends with the first test
that fails to hold; one that tests last takes a run and a test by turns and ends with the first test that
holds. Both give up in place of the run that would be one too many. So they do not count alike: by then the
first loop has made one test more than it has had runs, and the second one as many.
-/

namespace Orchestration

/-- Something that a loop does on its own level. -/
inductive Turn where
  /-- It evaluated its condition. -/
  | tested (reply : Except ActivityError Bool)
  /-- It asked whether to go on. -/
  | checked (halting : Bool)
  /-- It wrote an index to its counter. -/
  | counted (index : Int) (reply : Except ActivityError Unit)
  /-- It let an event be known. -/
  | announced (event : Event)
  /-- It ran its body, in which so much was done. A run that has not ended yet has no result. -/
  | ran (records : List Record) (result? : Option Result)

namespace Turn

/-- What is recorded of a turn. A loop that has no condition or no counter fails at once where it would use
it, and leaves no record of that. -/
def records (loop : Activity) : Turn → List Record
  | .tested reply => loop.condition.toList.map fun condition => .performed (.test condition) reply
  | .checked halting => [.performed .checkHalting halting]
  | .counted index reply =>
      loop.counterVariable.toList.map fun counter => .performed (.write counter (.integer index)) reply
  | .announced event => [.performed (.announce event) ()]
  | .ran records _ => records

/-- What a test came to. -/
def test? : Turn → Option (Except ActivityError Bool)
  | .tested reply => some reply
  | _ => none

/-- True of the runs of the body. -/
def isRun : Turn → Bool
  | .ran .. => true
  | _ => false

/-- What the tests came to, in order. -/
def tests (turns : List Turn) : List (Except ActivityError Bool) := turns.filterMap test?

/-- How many runs of the body have begun. -/
def runs (turns : List Turn) : Nat := turns.countP isRun

/-- That no run of the body failed or halted, and every test had a value. -/
structure Undisturbed (turns : List Turn) : Prop where
  evaluated : ∀ error, .tested (.error error) ∉ turns
  completed : ∀ records result, .ran records (some result) ∈ turns → result = .ok .completed

section Counting

variable {turns more : List Turn} {reply : Except ActivityError Bool} {halting : Bool} {index : Int}
  {written : Except ActivityError Unit} {records : List Record} {result? : Option Result}

/-- No turns, no tests. -/
@[simp]
theorem tests_nil : tests [] = [] := rfl

/-- A test is one of the tests. -/
@[simp]
theorem tests_tested : tests (.tested reply :: turns) = reply :: tests turns := rfl

/-- A run is no test. -/
@[simp]
theorem tests_ran : tests (.ran records result? :: turns) = tests turns := rfl

/-- The tests of turns in a row are those of both parts. -/
@[simp]
theorem tests_append : tests (turns ++ more) = tests turns ++ tests more := List.filterMap_append

/-- No turns, no runs. -/
@[simp]
theorem runs_nil : runs [] = 0 := rfl

/-- A test is no run. -/
@[simp]
theorem runs_tested : runs (.tested reply :: turns) = runs turns := rfl

/-- A checkpoint is no run. -/
@[simp]
theorem runs_checked : runs (.checked halting :: turns) = runs turns := rfl

/-- A write of the counter is no run. -/
@[simp]
theorem runs_counted : runs (.counted index written :: turns) = runs turns := rfl

/-- A run counts for one. -/
@[simp]
theorem runs_ran : runs (.ran records result? :: turns) = runs turns + 1 := List.countP_cons_of_pos rfl

/-- The runs of turns in a row are those of both parts. -/
@[simp]
theorem runs_append : runs (turns ++ more) = runs turns + runs more := List.countP_append

end Counting

end Turn

namespace Program

variable {program : Program} {loop : Activity} {turns : List Turn} {records : List Record}
  {inner : Thread} {limit : Nat}

/-- That a loop has taken turns, as recorded. Its runs are runs of its children in order. -/
structure Takes (program : Program) (loop : Activity) (turns : List Turn) (records : List Record) : Prop where
  recorded : records = turns.flatMap (Turn.records loop)
  runs : ∀ within result?, .ran within result? ∈ turns →
    (program.runSequence loop.children).Unfolds program within result?

/-- What is recorded of a turn is recorded of the loop. -/
theorem Takes.mem {turn : Turn} {record : Record} (takes : program.Takes loop turns records)
    (present : turn ∈ turns) (isRecord : record ∈ turn.records loop) : record ∈ records := by
  rw [takes.recorded]
  exact List.mem_flatMap.mpr ⟨turn, present, isRecord⟩

/-- A loop of which nothing is recorded has taken no turn. -/
theorem takes_nil : program.Takes loop [] [] := ⟨rfl, nofun⟩

/-- Before the turns of a loop comes another one. -/
theorem Takes.cons (takes : program.Takes loop turns records) (turn : Turn)
    (runs : ∀ within result?, turn = .ran within result? →
      (program.runSequence loop.children).Unfolds program within result?) :
    program.Takes loop (turn :: turns) (turn.records loop ++ records) := by
  refine ⟨by rw [takes.recorded, List.flatMap_cons], fun within result? present => ?_⟩
  rcases List.mem_cons.mp present with isFirst | later
  · exact runs within result? isFirst.symm
  · exact takes.runs within result? later

/-- What is recorded of one turn is that turn. -/
theorem takes_singleton (turn : Turn)
    (runs : ∀ within result?, turn = .ran within result? →
      (program.runSequence loop.children).Unfolds program within result?) :
    program.Takes loop [turn] (turn.records loop) := by
  simpa using takes_nil.cons turn runs

/-- Before the turns of a loop its body runs. -/
theorem Takes.run {within : List Record} {result? : Option Result}
    (takes : program.Takes loop turns records)
    (unfolds : (program.runSequence loop.children).Unfolds program within result?) :
    program.Takes loop (.ran within result? :: turns) (within ++ records) := by
  refine takes.cons (.ran within result?) ?_
  rintro _ _ ⟨⟩
  exact unfolds

/-- What is recorded of one run is that run. -/
theorem takes_run {within : List Record} {result? : Option Result}
    (unfolds : (program.runSequence loop.children).Unfolds program within result?) :
    program.Takes loop [.ran within result?] within := by
  simpa using takes_nil.run unfolds

/-- Where a loop stands that tests its condition: before the test, after one that failed, or after one that
has a value. -/
theorem follows_testCondition {next : Bool → Task}
    (follows : inner.Follows program (testCondition loop next) records) :
    (∃ condition following, loop.condition = some condition ∧ records = [] ∧
        inner = .ready [] (.act (.test condition) following)) ∨
      (∃ error, records = (Turn.tested (.error error)).records loop ∧ inner.EndsIn (.error error)) ∨
      ∃ holds rest, records = (Turn.tested (.ok holds)).records loop ++ rest ∧
        inner.Follows program (next holds) rest := by
  unfold testCondition at follows
  cases isCondition : loop.condition with
  | none =>
      rw [isCondition] at follows
      obtain ⟨rfl, endsIn⟩ := follows.of_done
      exact .inr (.inl ⟨_, by simp [Turn.records, isCondition], endsIn⟩)
  | some condition =>
      rw [isCondition] at follows
      cases follows with
      | ready => exact .inl ⟨condition, _, rfl, rfl, rfl⟩
      | @act _ _ reply _ _ continues =>
          change Except ActivityError Bool at reply
          rcases reply with error | holds
          · obtain ⟨rfl, endsIn⟩ := continues.of_done
            exact .inr (.inl ⟨error, by simp [Turn.records, isCondition], endsIn⟩)
          · exact .inr (.inr ⟨holds, _, by simp [Turn.records, isCondition], continues⟩)

/-- The failure of a loop that wants to go on beyond the limit. -/
def limitError (program : Program) (loop : Activity) : ActivityError :=
  .iterationLimit loop.id loop.kind program.settings.maxLoopIterations

/-- What a loop does that gives up: nothing, or it has let that be known. -/
def GivesUp (program : Program) (loop : Activity) (turns : List Turn) : Prop :=
  turns = [] ∨ turns = [.announced (.iterationCapHit loop.id program.settings.maxLoopIterations)]

/-- A loop that gives up lets that be known, and fails. -/
theorem exists_givesUp (follows : inner.Follows program (program.hitIterationCap loop) records) :
    ∃ turns, program.Takes loop turns records ∧ program.GivesUp loop turns ∧
      inner.EndsIn (.error (program.limitError loop)) := by
  cases follows with
  | ready => exact ⟨[], takes_nil, .inl rfl, .announces .returns⟩
  | act continues =>
      obtain ⟨rfl, endsIn⟩ := continues.of_done
      exact ⟨_, takes_singleton (.announced _) nofun, .inr rfl, endsIn⟩

/-- That a run of the body is under way, in which so much has been done and there is more to do. -/
def InRun (program : Program) (loop : Activity) (records : List Record) : Prop :=
  ∃ body : Thread, body.Follows program (program.runSequence loop.children) records ∧ body.IsGoing

/-! ## Loops that test first -/

/-- The turns of a loop that tests first whose tests have held and whose runs have completed. -/
def passes : List (List Record) → List Turn
  | [] => []
  | records :: runs => .tested (.ok true) :: .ran records (some (.ok .completed)) :: passes runs

/-- Where a loop stands that tests first, with its turns by then. -/
inductive WhileStands (program : Program) (loop : Activity) (limit : Nat) : List Turn → Thread → Prop where
  /-- It is about to evaluate its condition. -/
  | testing {runs : List (List Record)} {condition : String}
      {following : (Action.test condition).Reply → Task} (within : runs.length ≤ limit)
      (isCondition : loop.condition = some condition) :
      WhileStands program loop limit (passes runs) (.ready [] (.act (.test condition) following))
  /-- Its condition could not be evaluated. -/
  | failed {runs : List (List Record)} {error : ActivityError} {inner : Thread}
      (within : runs.length ≤ limit) (endsIn : inner.EndsIn (.error error)) :
      WhileStands program loop limit (passes runs ++ [.tested (.error error)]) inner
  /-- Its body is running. -/
  | running {runs : List (List Record)} {records : List Record} {inner : Thread}
      (within : runs.length < limit) (inRun : program.InRun loop records) (open_ : inner.result? = none) :
      WhileStands program loop limit (passes runs ++ [.tested (.ok true), .ran records none]) inner
  /-- A run of its body failed or halted. -/
  | stopped {runs : List (List Record)} {records : List Record} {result : Result} {inner : Thread}
      (within : runs.length < limit) (incomplete : result ≠ .ok .completed) (endsIn : inner.EndsIn result) :
      WhileStands program loop limit (passes runs ++ [.tested (.ok true), .ran records (some result)]) inner
  /-- Its condition did not hold. -/
  | completed {runs : List (List Record)} {inner : Thread} (within : runs.length ≤ limit)
      (endsIn : inner.EndsIn (.ok .completed)) :
      WhileStands program loop limit (passes runs ++ [.tested (.ok false)]) inner
  /-- Its condition held, and it had had as many runs as it may. -/
  | capped {runs : List (List Record)} {told : List Turn} {inner : Thread} (within : runs.length = limit)
      (givesUp : program.GivesUp loop told) (endsIn : inner.EndsIn (.error (program.limitError loop))) :
      WhileStands program loop limit (passes runs ++ .tested (.ok true) :: told) inner

/-- After a test that held and a run that completed it stands as with one run less to have. -/
theorem WhileStands.again (stands : program.WhileStands loop limit turns inner) (records : List Record) :
    program.WhileStands loop (limit + 1)
      (.tested (.ok true) :: .ran records (some (.ok .completed)) :: turns) inner := by
  cases stands with
  | @testing runs _ _ within isCondition =>
      exact @WhileStands.testing _ _ _ (records :: runs) _ _ (Nat.succ_le_succ within) isCondition
  | @failed runs _ _ within endsIn =>
      exact @WhileStands.failed _ _ _ (records :: runs) _ _ (Nat.succ_le_succ within) endsIn
  | @running runs _ _ within inRun open_ =>
      exact @WhileStands.running _ _ _ (records :: runs) _ _ (Nat.succ_lt_succ within) inRun open_
  | @stopped runs _ _ _ within incomplete endsIn =>
      exact @WhileStands.stopped _ _ _ (records :: runs) _ _ _ (Nat.succ_lt_succ within) incomplete endsIn
  | @completed runs _ within endsIn =>
      exact @WhileStands.completed _ _ _ (records :: runs) _ (Nat.succ_le_succ within) endsIn
  | @capped runs _ _ within givesUp endsIn =>
      exact @WhileStands.capped _ _ _ (records :: runs) _ _ (congrArg Nat.succ within) givesUp endsIn

/-- A loop that tests first stands before its test or where that leaves it, unless the condition holds. -/
theorem exists_whileStands_of_test {continuing : Task}
    (follows : inner.Follows program
      (testCondition loop fun holds => if holds then continuing else .completed) records)
    (held : ∀ rest, inner.Follows program continuing rest →
      ∃ turns, program.Takes loop turns rest ∧
        program.WhileStands loop limit (.tested (.ok true) :: turns) inner) :
    ∃ turns, program.Takes loop turns records ∧ program.WhileStands loop limit turns inner := by
  have within : ([] : List (List Record)).length ≤ limit := Nat.zero_le _
  rcases follows_testCondition follows with ⟨condition, following, isCondition, rfl, rfl⟩ |
    ⟨error, rfl, endsIn⟩ | ⟨holds, rest, rfl, continues⟩
  · exact ⟨[], takes_nil, .testing within isCondition⟩
  · exact ⟨_, takes_singleton (.tested _) nofun, .failed within endsIn⟩
  · cases holds with
    | false =>
        obtain ⟨rfl, endsIn⟩ := continues.of_done
        exact ⟨_, takes_nil.cons (.tested _) nofun, .completed within endsIn⟩
    | true =>
        obtain ⟨turns, takes, stands⟩ := held rest continues
        exact ⟨_, takes.cons (.tested _) nofun, stands⟩

/-- Every execution of a loop that tests first stands somewhere. -/
theorem exists_whileStands (follows : inner.Follows program (program.runWhile loop limit) records) :
    ∃ turns, program.Takes loop turns records ∧ program.WhileStands loop limit turns inner := by
  induction limit generalizing records with
  | zero =>
      refine exists_whileStands_of_test follows fun rest continues => ?_
      obtain ⟨told, takes, givesUp, endsIn⟩ := exists_givesUp continues
      exact ⟨told, takes, @WhileStands.capped _ _ _ [] _ _ rfl givesUp endsIn⟩
  | succ limit inductionHypothesis =>
      refine exists_whileStands_of_test follows fun rest continues => ?_
      have within : ([] : List (List Record)).length < limit + 1 := Nat.succ_pos limit
      rcases continues.of_whenCompleted with ⟨open_, body, bodyFollows, going⟩ |
        ⟨result, incomplete, unfolds, endsIn⟩ | ⟨first, rest, rfl, unfolds, continues⟩
      · have unfolds := going.open_ ▸ bodyFollows.unfolds
        exact ⟨_, takes_run unfolds, .running within ⟨body, bodyFollows, going⟩ open_⟩
      · exact ⟨_, takes_run unfolds, .stopped within incomplete endsIn⟩
      · obtain ⟨turns, takes, stands⟩ := inductionHypothesis continues
        exact ⟨_, takes.run unfolds, stands.again first⟩

/-- A run of a loop that tests first stands behind a test that held. -/
@[simp]
theorem tests_passes (runs : List (List Record)) :
    Turn.tests (passes runs) = List.replicate runs.length (.ok true) := by
  induction runs with
  | nil => rfl
  | cons records runs inductionHypothesis => simp [passes, inductionHypothesis, List.replicate_succ]

/-- Passes have as many runs as they were made of. -/
@[simp]
theorem runs_passes (runs : List (List Record)) : Turn.runs (passes runs) = runs.length := by
  induction runs with
  | nil => rfl
  | cons records runs inductionHypothesis => simp [passes, inductionHypothesis]

/-- A loop that gives up makes no test. -/
theorem GivesUp.tests_eq (givesUp : program.GivesUp loop turns) : Turn.tests turns = [] := by
  rcases givesUp with rfl | rfl <;> rfl

/-- A loop that gives up runs nothing. -/
theorem GivesUp.runs_eq (givesUp : program.GivesUp loop turns) : Turn.runs turns = 0 := by
  rcases givesUp with rfl | rfl <;> rfl

/-- What the tests of a loop that tests first say of its runs and of its end. -/
structure WhileCounts (program : Program) (loop : Activity) (limit : Nat) (turns : List Turn)
    (inner : Thread) : Prop where
  bounded : Turn.runs turns ≤ limit
  completes : ∀ count, Turn.tests turns = List.replicate count (.ok true) ++ [.ok false] →
    count ≤ limit ∧ Turn.runs turns = count ∧ inner.EndsIn (.ok .completed)
  exceeds : Turn.tests turns = List.replicate (limit + 1) (.ok true) →
    Turn.runs turns = limit ∧ inner.EndsIn (.error (program.limitError loop))
  ends : Turn.Undisturbed turns → ∀ result, inner.result? = some result →
    (∃ count, Turn.tests turns = List.replicate count (.ok true) ++ [.ok false]) ∨
      Turn.tests turns = List.replicate (limit + 1) (.ok true)

/-- Where a loop stands that tests first says how often it has tested and how often it has run. -/
theorem WhileStands.counts (stands : program.WhileStands loop limit turns inner) :
    program.WhileCounts loop limit turns inner where
  bounded := by
    cases stands with
    | testing within | failed within | completed within => simpa using within
    | running within | stopped within => simpa using Nat.succ_le_of_lt within
    | capped within givesUp => simp [givesUp.runs_eq, within]
  completes := by
    intro count known
    have present : .ok false ∈ Turn.tests turns := by simp [known]
    have total := congrArg List.length known
    cases stands with
    | completed within endsIn =>
        obtain rfl : _ = count := by simpa using total
        exact ⟨within, by simp, endsIn⟩
    | capped _ givesUp => simp [givesUp.tests_eq] at present
    | _ => simp at present
  exceeds := by
    intro known
    have held : ∀ reply ∈ Turn.tests turns, reply = .ok true := by simp [known]
    have total := congrArg List.length known
    cases stands with
    | testing within | running within | stopped within =>
        simp at total
        omega
    | @failed _ error => cases held (.error error) (by simp)
    | completed => cases held (.ok false) (by simp)
    | capped within givesUp endsIn => exact ⟨by simp [givesUp.runs_eq, within], endsIn⟩
  ends := by
    intro undisturbed result known
    cases stands with
    | testing => cases known
    | @failed _ error => exact absurd (by simp) (undisturbed.evaluated error)
    | running _ _ open_ => cases open_.symm.trans known
    | @stopped _ records own _ _ incomplete =>
        exact absurd (undisturbed.completed records own (by simp)) incomplete
    | @completed runs => exact .inl ⟨runs.length, by simp⟩
    | capped within givesUp => exact .inr (by simp [givesUp.tests_eq, within, List.replicate_succ'])

/-! ## Loops that test last -/

/-- The turns of a loop that tests last whose runs have completed and whose tests have not held. -/
def attempts : List (List Record) → List Turn
  | [] => []
  | records :: runs => .ran records (some (.ok .completed)) :: .tested (.ok false) :: attempts runs

/-- Where a loop stands that tests last, with its turns by then. -/
inductive UntilStands (program : Program) (loop : Activity) (limit : Nat) : List Turn → Thread → Prop where
  /-- Its body is running. -/
  | running {runs : List (List Record)} {records : List Record} {inner : Thread}
      (within : runs.length < limit) (inRun : program.InRun loop records) (open_ : inner.result? = none) :
      UntilStands program loop limit (attempts runs ++ [.ran records none]) inner
  /-- A run of its body failed or halted. -/
  | stopped {runs : List (List Record)} {records : List Record} {result : Result} {inner : Thread}
      (within : runs.length < limit) (incomplete : result ≠ .ok .completed) (endsIn : inner.EndsIn result) :
      UntilStands program loop limit (attempts runs ++ [.ran records (some result)]) inner
  /-- It is about to evaluate its condition. -/
  | testing {runs : List (List Record)} {records : List Record} {condition : String}
      {following : (Action.test condition).Reply → Task} (within : runs.length < limit)
      (isCondition : loop.condition = some condition) :
      UntilStands program loop limit (attempts runs ++ [.ran records (some (.ok .completed))])
        (.ready [] (.act (.test condition) following))
  /-- Its condition could not be evaluated. -/
  | failed {runs : List (List Record)} {records : List Record} {error : ActivityError} {inner : Thread}
      (within : runs.length < limit) (endsIn : inner.EndsIn (.error error)) :
      UntilStands program loop limit
        (attempts runs ++ [.ran records (some (.ok .completed)), .tested (.error error)]) inner
  /-- Its condition held. -/
  | completed {runs : List (List Record)} {records : List Record} {inner : Thread}
      (within : runs.length < limit) (endsIn : inner.EndsIn (.ok .completed)) :
      UntilStands program loop limit
        (attempts runs ++ [.ran records (some (.ok .completed)), .tested (.ok true)]) inner
  /-- Its condition did not hold, and it had had as many runs as it may. -/
  | capped {runs : List (List Record)} {told : List Turn} {inner : Thread} (within : runs.length = limit)
      (givesUp : program.GivesUp loop told) (endsIn : inner.EndsIn (.error (program.limitError loop))) :
      UntilStands program loop limit (attempts runs ++ told) inner

/-- After a run that completed and a test that did not hold it stands as with one run less to have. -/
theorem UntilStands.again (stands : program.UntilStands loop limit turns inner) (records : List Record) :
    program.UntilStands loop (limit + 1)
      (.ran records (some (.ok .completed)) :: .tested (.ok false) :: turns) inner := by
  cases stands with
  | @running runs _ _ within inRun open_ =>
      exact @UntilStands.running _ _ _ (records :: runs) _ _ (Nat.succ_lt_succ within) inRun open_
  | @stopped runs _ _ _ within incomplete endsIn =>
      exact @UntilStands.stopped _ _ _ (records :: runs) _ _ _ (Nat.succ_lt_succ within) incomplete endsIn
  | @testing runs _ _ _ within isCondition =>
      exact @UntilStands.testing _ _ _ (records :: runs) _ _ _ (Nat.succ_lt_succ within) isCondition
  | @failed runs _ _ _ within endsIn =>
      exact @UntilStands.failed _ _ _ (records :: runs) _ _ _ (Nat.succ_lt_succ within) endsIn
  | @completed runs _ _ within endsIn =>
      exact @UntilStands.completed _ _ _ (records :: runs) _ _ (Nat.succ_lt_succ within) endsIn
  | @capped runs _ _ within givesUp endsIn =>
      exact @UntilStands.capped _ _ _ (records :: runs) _ _ (congrArg Nat.succ within) givesUp endsIn

/-- Every execution of a loop that tests last stands somewhere. -/
theorem exists_untilStands (follows : inner.Follows program (program.runRepeatUntil loop limit) records) :
    ∃ turns, program.Takes loop turns records ∧ program.UntilStands loop limit turns inner := by
  induction limit generalizing records with
  | zero =>
      obtain ⟨told, takes, givesUp, endsIn⟩ := exists_givesUp follows
      exact ⟨told, takes, @UntilStands.capped _ _ _ [] _ _ rfl givesUp endsIn⟩
  | succ limit inductionHypothesis =>
      have within : ([] : List (List Record)).length < limit + 1 := Nat.succ_pos limit
      rcases follows.of_whenCompleted with ⟨open_, body, bodyFollows, going⟩ |
        ⟨result, incomplete, unfolds, endsIn⟩ | ⟨first, rest, rfl, unfolds, tests⟩
      · have unfolds := going.open_ ▸ bodyFollows.unfolds
        exact ⟨_, takes_run unfolds, .running within ⟨body, bodyFollows, going⟩ open_⟩
      · exact ⟨_, takes_run unfolds, .stopped within incomplete endsIn⟩
      rcases follows_testCondition tests with ⟨condition, following, isCondition, rfl, rfl⟩ |
        ⟨error, rfl, endsIn⟩ | ⟨holds, rest, rfl, continues⟩
      · exact ⟨_, takes_nil.run unfolds, .testing within isCondition⟩
      · exact ⟨_, (takes_singleton (.tested _) nofun).run unfolds, .failed within endsIn⟩
      · cases holds with
        | true =>
            obtain ⟨rfl, endsIn⟩ := continues.of_done
            exact ⟨_, (takes_nil.cons (.tested _) nofun).run unfolds, .completed within endsIn⟩
        | false =>
            obtain ⟨turns, takes, stands⟩ := inductionHypothesis continues
            exact ⟨_, (takes.cons (.tested _) nofun).run unfolds, stands.again first⟩

/-- A run of a loop that tests last stands in front of a test that did not hold. -/
@[simp]
theorem tests_attempts (runs : List (List Record)) :
    Turn.tests (attempts runs) = List.replicate runs.length (.ok false) := by
  induction runs with
  | nil => rfl
  | cons records runs inductionHypothesis => simp [attempts, inductionHypothesis, List.replicate_succ]

/-- Attempts have as many runs as they were made of. -/
@[simp]
theorem runs_attempts (runs : List (List Record)) : Turn.runs (attempts runs) = runs.length := by
  induction runs with
  | nil => rfl
  | cons records runs inductionHypothesis => simp [attempts, inductionHypothesis]

/-- What the tests of a loop that tests last say of its runs and of its end. -/
structure UntilCounts (program : Program) (loop : Activity) (limit : Nat) (turns : List Turn)
    (inner : Thread) : Prop where
  bounded : Turn.runs turns ≤ limit
  completes : ∀ count, Turn.tests turns = List.replicate count (.ok false) ++ [.ok true] →
    count + 1 ≤ limit ∧ Turn.runs turns = count + 1 ∧ inner.EndsIn (.ok .completed)
  exceeds : Turn.tests turns = List.replicate limit (.ok false) →
    Turn.runs turns = limit ∧ inner.EndsIn (.error (program.limitError loop))
  ends : Turn.Undisturbed turns → ∀ result, inner.result? = some result →
    (∃ count, Turn.tests turns = List.replicate count (.ok false) ++ [.ok true]) ∨
      Turn.tests turns = List.replicate limit (.ok false)

/-- Where a loop stands that tests last says how often it has tested and how often it has run. -/
theorem UntilStands.counts (stands : program.UntilStands loop limit turns inner) :
    program.UntilCounts loop limit turns inner where
  bounded := by
    cases stands with
    | running within | stopped within | testing within | failed within | completed within =>
        simpa using Nat.succ_le_of_lt within
    | capped within givesUp => simp [givesUp.runs_eq, within]
  completes := by
    intro count known
    have present : .ok true ∈ Turn.tests turns := by simp [known]
    have total := congrArg List.length known
    cases stands with
    | completed within endsIn =>
        obtain rfl : _ = count := by simpa using total
        exact ⟨within, by simp, endsIn⟩
    | capped _ givesUp => simp [givesUp.tests_eq] at present
    | _ => simp at present
  exceeds := by
    intro known
    have held : ∀ reply ∈ Turn.tests turns, reply = .ok false := by simp [known]
    have total := congrArg List.length known
    cases stands with
    | running within | stopped within | testing within =>
        simp at total
        omega
    | @failed _ _ error => cases held (.error error) (by simp)
    | completed => cases held (.ok true) (by simp)
    | capped within givesUp endsIn => exact ⟨by simp [givesUp.runs_eq, within], endsIn⟩
  ends := by
    intro undisturbed result known
    cases stands with
    | running _ _ open_ => cases open_.symm.trans known
    | @stopped _ records own _ _ incomplete =>
        exact absurd (undisturbed.completed records own (by simp)) incomplete
    | testing => cases known
    | @failed _ _ error => exact absurd (by simp) (undisturbed.evaluated error)
    | @completed runs => exact .inl ⟨runs.length, by simp⟩
    | capped within givesUp => exact .inr (by simp [givesUp.tests_eq, within])

end Program

open Snapshot (History stagesOf)

/-- Whenever a loop is executed, whatever its body does and whatever else happens to the variables: its body
runs as often as the limit allows at most. A loop that tests first completes after as many runs as there are
tests that hold before the first one that does not, and fails after as many runs as the limit allows if one
more test than that has held; a loop that tests last completes after as many runs as there are tests up to
the first one that holds, and fails after as many runs as the limit allows if none of as many tests has held.
It ends in no other way unless a run of its body fails or halts or its condition has no value, and as long as
it has not ended it goes on by itself. -/
theorem loops_keep_to_limit {settings : Settings} {naming : Naming} {now : Timestamp}
    {moments : List Snapshot.Moment} {state : Snapshot} {id : String} {situation : Situation}
    {run : Run} (history : History (.new settings naming now) moments state)
    (found : state.situation? id = some situation) (isRun : situation.run? = some run) :
    (∃ task records, run.Recorded (Stage.movesOf (stagesOf id moments)) task records) ∧
    ∀ task records, run.Recorded (Stage.movesOf (stagesOf id moments)) task records →
      ∀ loop role within ended?, (Record.executed loop role within ended?).Among records →
        (loop.kind = .whileLoop → ∃ turns inner,
          state.Stands id run.program loop role within ended? inner ∧
            run.program.Takes loop turns within ∧
              run.program.WhileStands loop run.program.settings.maxLoopIterations turns inner ∧
                run.program.WhileCounts loop run.program.settings.maxLoopIterations turns inner) ∧
        (loop.kind = .repeatUntil → ∃ turns inner,
          state.Stands id run.program loop role within ended? inner ∧
            run.program.Takes loop turns within ∧
              run.program.UntilStands loop run.program.settings.maxLoopIterations turns inner ∧
                run.program.UntilCounts loop run.program.settings.maxLoopIterations turns inner) := by
  refine ⟨(history.life found).hasRecord run isRun, ?_⟩
  intro task records recorded loop role within ended? among
  obtain ⟨inner, stands⟩ := history.exists_stands found isRun recorded among
  have follows := stands.follows
  constructor
  · intro isWhile
    rw [Program.body, isWhile] at follows
    obtain ⟨turns, takes, whileStands⟩ := Program.exists_whileStands follows
    exact ⟨turns, inner, stands, takes, whileStands, whileStands.counts⟩
  · intro isUntil
    rw [Program.body, isUntil] at follows
    obtain ⟨turns, takes, untilStands⟩ := Program.exists_untilStands follows
    exact ⟨turns, inner, stands, takes, untilStands, untilStands.counts⟩

namespace EndlessLoop

/-- Does nothing. -/
def step : Activity := { id := "step", kind := .empty }

/-- Runs its body as long as it may. -/
def main : Activity :=
  { id := "main", kind := .whileLoop, condition := some "true", children := ["step"] }

def definition : Definition := .ofActivities "p" "P" "main" [main, step]

/-- A loop may run its body once. -/
def settings : Settings := ⟨1, none⟩

/-- The program of the process. -/
def program : Program := ⟨definition, settings, ⟨0, 0⟩⟩

/-- How the loop fails. -/
def failure : ActivityError := .iterationLimit "main" .whileLoop 1

/-- What the loop does. -/
def within : List Record :=
  [.performed (.test "true") (.ok true), .performed .checkHalting false,
    .executed step .part [] (some (.ok .completed)), .performed (.test "true") (.ok true),
    .performed (.announce (.iterationCapHit "main" 1)) ()]

/-- The condition holds whatever the variables are. -/
theorem holds (scene : Scene) : (scene.perform (.test "true")).2 = .ok true := by
  have isTrue : Condition.ofText "true" = .disjunction [.conjunction [.literal (.ofBool true)]] := by
    with_unfolding_all rfl
  have evaluated : Condition.evaluate "true" scene.subject.bag = .ok true := by
    rw [Condition.evaluate, isTrue]
    rfl
  exact congrArg (Except.mapError ActivityError.expression) evaluated

/-- No run of the body fails or halts, and every test has a value. -/
theorem undisturbed {turns : List Turn} (takes : program.Takes main turns within) :
    Turn.Undisturbed turns where
  evaluated := by
    intro error present
    have failed : .performed (.test "true") (.error error) ∈ within :=
      takes.mem present List.mem_cons_self
    simp only [within, List.mem_cons, List.not_mem_nil] at failed
    rcases failed with same | same | same | same | same | same <;> cases same
  completed := by
    intro records result present
    have unhalted : .performed .checkHalting true ∉ records := by
      intro halted
      have halted : .performed .checkHalting true ∈ within := takes.mem present halted
      simp only [within, List.mem_cons, List.not_mem_nil] at halted
      rcases halted with same | same | same | same | same | same <;> cases same
    cases takes.runs records (some result) present with
    | @act _ _ halting _ _ continues =>
        cases halting with
        | true => exact absurd List.mem_cons_self unhalted
        | false =>
            change Task.Unfolds program ((Task.call step .part .done).whenCompleted .completed) _ _
              at continues
            cases continues with
            | call ended rest =>
                obtain ⟨_, rfl⟩ := ended.of_ended
                exact rest.of_ended.2

/-- The loop fails when it has run its body once. -/
theorem kept (events : Array Event) : ∃ nextScene thread,
    Thread.Kept program ⟨.new "i-1" "p" [] "oracle", events⟩ (program.run main) nextScene thread
        [.executed main .part within (some (.error failure))] ∧
      thread.Follows program (program.run main) [.executed main .part within (some (.error failure))] := by
  have kept := @Thread.Kept.refl program ⟨.new "i-1" "p" [] "oracle", events⟩ (program.run main)
  have kept := @Thread.Kept.enter _ _ _ _ _ [] _ _ _ _ kept
  have kept := @Thread.Kept.act_of_reply _ _ _ _ _ [_] _ _ _ _ kept (holds _)
  have kept := @Thread.Kept.act_of_reply _ _ _ _ _ [_] _ .checkHalting _ false kept rfl
  have kept := @Thread.Kept.enter _ _ _ _ _ [_] _ _ _ _ kept
  have kept := @Thread.Kept.leave _ _ _ _ _ [_] _ _ _ _ _ _ kept
  have kept := @Thread.Kept.act_of_reply _ _ _ _ _ [_] _ _ _ _ kept (holds _)
  have kept := @Thread.Kept.act _ _ _ _ _ [_] _ _ _ kept
  have kept := @Thread.Kept.leave _ _ _ _ _ [] _ _ _ _ _ _ kept
  have stepDone : (program.body step).Unfolds program [] (some (.ok .completed)) := .done
  have mainDone : (program.body main).Unfolds program within (some (.error failure)) :=
    .act (.act (.call stepDone (.act (.act .done))))
  exact ⟨_, _, kept, .call mainDone .ready⟩

end EndlessLoop

open EndlessLoop in
/-- A loop whose condition always holds has run its body once when it fails, where once is the limit. -/
theorem exists_loop_at_limit : ∃ moments state situation run task records turns,
    History (.new settings (.numbered "i-") ⟨0, 0⟩) moments state ∧
      state.situation? "i-1" = some situation ∧ situation.run? = some run ∧
        run.Recorded (Stage.movesOf (stagesOf "i-1" moments)) task records ∧
          (Record.executed main .part within (some (.error failure))).Among records ∧
            run.program.Takes main turns within ∧ Turn.runs turns = 1 := by
  obtain ⟨moments, state, situation, thread, history, found, isRun, recorded⟩ :=
    @History.exists_recorded program main _ (.numbered "i-") "oracle" rfl rfl kept
  have among : (Record.executed main .part within (some (.error failure))).Among
      [.executed main .part within (some (.error failure))] := .here List.mem_cons_self
  obtain ⟨turns, _, stands, takes, _, counts⟩ :=
    ((loops_keep_to_limit history found isRun).2 _ _ recorded main .part within _ among).1 rfl
  have once : Turn.runs turns = 1 := by
    rcases counts.ends (undisturbed takes) _ stands.known with ⟨count, fails⟩ | holds
    · obtain ⟨_, _, endsIn⟩ := counts.completes count fails
      cases endsIn.eq_of_result? stands.known
    · exact (counts.exceeds holds).1
  exact ⟨moments, _, _, _, _, _, turns, history, found, isRun, recorded, among, takes, once⟩

end Orchestration
