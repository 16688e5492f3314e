import Orchestration.Proofs.Programs
import Orchestration.Proofs.Records

/-!
# What did not complete ends a task

Everything that is done of a task ends in some way: an action by its reply, an execution and branches by
their results. The tasks of all activities but scopes go on only after what completed. What failed or
halted is the last that they do, and they end as it did.
-/

namespace Orchestration

namespace Action

/-- The actions that have to do with nothing but the variables, the checkpoints and the events. -/
def isPlain : Action → Bool
  | .checkHalting => true
  | .test _ => true
  | .measure _ => true
  | .write .. => true
  | .assign _ => true
  | .invoke _ => true
  | .receive _ => true
  | .respond _ => true
  | .read _ => true
  | .announce _ => true
  | _ => false

end Action

/-- The actions that an activity of a kind may perform itself. -/
def ActivityKind.performs (kind : ActivityKind) (action : Action) : Bool :=
  action.isPlain ||
    match kind, action with
    | .exit, .exit _ => true
    | .rethrow, .currentFault => true
    | .scope, .catchFault .. => true
    | .scope, .clearFault => true
    | .compensate, .plan .. => true
    | .compensate, .markCompensated _ => true
    | .compensateScope, .plan .. => true
    | .compensateScope, .markCompensated _ => true
    | _, _ => false

namespace Record

/-- How something that was done ended, if it did. A handler that undoes a scope counts as completed
unless it failed, because whoever called it does not look. -/
def result? : Record → Option Result
  | .performed action reply => some (action.result reply)
  | .executed _ (.undoing _) _ (some (.ok _)) => some (.ok .completed)
  | .executed _ _ _ result? => result?
  | .branched sides => (sides.mapM Prod.snd).map Result.merge

/-- That nothing was done before, or something that completed. -/
def Passes (last? : Option Record) : Prop :=
  ∀ last, last? = some last → last.result? = some (.ok .completed)

/-- At the beginning of a task nothing stands in its way. -/
theorem passes_none : Passes none := nofun

/-- What completed does not stand in the way of what follows. -/
theorem passes_some {last : Record} (completed : last.result? = some (.ok .completed)) :
    Passes (some last) := by
  rintro _ isLast
  cases isLast
  exact completed

/-- Branches that have all ended are merged. -/
theorem result?_branched_iff {sides : List (List Record × Option Result)} {result : Result} :
    (Record.branched sides).result? = some result ↔
      ∃ results, sides.map Prod.snd = results.map some ∧ Result.merge results = result := by
  have known (results : List Result) :
      sides.mapM Prod.snd = some results ↔ sides.map Prod.snd = results.map some := by
    induction sides generalizing results with
    | nil => cases results <;> simp
    | cons side sides inductionHypothesis =>
        cases results with
        | nil => simp [List.mapM_cons, Option.bind_eq_some_iff]
        | cons first results =>
            simp [List.mapM_cons, Option.bind_eq_some_iff, ← inductionHypothesis]
  simp only [result?, Option.map_eq_some_iff, known]

end Record

/-- That a task keeps to the order. The first of the two is which actions it may perform, and the second
what it has done last. Its branches may perform plain actions only. -/
inductive Task.Orderly : (Action → Bool) → Option Record → Task → Prop where
  /-- What did not complete ends the task. -/
  | ended {permitted : Action → Bool} {last : Record} {result : Result}
      (stops : last.result? = some result) (incomplete : result ≠ .ok .completed) :
      Orderly permitted (some last) (.done result)
  /-- A task that is not ended so completes, or fails of itself. -/
  | done {permitted : Action → Bool} {last? : Option Record} {result : Result}
      (passes : Record.Passes last?) (unhalted : result ≠ .ok .halted) :
      Orderly permitted last? (.done result)
  | act {permitted : Action → Bool} {last? : Option Record} {action : Action}
      {next : action.Reply → Task} (passes : Record.Passes last?) (allowed : permitted action = true)
      (continues : ∀ reply, Orderly permitted (some (.performed action reply)) (next reply)) :
      Orderly permitted last? (.act action next)
  | call {permitted : Action → Bool} {last? : Option Record} {activity : Activity} {role : Role}
      {next : Result → Task} (passes : Record.Passes last?)
      (continues : ∀ within result,
        Orderly permitted (some (.executed activity role within (some result))) (next result)) :
      Orderly permitted last? (.call activity role next)
  | wait {permitted : Action → Bool} {last? : Option Record} {duration : Duration} {next : Task}
      (continues : Orderly permitted last? next) : Orderly permitted last? (.wait duration next)
  | fork {permitted : Action → Bool} {last? : Option Record} {branches : List Task}
      {join : List Result → Task} (passes : Record.Passes last?)
      (begins : ∀ branch ∈ branches, Orderly Action.isPlain none branch)
      (continues : ∀ (sides : List (List Record × Option Result)) (results : List Result),
        sides.map Prod.snd = results.map some →
          Orderly permitted (some (.branched sides)) (join results)) :
      Orderly permitted last? (.fork branches join)

namespace Task.Orderly

variable {permitted : Action → Bool} {last? : Option Record} {task : Task}

/-- A second task keeps to the order after a first one, if it does after whatever the first ended
with. -/
theorem bind {next : Result → Task} (orderly : task.Orderly permitted last?)
    (continues : ∀ last? result, (Task.done result).Orderly permitted last? →
      (next result).Orderly permitted last?) :
    (task.bind next).Orderly permitted last? := by
  induction orderly with
  | ended stops incomplete => exact continues _ _ (.ended stops incomplete)
  | done passes unhalted => exact continues _ _ (.done passes unhalted)
  | act passes allowed _ inductionHypothesis =>
      exact .act passes allowed fun reply => inductionHypothesis reply continues
  | call passes _ inductionHypothesis =>
      exact .call passes fun within result => inductionHypothesis within result continues
  | wait _ inductionHypothesis => exact .wait (inductionHypothesis continues)
  | fork passes begins _ _ inductionHypothesis =>
      exact .fork passes begins fun sides results ended =>
        inductionHypothesis sides results ended continues

/-- A task goes on with a second one if it completed. -/
theorem whenCompleted {next : Task} (orderly : task.Orderly permitted last?)
    (continues : ∀ last?, Record.Passes last? → next.Orderly permitted last?) :
    (task.whenCompleted next).Orderly permitted last? := by
  refine orderly.bind fun last? result ended => ?_
  rcases result with error | outcome
  · exact ended
  · cases outcome with
    | halted => exact ended
    | completed =>
        cases ended with
        | ended _ incomplete => exact absurd rfl incomplete
        | done passes => exact continues _ passes

/-- A task may complete behind what completed. -/
theorem completed (passes : Record.Passes last?) : Task.completed.Orderly permitted last? :=
  .done passes nofun

/-- A task may fail of itself behind what completed. -/
theorem failed (passes : Record.Passes last?) (error : ActivityError) :
    (Task.failed error).Orderly permitted last? :=
  .done passes nofun

/-- A task ends as its only call does. -/
theorem callOnly {activity : Activity} (passes : Record.Passes last?) :
    (Task.call activity .part .done).Orderly permitted last? := by
  refine .call passes fun within result => ?_
  by_cases incomplete : result = .ok .completed
  · rw [incomplete]
    exact .done (Record.passes_some rfl) nofun
  · exact .ended rfl incomplete

/-- A task fails of itself, or goes on with a value. -/
theorem ofExcept {α : Type} {next : α → Task} (passes : Record.Passes last?)
    (computed : Except ActivityError α) (continues : ∀ value, (next value).Orderly permitted last?) :
    (Task.ofExcept computed next).Orderly permitted last? := by
  cases computed with
  | ok value => exact continues value
  | error error => exact failed passes error

/-- A task goes on with what an action computed, and fails if the action did. -/
theorem compute {α : Type} {next : α → Task} (passes : Record.Passes last?) (action : Action)
    (allowed : permitted action = true) (computed : action.Reply → Except ActivityError α)
    (ends : ∀ reply, action.result reply = (computed reply).map fun _ => .completed)
    (continues : ∀ last?, Record.Passes last? → ∀ value, (next value).Orderly permitted last?) :
    (Task.act action fun reply => .ofExcept (computed reply) next).Orderly permitted last? := by
  refine .act passes allowed fun reply => ?_
  have result : (Record.performed action reply).result? =
      some ((computed reply).map fun _ => .completed) := congrArg some (ends reply)
  cases known : computed reply with
  | ok value =>
      rw [known] at result
      exact continues _ (Record.passes_some result) value
  | error error =>
      rw [known] at result
      exact .ended result nofun

/-- Letting an event be known completes, so a task goes on behind it. -/
theorem announce {event : Event} {next : Task} (passes : Record.Passes last?)
    (allowed : permitted (.announce event) = true)
    (continues : ∀ last?, Record.Passes last? → next.Orderly permitted last?) :
    (Task.announce event next).Orderly permitted last? :=
  .act passes allowed fun _ => continues _ (Record.passes_some rfl)

/-- Branches are merged, and their merge is how they ended. -/
theorem fork_merge {branches : List Task} (passes : Record.Passes last?)
    (begins : ∀ branch ∈ branches, branch.Orderly Action.isPlain none) :
    (Task.fork branches fun results => .done (Result.merge results)).Orderly permitted last? := by
  refine .fork passes begins fun sides results ended => ?_
  have result := Record.result?_branched_iff.mpr ⟨results, ended, rfl⟩
  by_cases incomplete : Result.merge results = .ok .completed
  · rw [incomplete] at result ⊢
    exact .done (Record.passes_some result) nofun
  · exact .ended result incomplete

end Task.Orderly

namespace Program

variable {program : Program} {permitted : Action → Bool} {last? : Option Record}

/-- Looking an activity up fails of itself, or goes on. -/
theorem orderly_lookup {id : String} {next : Activity → Task} (passes : Record.Passes last?)
    (continues : ∀ activity, (next activity).Orderly permitted last?) :
    (program.lookup id next).Orderly permitted last? := by
  unfold lookup
  split
  · exact continues _
  · exact .failed passes _

section Plain

variable (plain : ∀ action, action.isPlain = true → permitted action = true)

include plain

/-- A sequence goes on with a child when the one before it has completed. -/
theorem orderly_runSequence (children : List String) (passes : Record.Passes last?) :
    (program.runSequence children).Orderly permitted last? := by
  induction children generalizing last? with
  | nil => exact .completed passes
  | cons child children inductionHypothesis =>
      refine .act passes (plain _ rfl) fun halting => ?_
      change Bool at halting
      cases halting with
      | true => exact .ended rfl nofun
      | false =>
          have passes : Record.Passes (some (.performed .checkHalting false)) :=
            Record.passes_some rfl
          exact orderly_lookup passes fun _ =>
            (Task.Orderly.callOnly passes).whenCompleted fun _ => inductionHypothesis

omit plain in
/-- A flow ends as its branches do. -/
theorem orderly_runFlow (children : List String) (passes : Record.Passes last?) :
    (program.runFlow children).Orderly permitted last? := by
  refine .ofExcept passes _ fun branches => .fork_merge passes fun task present => ?_
  obtain ⟨branch, _, rfl⟩ := List.mem_map.mp present
  exact .callOnly Record.passes_none

/-- A task goes on behind a test that has a value. -/
theorem orderly_testCondition {activity : Activity} {next : Bool → Task}
    (passes : Record.Passes last?)
    (continues : ∀ last?, Record.Passes last? → ∀ holds, (next holds).Orderly permitted last?) :
    (testCondition activity next).Orderly permitted last? := by
  unfold testCondition
  cases activity.condition with
  | none => exact .failed passes _
  | some condition => exact .compute passes (.test condition) (plain _ rfl) id (fun _ => rfl) continues

/-- A choice ends as the side does that it takes. -/
theorem orderly_runChoice (activity : Activity) (passes : Record.Passes last?) :
    (program.runChoice activity).Orderly permitted last? := by
  refine orderly_testCondition plain passes fun _ passes holds => ?_
  split
  · exact orderly_lookup passes fun _ => .callOnly passes
  · exact .completed passes

/-- Giving up is a failure behind an event. -/
theorem orderly_hitIterationCap (activity : Activity) (passes : Record.Passes last?) :
    (program.hitIterationCap activity).Orderly permitted last? :=
  .announce passes (plain _ rfl) fun _ passes => .failed passes _

/-- A loop that tests first goes on behind a run that completed. -/
theorem orderly_runWhile (activity : Activity) (remaining : Nat) (passes : Record.Passes last?) :
    (program.runWhile activity remaining).Orderly permitted last? := by
  induction remaining generalizing last? with
  | zero =>
      refine orderly_testCondition plain passes fun _ passes holds => ?_
      cases holds with
      | true => exact orderly_hitIterationCap plain activity passes
      | false => exact .completed passes
  | succ remaining inductionHypothesis =>
      refine orderly_testCondition plain passes fun _ passes holds => ?_
      cases holds with
      | true =>
          exact (orderly_runSequence plain _ passes).whenCompleted fun _ => inductionHypothesis
      | false => exact .completed passes

/-- A loop that tests last goes on behind a run that completed. -/
theorem orderly_runRepeatUntil (activity : Activity) (remaining : Nat)
    (passes : Record.Passes last?) :
    (program.runRepeatUntil activity remaining).Orderly permitted last? := by
  induction remaining generalizing last? with
  | zero => exact orderly_hitIterationCap plain activity passes
  | succ remaining inductionHypothesis =>
      refine (orderly_runSequence plain _ passes).whenCompleted fun _ passes =>
        orderly_testCondition plain passes fun _ passes holds => ?_
      cases holds with
      | true => exact .completed passes
      | false => exact inductionHypothesis passes

/-- A task goes on behind a measurement that has a value. -/
theorem orderly_measureBound {activity : Activity} {bound : Option LoopBound} {field : String}
    {next : Int → Task} (passes : Record.Passes last?)
    (continues : ∀ last?, Record.Passes last? → ∀ value, (next value).Orderly permitted last?) :
    (measureBound activity bound field next).Orderly permitted last? := by
  unfold measureBound
  rcases bound with _ | ⟨value⟩ | ⟨text⟩
  · exact .failed passes _
  · exact continues _ passes value
  · exact .compute passes (.measure text) (plain _ rfl) id (fun _ => rfl) continues

/-- A task goes on behind a write that was not refused. -/
theorem orderly_writeCounter {counter : String} {index : Int} {next : Task}
    (passes : Record.Passes last?)
    (continues : ∀ last?, Record.Passes last? → next.Orderly permitted last?) :
    (writeCounter counter index next).Orderly permitted last? :=
  .compute passes (.write counter (.integer index)) (plain _ rfl) id (fun _ => rfl)
    fun _ passes _ => continues _ passes

/-- A counted loop goes on behind a run that completed. -/
theorem orderly_runIterations (counter : String) (children : List String) (count : Nat)
    (index : Int) (passes : Record.Passes last?) :
    (program.runIterations counter children count index).Orderly permitted last? := by
  induction count generalizing index last? with
  | zero => exact .completed passes
  | succ count inductionHypothesis =>
      refine .act passes (plain _ rfl) fun halting => ?_
      change Bool at halting
      cases halting with
      | true => exact .ended rfl nofun
      | false =>
          refine orderly_writeCounter plain (Record.passes_some rfl) fun _ passes => ?_
          exact (orderly_runSequence plain _ passes).whenCompleted fun _ =>
            inductionHypothesis (index + 1)

omit plain in
/-- Runs side by side end as they do together. -/
theorem orderly_runIterationsInParallel (counter : String) (children : List String) (count : Nat)
    (start : Int) (passes : Record.Passes last?) :
    (program.runIterationsInParallel counter children count start).Orderly permitted last? := by
  refine .fork_merge passes fun task present => ?_
  obtain ⟨offset, _, rfl⟩ := List.mem_map.mp present
  exact orderly_writeCounter (fun _ => id) Record.passes_none fun _ => orderly_runFlow children

/-- A counted loop does either. -/
theorem orderly_runForEach (activity : Activity) (passes : Record.Passes last?) :
    (program.runForEach activity).Orderly permitted last? := by
  unfold runForEach
  cases activity.counterVariable with
  | none => exact .failed passes _
  | some counter =>
      refine orderly_measureBound plain passes fun _ passes start =>
        orderly_measureBound plain passes fun _ passes finish => ?_
      dsimp only
      split
      · exact orderly_hitIterationCap plain activity passes
      · split
        · exact orderly_runIterationsInParallel counter _ _ start passes
        · exact orderly_runIterations plain counter _ _ start passes

/-- A pick ends as its branch does. -/
theorem orderly_runPick (activity : Activity) (passes : Record.Passes last?) :
    (program.runPick activity).Orderly permitted last? := by
  unfold runPick
  cases activity.eventHandlers with
  | nil => exact .completed passes
  | cons branch others =>
      exact .announce passes (plain _ rfl) fun _ passes =>
        orderly_lookup passes fun _ => .callOnly passes

omit plain in
/-- An activity that is one action ends as the action does. -/
theorem orderly_runAction (passes : Record.Passes last?) (action : Action)
    (allowed : permitted action = true) (reply : action.Reply → Except ActivityError Unit)
    (ends : ∀ answer, action.result answer = (reply answer).map fun _ => .completed) :
    (runAction action reply).Orderly permitted last? :=
  .compute passes action allowed reply ends fun _ passes _ => .completed passes

/-- A wait completes. -/
theorem orderly_runWait (activity : Activity) (passes : Record.Passes last?) :
    (program.runWait activity).Orderly permitted last? :=
  .ofExcept passes _ fun _ =>
    .announce passes (plain _ rfl) fun _ passes => .wait (.completed passes)

/-- Throwing is a failure of itself. -/
theorem orderly_runThrow (activity : Activity) (passes : Record.Passes last?) :
    (runThrow activity).Orderly permitted last? := by
  unfold runThrow
  cases activity.faultVariable with
  | none => exact .failed passes _
  | some path => exact .act passes (plain _ rfl) fun _ => .failed (Record.passes_some rfl) _

/-- A handler that undoes a scope passes unless it fails. -/
theorem orderly_runPlan (marks : ∀ scopeId, permitted (.markCompensated scopeId) = true)
    (steps : List CompensationStep) (passes : Record.Passes last?) :
    (program.runPlan steps).Orderly permitted last? := by
  induction steps generalizing last? with
  | nil => exact .completed passes
  | cons step steps inductionHypothesis =>
      refine orderly_lookup passes fun handler => ?_
      refine .announce passes (plain _ rfl) fun _ passes => .call passes fun within result => ?_
      cases result with
      | error error => exact .ended rfl nofun
      | ok outcome =>
          refine .act (Record.passes_some rfl) (marks _) fun _ => ?_
          exact inductionHypothesis (Record.passes_some rfl)

/-- Undoing goes on with a handler when the one before it did not fail. -/
theorem orderly_compensateScopes (marks : ∀ scopeId, permitted (.markCompensated scopeId) = true)
    (plans : ∀ definition target, permitted (.plan definition target) = true)
    (target : Option String) (passes : Record.Passes last?) :
    (program.compensateScopes target).Orderly permitted last? :=
  .act passes (plans _ _) fun steps =>
    orderly_runPlan plain marks steps (Record.passes_some rfl)

end Plain

/-- The activity of any kind but a scope keeps to the order. -/
theorem orderly_body {activity : Activity} (notScope : activity.kind ≠ .scope) :
    (program.body activity).Orderly activity.kind.performs none := by
  have passes := Record.passes_none
  have plain (action : Action) (isPlain : action.isPlain = true) :
      activity.kind.performs action = true := by
    simp [ActivityKind.performs, isPlain]
  unfold body
  cases kind : activity.kind with
  | sequence => exact orderly_runSequence (kind ▸ plain) _ passes
  | flow => exact orderly_runFlow _ passes
  | choice => exact orderly_runChoice (kind ▸ plain) activity passes
  | whileLoop => exact orderly_runWhile (kind ▸ plain) activity _ passes
  | repeatUntil => exact orderly_runRepeatUntil (kind ▸ plain) activity _ passes
  | forEach => exact orderly_runForEach (kind ▸ plain) activity passes
  | pick => exact orderly_runPick (kind ▸ plain) activity passes
  | invoke => exact orderly_runAction passes (.invoke activity) rfl id fun _ => rfl
  | receive => exact orderly_runAction passes (.receive activity) rfl id fun _ => rfl
  | reply => exact orderly_runAction passes (.respond activity) rfl _ fun _ => rfl
  | assign => exact orderly_runAction passes (.assign activity.copies) rfl id fun _ => rfl
  | wait => exact orderly_runWait (kind ▸ plain) activity passes
  | throw => exact orderly_runThrow (kind ▸ plain) activity passes
  | rethrow =>
      refine .act passes rfl fun current => ?_
      change Option Fault at current
      cases current <;> exact .failed (Record.passes_some rfl) _
  | scope => exact absurd kind notScope
  | compensate =>
      exact orderly_compensateScopes (kind ▸ plain) (fun _ => rfl) (fun _ _ => rfl) _ passes
  | compensateScope =>
      exact orderly_compensateScopes (kind ▸ plain) (fun _ => rfl) (fun _ _ => rfl) _ passes
  | empty => exact .completed passes
  | validate => exact .completed passes
  | exit => exact .act passes rfl fun _ => .ended rfl nofun
  | unsupported => exact .failed passes _

end Program

namespace Record

/-- That the sides of a fork have so much done of tasks that keep to the order. -/
def OrderlySides (program : Program) : Record → Prop
  | .branched sides => ∀ side ∈ sides, ∃ branch : Task,
      branch.Orderly Action.isPlain none ∧ branch.Unfolds program side.1 side.2
  | _ => True

/-- That something was done which a task may do. -/
def Permitted (permitted : Action → Bool) : Record → Prop
  | .performed action _ => permitted action = true
  | _ => True

/-- That records were kept in order: nothing comes after what did not complete, and the result is how
that ended. The first is what was done last before. -/
inductive Ordered (program : Program) (permitted : Action → Bool) :
    Option Record → List Record → Option Result → Prop where
  | rest {last? : Option Record} : Ordered program permitted last? [] none
  | ended {last : Record} {result : Result} (stops : last.result? = some result)
      (incomplete : result ≠ .ok .completed) : Ordered program permitted (some last) [] (some result)
  | done {last? : Option Record} {result : Result} (passes : Passes last?)
      (unhalted : result ≠ .ok .halted) : Ordered program permitted last? [] (some result)
  | next {last? : Option Record} {record : Record} {records : List Record} {result? : Option Result}
      (passes : Passes last?) (allowed : record.Permitted permitted)
      (sides : record.OrderlySides program)
      (continues : Ordered program permitted (some record) records result?) :
      Ordered program permitted last? (record :: records) result?

end Record

section Ordered

variable {program : Program} {permitted : Action → Bool} {last? : Option Record}
  {records : List Record} {result? : Option Result}

/-- What was done of each branch of a fork is what was done of its sides. -/
theorem Record.orderlySides_branched {branches : List Task}
    {sides : List (List Record × Option Result)}
    (begins : ∀ branch ∈ branches, branch.Orderly Action.isPlain none)
    (paired : sides.length = branches.length)
    (unfold : ∀ (index : Nat) (branch : Task) (side : List Record × Option Result),
      branches[index]? = some branch → sides[index]? = some side →
        branch.Unfolds program side.1 side.2) :
    (Record.branched sides).OrderlySides program := by
  intro side present
  obtain ⟨index, branch, isSide, isBranch⟩ := exists_getElem?_of_mem paired present
  exact ⟨branch, begins _ (List.mem_of_getElem? isBranch), unfold index _ side isBranch isSide⟩

/-- What is done of a task that keeps to the order is in order. -/
theorem Task.Orderly.ordered {task : Task} (orderly : task.Orderly permitted last?)
    (unfolds : task.Unfolds program records result?) :
    Record.Ordered program permitted last? records result? := by
  induction unfolds generalizing last? with
  | rest => exact .rest
  | done =>
      cases orderly with
      | ended stops incomplete => exact .ended stops incomplete
      | done passes unhalted => exact .done passes unhalted
  | act _ inductionHypothesis =>
      cases orderly with
      | act passes allowed continues =>
          exact .next passes allowed trivial (inductionHypothesis (continues _))
  | inside =>
      cases orderly with
      | call passes _ => exact .next passes trivial trivial .rest
  | call _ _ _ inductionHypothesis =>
      cases orderly with
      | call passes continues =>
          exact .next passes trivial trivial (inductionHypothesis (continues _ _))
  | wait _ inductionHypothesis =>
      cases orderly with
      | wait continues => exact inductionHypothesis continues
  | aside paired unfold =>
      cases orderly with
      | fork passes begins _ =>
          exact .next passes trivial (Record.orderlySides_branched begins paired unfold) .rest
  | fork paired ended unfold _ _ inductionHypothesis =>
      cases orderly with
      | fork passes begins continues =>
          exact .next passes trivial (Record.orderlySides_branched begins paired unfold)
            (inductionHypothesis (continues _ _ ended))

namespace Record.Ordered

/-- What comes after a record of records that were kept in order is in order after it. -/
theorem behind {before after : List Record} {record : Record}
    (ordered : Ordered program permitted last? (before ++ record :: after) result?) :
    Ordered program permitted (some record) after result? := by
  induction before generalizing last? with
  | nil =>
      cases ordered with
      | next _ _ _ continues => exact continues
  | cons first before inductionHypothesis =>
      cases ordered with
      | next _ _ _ continues => exact inductionHypothesis continues

/-- Everything that was done was permitted, and the sides of forks are in order. -/
theorem of_mem {record : Record} (ordered : Ordered program permitted last? records result?)
    (present : record ∈ records) :
    record.Permitted permitted ∧ record.OrderlySides program := by
  induction ordered with
  | rest => cases present
  | ended => cases present
  | done => cases present
  | next _ allowed sides _ inductionHypothesis =>
      rcases List.mem_cons.mp present with rfl | inRest
      · exact ⟨allowed, sides⟩
      · exact inductionHypothesis inRest

/-- Everything that was done has ended once there is a result. -/
theorem ended_of_mem {record : Record} {result : Result}
    (ordered : Ordered program permitted last? records (some result)) (present : record ∈ records) :
    ∃ ended, record.result? = some ended := by
  obtain ⟨before, after, rfl⟩ := List.append_of_mem present
  cases ordered.behind with
  | ended stops => exact ⟨_, stops⟩
  | done passes => exact ⟨_, passes record rfl⟩
  | next passes => exact ⟨_, passes record rfl⟩

/-- What did not complete is the last that was done, and how it ended is the result. -/
theorem of_incomplete {before after : List Record} {record : Record} {result : Result}
    (ordered : Ordered program permitted last? (before ++ record :: after) result?)
    (stops : record.result? = some result) (incomplete : result ≠ .ok .completed) :
    after = [] ∧ (result? = none ∨ result? = some result) := by
  have impassable : ¬ Passes (some record) := by
    intro passes
    exact incomplete (Option.some.inj (stops.symm.trans (passes record rfl)))
  cases ordered.behind with
  | rest => exact ⟨rfl, .inl rfl⟩
  | ended known =>
      cases stops.symm.trans known
      exact ⟨rfl, .inr rfl⟩
  | done passes => exact absurd passes impassable
  | next passes => exact absurd passes impassable

/-- What did not complete is the last of the records that ended before others, or one of the others. -/
theorem of_incomplete_append {before after first rest : List Record} {record : Record}
    {ended result : Result} (ordered : Ordered program permitted last? first (some ended))
    (placed : before ++ record :: after = first ++ rest) (stops : record.result? = some result)
    (incomplete : result ≠ .ok .completed) :
    record ∈ rest ∨ (first = before ++ [record] ∧ rest = after ∧ ended = result) := by
  rcases List.append_eq_append_iff.mp placed with ⟨extra, isFirst, isRest⟩ | ⟨extra, _, isRest⟩
  · cases extra with
    | nil =>
        obtain rfl : record :: after = rest := isRest
        exact .inl List.mem_cons_self
    | cons head extra =>
        obtain ⟨rfl, rfl⟩ := List.cons.inj isRest
        subst isFirst
        obtain ⟨rfl, same⟩ := ordered.of_incomplete stops incomplete
        exact .inr ⟨rfl, rfl, by simpa using same⟩
  · exact .inl (by simp [isRest])

/-- Records that have a result end with something that ended. It has that result, unless it completed:
then nothing halted. -/
theorem of_ended {before : List Record} {record : Record} {result : Result}
    (ordered : Ordered program permitted last? (before ++ [record]) (some result)) :
    record.result? = some result ∨
      (record.result? = some (.ok .completed) ∧ result ≠ .ok .halted) := by
  cases ordered.behind with
  | ended stops => exact .inl stops
  | done passes unhalted => exact .inr ⟨passes record rfl, unhalted⟩

end Record.Ordered

end Ordered

end Orchestration
