import Orchestration.Engine.Step
import Orchestration.Scenario.Basic

/-!
# What a scenario can reach

A scenario makes its requests in one order and lets jobs move in one order. By `Engine.steps_play` all
that comes of it comes of the transitions of engines, so what holds after every sequence of transitions
holds in every scenario.
-/

namespace Orchestration

open Snapshot (Steps)

mutual

/-- The runs of a job that are under way. -/
def Job.runs : Job → List Run
  | .underWay _ run => [run]
  | .together main during => main.runs ++ Job.runsOfAll during
  | .scheduled .. => []
  | .answered _ => []

/-- The runs of jobs, in the order of the jobs. -/
def Job.runsOfAll : List Job → List Run
  | [] => []
  | job :: jobs => job.runs ++ Job.runsOfAll jobs

end

namespace Engine

/-- An operation that settles at once has nothing under way. -/
theorem runs_settle (engine : Engine) (changed : Except Refusal Engine) :
    (engine.settle changed).2.runs = [] := by
  cases changed <;> rfl

/-- An operation that settles at once is one transition, or none if it is refused. -/
theorem steps_settle (engine : Engine) (changed : Except Refusal Engine) (runs : List Run)
    (transition : ∀ next, changed = .ok next →
      ∃ occurrence, Snapshot.Step ⟨engine, runs⟩ occurrence ⟨next, runs⟩) :
    Steps ⟨engine, runs⟩ ⟨(engine.settle changed).1, runs⟩ := by
  cases changed with
  | ok next =>
      obtain ⟨_, made⟩ := transition next rfl
      exact .single made
  | error refusal => exact .refl

/-- Starting an instance is one transition, or none if it is refused. -/
theorem steps_settleStart (now : Nat) (engine : Engine) (processId initiatedBy : String)
    (input : Bag) (before after : List Run) :
    let settled := engine.settleStart now (engine.start processId input initiatedBy)
    Steps ⟨engine, before ++ after⟩ ⟨settled.1, before ++ settled.2.runs ++ after⟩ := by
  cases accepted : engine.start processId input initiatedBy with
  | error refusal => simpa [settleStart, Job.runs] using Steps.refl
  | ok begun =>
      obtain ⟨next, run⟩ := begun
      have transition : Snapshot.Step ⟨engine, before ++ after⟩
          (.done run.instanceId (.began run.purpose)) ⟨next, before ++ run :: after⟩ :=
        .start rfl accepted
      simpa [settleStart, Job.runs] using Steps.single transition

/-- Beginning to undo an instance is one transition, or none if it is refused. -/
theorem steps_settleCompensate (now : Nat) (engine : Engine) (instanceId : String)
    (before after : List Run) :
    let settled := engine.settleCompensate now instanceId (engine.compensate instanceId)
    Steps ⟨engine, before ++ after⟩ ⟨settled.1, before ++ settled.2.runs ++ after⟩ := by
  cases accepted : engine.compensate instanceId with
  | error refusal => simpa [settleCompensate, Job.runs] using Steps.refl
  | ok begun =>
      obtain ⟨next, run⟩ := begun
      have transition : Snapshot.Step ⟨engine, before ++ after⟩
          (.done instanceId (.began run.purpose)) ⟨next, before ++ run :: after⟩ :=
        .compensate rfl accepted
      simpa [settleCompensate, Job.runs] using Steps.single transition

/-- A request is one transition, or none if it only asks or is refused. -/
theorem steps_request (now : Nat) (engine : Engine) (request : Request)
    (before after : List Run) :
    Steps ⟨engine, before ++ after⟩
      ⟨(engine.request now request).1, before ++ (engine.request now request).2.runs ++ after⟩ := by
  have settles (changed : Except Refusal Engine)
      (transition : ∀ next, changed = .ok next →
        ∃ occurrence, Snapshot.Step ⟨engine, before ++ after⟩ occurrence ⟨next, before ++ after⟩) :
      Steps ⟨engine, before ++ after⟩
        ⟨(engine.settle changed).1, before ++ (engine.settle changed).2.runs ++ after⟩ := by
    simpa [runs_settle] using steps_settle engine changed (before ++ after) transition
  have answers (next : Engine) (steps : Steps ⟨engine, before ++ after⟩ ⟨next, before ++ after⟩) :
      Steps ⟨engine, before ++ after⟩ ⟨next, before ++ [] ++ after⟩ := by
    simpa using steps
  cases request with
  | deploy definition =>
      cases definition with
      | ok definition => exact settles _ fun _ accepted => ⟨_, .deploy accepted⟩
      | error failure => exact answers engine .refl
  | undeploy processId => exact settles _ fun _ accepted => ⟨_, .undeploy accepted⟩
  | start processId input initiatedBy =>
      exact steps_settleStart now engine processId initiatedBy input before after
  | suspend instanceId => exact settles _ fun _ accepted => ⟨_, .suspend accepted⟩
  | resume instanceId => exact settles _ fun _ accepted => ⟨_, .resume accepted⟩
  | terminate instanceId => exact settles _ fun _ accepted => ⟨_, .terminate accepted⟩
  | compensate instanceId => exact steps_settleCompensate now engine instanceId before after
  | onCompleted callback => exact answers _ (.single .watchCompleted)
  | onFaulted callback => exact answers _ (.single .watchFaulted)
  | _ => exact answers engine .refl

end Engine

namespace Job

/-- What a way of moving jobs does, it does by transitions, whatever else is under way. -/
def MovesBySteps (move : Engine → Job → Engine × Job) : Prop :=
  ∀ (engine : Engine) (job : Job) (before after : List Run),
    Steps ⟨engine, before ++ job.runs ++ after⟩
      ⟨(move engine job).1, before ++ (move engine job).2.runs ++ after⟩

/-- Moving jobs one after another moves all of them. -/
theorem steps_advanceAll {move : Engine → Job → Engine × Job} (movesBySteps : MovesBySteps move)
    (engine : Engine) (jobs : List Job) (before after : List Run) :
    Steps ⟨engine, before ++ runsOfAll jobs ++ after⟩
      ⟨(advanceAll move engine jobs).1,
        before ++ runsOfAll (advanceAll move engine jobs).2 ++ after⟩ := by
  induction jobs generalizing engine before with
  | nil => exact .refl
  | cons job jobs inductionHypothesis =>
      have first := movesBySteps engine job before (runsOfAll jobs ++ after)
      have rest := inductionHypothesis (move engine job).1 (before ++ (move engine job).2.runs)
      simp only [List.append_assoc] at first rest
      simpa only [runsOfAll, advanceAll, List.append_assoc] using first.trans rest

/-- Jobs whose answers are known have no runs under way. -/
theorem runsOfAll_of_answers? {jobs : List Job} {answers : List Answer}
    (known : answers? jobs = some answers) : runsOfAll jobs = [] := by
  induction jobs generalizing answers with
  | nil => rfl
  | cons job jobs inductionHypothesis =>
      cases job with
      | answered answer =>
          obtain ⟨rest, restKnown, _⟩ := Option.map_eq_some_iff.mp known
          simpa [runsOfAll, runs] using inductionHypothesis restKnown
      | _ => simp [answers?] at known

/-- Companions that have not been made yet have no runs under way. -/
theorem runsOfAll_scheduled (now : Nat) (during : List (Nat × Step)) :
    runsOfAll (during.map fun (delay, step) => .scheduled (now + delay) step) = [] := by
  induction during with
  | nil => rfl
  | cons head rest inductionHypothesis => simpa [runsOfAll, runs] using inductionHypothesis

/-- The run of an instance moves by transitions and is settled by one. -/
theorem steps_advanceRun (now begun limit : Nat) (engine : Engine) (run : Run)
    (before after : List Run) :
    let moved := advance now (limit + 1) engine (.underWay begun run)
    Steps ⟨engine, before ++ run :: after⟩ ⟨moved.1, before ++ moved.2.runs ++ after⟩ := by
  have steps := Engine.steps_advance now engine run before after
  cases ended : (engine.advance now run).2.thread with
  | ended result =>
      have transition : Snapshot.Step
          ⟨(engine.advance now run).1, before ++ (engine.advance now run).2 :: after⟩
          (.done (engine.advance now run).2.instanceId
            (.concluded (engine.advance now run).2.purpose result))
          ⟨((engine.advance now run).1.conclude (engine.advance now run).2 result).1,
            before ++ after⟩ := .conclude rfl ended
      simpa [advance, ended, runs] using Steps.step steps transition
  | _ => simpa [advance, ended, runs] using steps

/-- Whatever a job does at an instant, it does by transitions. -/
theorem steps_advance (now limit : Nat) : MovesBySteps (advance now limit) := by
  induction limit with
  | zero => exact fun _ _ _ _ => .refl
  | succ limit inductionHypothesis =>
      intro engine job before after
      cases job with
      | answered answer => exact .refl
      | scheduled time step =>
          by_cases due : time ≤ now
          · cases step with
            | alone request =>
                have made := engine.steps_request now request before after
                have later := inductionHypothesis (engine.request now request).1
                  (engine.request now request).2 before after
                simpa [advance, due, runs] using made.trans later
            | together request during =>
                have later := inductionHypothesis engine
                  (.together (.scheduled now (.alone request))
                    (during.map fun (delay, step) => .scheduled (now + delay) step)) before after
                simpa [advance, due, runs, runsOfAll_scheduled] using later
          · simpa [advance, due] using Steps.refl
      | underWay begun run =>
          simpa [runs] using steps_advanceRun now begun limit engine run before after
      | together main during =>
          have first := inductionHypothesis engine main before (runsOfAll during ++ after)
          have second := steps_advanceAll inductionHypothesis
            (advance now limit engine main).1 during
            (before ++ (advance now limit engine main).2.runs) after
          simp only [List.append_assoc] at first second
          have steps := first.trans second
          cases mainMoved : (advance now limit engine main).2 with
          | answered answer =>
              cases known : answers? (advanceAll (advance now limit)
                  (advance now limit engine main).1 during).2 with
              | some answers =>
                  simpa [advance, mainMoved, known, runs, runsOfAll_of_answers? known] using steps
              | none => simpa [advance, mainMoved, known, runs] using steps
          | _ => simpa [advance, mainMoved, runs] using steps

/-- Whatever comes of a job, comes of transitions; one that is over leaves no run under way. -/
theorem steps_run (rounds now : Nat) (engine : Engine) (job : Job) :
    ∃ left, Steps ⟨engine, job.runs⟩ ⟨(run rounds now engine job).1, left⟩ ∧
      ((run rounds now engine job).2.isSome → left = []) := by
  induction rounds generalizing now engine job with
  | zero => exact ⟨job.runs, .refl, by simp [run]⟩
  | succ rounds inductionHypothesis =>
      have steps := steps_advance now Thread.slice engine job [] []
      simp only [List.nil_append, List.append_nil] at steps
      rcases moved : advance now Thread.slice engine job with ⟨next, nextJob⟩
      simp only [moved] at steps
      cases nextJob with
      | answered answer => exact ⟨[], by simpa [run, moved, runs] using steps, fun _ => rfl⟩
      | _ =>
          obtain ⟨left, later, settled⟩ := inductionHypothesis _ next _
          exact ⟨left, by simpa [run, moved] using steps.trans later,
            by simpa [run, moved] using settled⟩

end Job

namespace Engine

/-- Whatever comes of a scenario, comes of transitions. -/
theorem steps_play (now : Nat) (engine : Engine) (steps : List Step) :
    ∃ left, Steps ⟨engine, []⟩ ⟨(engine.play now steps).1, left⟩ := by
  induction steps generalizing now engine with
  | nil => exact ⟨[], .refl⟩
  | cons step steps inductionHypothesis =>
      obtain ⟨left, first, settled⟩ :=
        Job.steps_run Thread.slice now engine (.scheduled now step)
      rcases outcome : Job.run Thread.slice now engine (.scheduled now step) with
        ⟨next, answered⟩
      simp only [outcome] at first settled
      cases answered with
      | none => exact ⟨left, by simpa [play, outcome, Job.runs] using first⟩
      | some answered =>
          have nothingLeft : left = [] := settled rfl
          subst nothingLeft
          obtain ⟨rest, later⟩ := inductionHypothesis answered.2 next
          exact ⟨rest, by simpa [play, outcome, Job.runs] using first.trans later⟩

end Engine

end Orchestration
