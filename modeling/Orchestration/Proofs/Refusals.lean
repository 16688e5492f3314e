import Orchestration.Proofs.Sessions

/-!
# Refused operations

An operation is refused for what the engine has when it is asked: a definition that is deployed already or
not at all, or is disabled, or an instance that is not known or in a status that does not allow the
operation. A refused operation leaves the engine as it was.

What goes wrong later is no refusal. A call that was accepted and has a run under way is answered when the
run has ended, with the instance that it left, however that ended.
-/

namespace Orchestration

/-- That a request is for one of the operations that can be refused. -/
def Request.IsOperation : Request → Prop
  | .deploy (.ok _) => True
  | .undeploy _ => True
  | .start .. => True
  | .suspend _ => True
  | .resume _ => True
  | .terminate _ => True
  | .compensate _ => True
  | _ => False

/-- What a request wants of an instance that has to be in some status for it. -/
def Request.transition? : Request → Option (Transition × String)
  | .suspend id => some (.suspend, id)
  | .resume id => some (.resume, id)
  | .terminate id => some (.terminate, id)
  | .compensate id => some (.compensate, id)
  | _ => none

/-- The statuses in which an operation is refused. -/
def Transition.Bars : Transition → InstanceStatus → Prop
  | .suspend, status => status ≠ .active
  | .resume, status => status ≠ .suspended
  | .terminate, status => status = .completed ∨ status = .faulted ∨ status = .terminated
  | .compensate, status => status ≠ .completed ∧ status ≠ .faulted

/-- The failure that an answer tells of. -/
def Answer.failure? : Answer → Option Failure
  | .settled (.error failure) => some failure
  | .compensated (.error failure) .. => some failure
  | _ => none

/-- The failure that a request was answered with. -/
def Job.failure? : Job → Option Failure
  | .answered answer => answer.failure?
  | _ => none

/-- Why an engine refuses a request. -/
inductive Engine.Refuses (engine : Engine) : Request → Refusal → Prop where
  | deployed {definition other : Definition} (taken : engine.process? definition.id = some other) :
      engine.Refuses (.deploy (.ok definition)) (.alreadyDeployed definition.id)
  | undeployed {processId : String} (absent : engine.process? processId = none) :
      engine.Refuses (.undeploy processId) (.notDeployed processId)
  | absent {processId initiatedBy : String} {input : Bag} (absent : engine.process? processId = none) :
      engine.Refuses (.start processId input initiatedBy) (.notDeployed processId)
  | disabled {processId initiatedBy : String} {input : Bag} {definition : Definition}
      (found : engine.process? processId = some definition) (disabled : definition.enabled = false) :
      engine.Refuses (.start processId input initiatedBy) (.disabled processId)
  | unknown {request : Request} {transition : Transition} {id : String}
      (asks : request.transition? = some (transition, id)) (unknown : engine.instance? id = none) :
      engine.Refuses request (.unknownInstance id)
  | barred {request : Request} {transition : Transition} {id : String} {subject : Instance}
      (asks : request.transition? = some (transition, id))
      (found : engine.instance? id = some subject) (bars : transition.Bars subject.status) :
      engine.Refuses request (.notAllowed transition subject.status)

/-- An operation is allowed in the statuses that do not bar it. -/
theorem Transition.isAllowedIn_eq_false_iff (transition : Transition) (status : InstanceStatus) :
    transition.isAllowedIn status = false ↔ transition.Bars status := by
  cases transition with
  | terminate => cases status <;> simp [isAllowedIn, Bars, InstanceStatus.isTerminal]
  | suspend | resume | compensate => simp [isAllowedIn, Bars]

namespace Engine

variable {engine : Engine} {refusal : Refusal}

/-- Deploying fails with the refusals of a definition. -/
theorem deploy_eq_error_iff {definition : Definition} :
    engine.deploy definition = .error refusal ↔ engine.Refuses (.deploy (.ok definition)) refusal := by
  constructor
  · intro refused
    unfold deploy at refused
    split at refused
    · rename_i other taken
      cases refused
      exact .deployed taken
    · cases refused
  · intro refuses
    cases refuses with
    | deployed taken => simp [deploy, taken]
    | unknown asks => cases asks
    | barred asks => cases asks

/-- Undeploying fails with the refusals of a process. -/
theorem undeploy_eq_error_iff {processId : String} :
    engine.undeploy processId = .error refusal ↔ engine.Refuses (.undeploy processId) refusal := by
  constructor
  · intro refused
    unfold undeploy at refused
    split at refused
    · rename_i absent
      cases refused
      exact .undeployed absent
    · cases refused
  · intro refuses
    cases refuses with
    | undeployed absent => simp [undeploy, absent]
    | unknown asks => cases asks
    | barred asks => cases asks

/-- Starting an instance fails with the refusals of a start. -/
theorem start_eq_error_iff {processId initiatedBy : String} {input : Bag} :
    engine.start processId input initiatedBy = .error refusal ↔
      engine.Refuses (.start processId input initiatedBy) refusal := by
  constructor
  · intro refused
    unfold start at refused
    cases found : engine.process? processId with
    | none =>
        simp only [found] at refused
        cases refused
        exact .absent found
    | some definition =>
        simp only [found] at refused
        split at refused
        · split at refused <;> cases refused
        · rename_i disabled
          cases refused
          exact .disabled found (by simpa using disabled)
  · intro refuses
    cases refuses with
    | absent absent => simp [start, absent]
    | disabled found disabled => simp [start, found, disabled]
    | unknown asks => cases asks
    | barred asks => cases asks

/-- An operation on an instance is refused if the instance is not known, or its status bars it. -/
theorem permit_map_eq_error_iff {α : Type} {change : Entry → α} {request : Request}
    {transition : Transition} {id : String} (asks : request.transition? = some (transition, id)) :
    (engine.permit transition id).map change = .error refusal ↔ engine.Refuses request refusal := by
  constructor
  · intro refused
    unfold permit at refused
    cases found : engine.entry? id with
    | none =>
        simp only [found, Except.map] at refused
        cases refused
        exact .unknown asks (by simp [instance?, found])
    | some entry =>
        by_cases allowed : transition.isAllowedIn entry.subject.status = true
        · simp [found, allowed, Except.map] at refused
        · simp only [found, allowed, Except.map] at refused
          cases refused
          have present := instance?_eq_of_entry? found
          refine .barred asks present ?_
          rw [← Transition.isAllowedIn_eq_false_iff]
          simpa using allowed
  · intro refuses
    cases refuses with
    | unknown also unknown =>
        cases asks.symm.trans also
        have absent : engine.entry? id = none := Option.map_eq_none_iff.mp unknown
        simp [permit, absent, Except.map]
    | barred also found bars =>
        cases asks.symm.trans also
        obtain ⟨entry, present, rfl⟩ := Option.map_eq_some_iff.mp found
        have notAllowed := (Transition.isAllowedIn_eq_false_iff _ _).mpr bars
        simp [permit, present, notAllowed, Except.map]
    | deployed | undeployed | absent | disabled => cases asks

/-- That a request has been answered as the refusals say: with the failure of a refusal, and then nothing
has changed, or, when there is no refusal, with success or by a run that has begun. -/
structure Answers (engine : Engine) (runs : List Run) (time : Nat) (request : Request)
    (answered : Engine × Job) : Prop where
  refused : ∀ refusal, engine.Refuses request refusal →
    answered.1 = engine ∧ answered.2.failure? = some refusal.toFailure
  accepted : (∀ refusal, ¬ engine.Refuses request refusal) →
    answered.2 = .answered (.settled (.ok ())) ∨
      ∃ run, answered.2 = .underWay time run ∧
        Snapshot.Step ⟨engine, runs⟩ (.done run.instanceId (.began run.purpose))
          ⟨answered.1, run :: runs⟩

variable {runs : List Run} {time : Nat} {request : Request}

/-- An operation that fails with the refusals of a request is answered as they say. -/
theorem answers_settle {changed : Except Refusal Engine}
    (refuses : ∀ refusal, changed = .error refusal ↔ engine.Refuses request refusal) :
    engine.Answers runs time request (engine.settle changed) := by
  constructor
  · intro refusal refused
    rw [(refuses refusal).mpr refused]
    exact ⟨rfl, rfl⟩
  · intro accepted
    cases changed with
    | ok next => exact .inl rfl
    | error refusal => exact absurd ((refuses refusal).mp rfl) (accepted refusal)

/-- A start is answered as the refusals say. -/
theorem answers_start {processId initiatedBy : String} {input : Bag} :
    engine.Answers runs time (.start processId input initiatedBy)
      (engine.settleStart time (engine.start processId input initiatedBy)) := by
  constructor
  · intro refusal refused
    rw [start_eq_error_iff.mpr refused]
    exact ⟨rfl, rfl⟩
  · intro accepted
    cases started : engine.start processId input initiatedBy with
    | ok begun =>
        obtain ⟨next, run⟩ := begun
        exact .inr ⟨run, rfl, @Snapshot.Step.start ⟨engine, runs⟩ _ _ _ _ [] runs _ rfl started⟩
    | error refusal => exact absurd (start_eq_error_iff.mp started) (accepted refusal)

/-- A compensation is answered as the refusals say. -/
theorem answers_compensate {instanceId : String} :
    engine.Answers runs time (.compensate instanceId)
      (engine.settleCompensate time instanceId (engine.compensate instanceId)) := by
  have refuses (refusal : Refusal) : engine.compensate instanceId = .error refusal ↔
      engine.Refuses (.compensate instanceId) refusal := permit_map_eq_error_iff rfl
  constructor
  · intro refusal refused
    rw [(refuses refusal).mpr refused]
    exact ⟨rfl, rfl⟩
  · intro accepted
    cases started : engine.compensate instanceId with
    | ok begun =>
        obtain ⟨next, run⟩ := begun
        obtain ⟨_, _, _, _, isRun, _⟩ := compensate_becomes started
        obtain rfl : instanceId = run.instanceId := by rw [isRun]
        exact .inr ⟨run, rfl, @Snapshot.Step.compensate ⟨engine, runs⟩ _ _ [] runs _ rfl started⟩
    | error refusal => exact absurd ((refuses refusal).mp started) (accepted refusal)

/-- Every operation is answered as the refusals say. -/
theorem answers_request (engine : Engine) (runs : List Run) (time : Nat) {request : Request}
    (operation : request.IsOperation) :
    engine.Answers runs time request (engine.request time request) := by
  cases request with
  | deploy definition =>
      cases definition with
      | ok definition => exact answers_settle fun _ => deploy_eq_error_iff
      | error failure => exact operation.elim
  | undeploy => exact answers_settle fun _ => undeploy_eq_error_iff
  | start => exact answers_start
  | suspend => exact answers_settle fun _ => permit_map_eq_error_iff rfl
  | resume => exact answers_settle fun _ => permit_map_eq_error_iff rfl
  | terminate => exact answers_settle fun _ => permit_map_eq_error_iff rfl
  | compensate => exact answers_compensate
  | _ => exact operation.elim

/-- Moving a run leaves what it is for. -/
theorem advance_run (time : Nat) (run : Run) (engine : Engine) :
    (engine.advance time run).2.instanceId = run.instanceId ∧
      (engine.advance time run).2.purpose = run.purpose := by
  unfold advance
  split <;> exact ⟨rfl, rfl⟩

/-- The end of a run is told with the instance that it left. -/
theorem conclude_snd {run : Run} {subject : Instance}
    (found : engine.instance? run.instanceId = some subject) (result : Result) :
    (engine.conclude run result).2 = some (run.purpose.settle result subject) := by
  obtain ⟨next, settled, hook?, closed⟩ := exists_close found result
  obtain ⟨old, isOld, rfl, _⟩ := close_spec closed
  cases found.symm.trans isOld
  rw [conclude_of_close closed]

/-- What the end of a run left is found there. -/
theorem instance?_conclude {run : Run} {subject : Instance}
    (found : engine.instance? run.instanceId = some subject) (result : Result) :
    (engine.conclude run result).1.instance? run.instanceId =
      some (run.purpose.settle result subject) := by
  have becomes := conclude_becomes found result
  exact becomes.instance?_settle found

/-- The answer to a call whose run has left an instance tells of no failure. -/
theorem failure?_runAnswer (purpose : RunPurpose) (elapsed : Nat) (subject : Instance) :
    (runAnswer purpose elapsed (some subject)).failure? = none := by
  cases purpose <;> rfl

end Engine

/-- A call that has a run under way is answered with the instance that the run has left. -/
theorem Job.advance_underWay {settings : Settings} {naming : Naming} {now : Timestamp}
    {moments : List Snapshot.Moment} {state : Snapshot} {run : Run} {time limit begun : Nat}
    {answer : Answer} (history : Snapshot.History (.new settings naming now) moments state)
    (present : run ∈ state.runs)
    (answered : (Job.advance time limit state.engine (.underWay begun run)).2 = .answered answer) :
    ∃ subject, answer = Engine.runAnswer run.purpose (time - begun) (some subject) ∧
      (Job.advance time limit state.engine (.underWay begun run)).1.instance? run.instanceId =
        some subject := by
  cases limit with
  | zero => cases answered
  | succ limit =>
      obtain ⟨before, after, placed⟩ := List.append_of_mem present
      obtain ⟨engine, runs⟩ := state
      subst placed
      obtain ⟨others, moved⟩ := Engine.steps_advance time engine run before after
      have valid := (history.trans moved).project.1
      obtain ⟨subject, found⟩ := Option.isSome_iff_exists.mp
        (valid.enrolled (engine.advance time run).2 (by simp))
      obtain ⟨sameId, samePurpose⟩ := Engine.advance_run time run engine
      cases ended : (engine.advance time run).2.thread with
      | ended result =>
          simp only [advance, ended, Engine.conclude_snd found result, samePurpose] at answered ⊢
          obtain rfl := Job.answered.inj answered
          refine ⟨_, rfl, ?_⟩
          rw [← sameId, ← samePurpose]
          exact Engine.instance?_conclude found result
      | _ => simp [advance, ended] at answered

open Snapshot (History Steps)

/-- In every state that an engine can reach, an operation is answered with a failure exactly if the engine
refuses it, and then nothing has changed. What is accepted is carried out at once, or a run of it begins;
and a call that has a run under way is answered with the instance that the run has left, and with no
failure, however the run ended. -/
theorem refused_operation_changes_nothing {settings : Settings} {naming : Naming} {now : Timestamp}
    {moments : List Snapshot.Moment} {state : Snapshot}
    (history : History (.new settings naming now) moments state) :
    (∀ time request, request.IsOperation →
      ((state.engine.request time request).2.failure?.isSome = true ↔
        ∃ refusal, state.engine.Refuses request refusal) ∧
      (∀ refusal, state.engine.Refuses request refusal →
        (state.engine.request time request).1 = state.engine ∧
          (state.engine.request time request).2.failure? = some refusal.toFailure) ∧
      ((∀ refusal, ¬ state.engine.Refuses request refusal) →
        (state.engine.request time request).2 = .answered (.settled (.ok ())) ∨
          ∃ run, (state.engine.request time request).2 = .underWay time run ∧
            Snapshot.Step state (.done run.instanceId (.began run.purpose))
              ⟨(state.engine.request time request).1, run :: state.runs⟩)) ∧
      ∀ time limit begun answer, ∀ run ∈ state.runs,
        (Job.advance time limit state.engine (.underWay begun run)).2 = .answered answer →
          ∃ subject, answer = Engine.runAnswer run.purpose (time - begun) (some subject) ∧
            answer.failure? = none ∧
              (Job.advance time limit state.engine (.underWay begun run)).1.instance? run.instanceId =
                some subject := by
  constructor
  · intro time request operation
    obtain ⟨refused, accepted⟩ := state.engine.answers_request state.runs time operation
    refine ⟨⟨fun fails => ?_, ?_⟩, refused, accepted⟩
    · by_contra unrefused
      rcases accepted fun refusal refuses => unrefused ⟨refusal, refuses⟩ with done | ⟨run, begun, _⟩
      · simp [done, Job.failure?, Answer.failure?] at fails
      · simp [begun, Job.failure?] at fails
    · rintro ⟨refusal, refuses⟩
      rw [(refused refusal refuses).2]
      rfl
  · intro time limit begun answer run present answered
    obtain ⟨subject, isAnswer, left⟩ := Job.advance_underWay history present answered
    refine ⟨subject, isAnswer, ?_, left⟩
    rw [isAnswer]
    exact Engine.failure?_runAnswer _ _ _

namespace Rootless

/-- A process that has no activities. -/
def definition : Definition := .ofActivities "p" "P" "main" []

/-- An instance is started that has nothing to run, and is still active. -/
theorem started : ∃ moments state run subject,
    History (.new .default (.numbered "i-") ⟨0, 0⟩) moments state ∧ state.runs = [run] ∧
      state.engine.instance? "i-1" = some subject ∧ subject.status = .active ∧
        ∃ answer, (Job.advance 0 1 state.engine (.underWay 0 run)).2 = .answered answer ∧
          ∃ settled, answer = .started settled 0 ∧ settled.status = .faulted := by
  have deployed : Steps (.new .default (.numbered "i-") ⟨0, 0⟩) ⟨_, []⟩ :=
    .single (@Snapshot.Step.deploy _ definition _ rfl)
  obtain ⟨moments, history⟩ :=
    deployed.step (@Snapshot.Step.start _ "p" "oracle" [] _ [] [] _ rfl rfl)
  exact ⟨moments, _, _, _, history, rfl, rfl, rfl, _, rfl, _, rfl, rfl⟩

end Rootless

/-- An active instance cannot be resumed, and the try changes nothing. Then it ends faulted, and the call
that started it is answered with no failure. -/
theorem exists_refused_and_faulted : ∃ moments state run answer subject,
    History (.new .default (.numbered "i-") ⟨0, 0⟩) moments state ∧ state.runs = [run] ∧
      (state.engine.request 0 (.resume "i-1")).2.failure? =
          some (Refusal.notAllowed .resume .active).toFailure ∧
        (state.engine.request 0 (.resume "i-1")).1 = state.engine ∧
          (Job.advance 0 1 state.engine (.underWay 0 run)).2 = .answered answer ∧
            answer = .started subject 0 ∧ subject.status = .faulted ∧ answer.failure? = none := by
  obtain ⟨moments, state, run, subject, history, runs, found, active, answer, answered, settled, isAnswer,
    faulted⟩ := Rootless.started
  obtain ⟨operations, ends⟩ := refused_operation_changes_nothing history
  have refuses : state.engine.Refuses (.resume "i-1") (.notAllowed .resume .active) := by
    rw [← active]
    exact .barred rfl found (by simp [Transition.Bars, active])
  obtain ⟨_, refused, _⟩ := operations 0 (.resume "i-1") trivial
  obtain ⟨unchanged, fails⟩ := refused _ refuses
  obtain ⟨_, _, harmless, _⟩ := ends 0 1 0 answer run (by simp [runs]) answered
  exact ⟨moments, state, run, answer, settled, history, runs, fails, unchanged, answered, isAnswer, faulted,
    harmless⟩

end Orchestration
