import Orchestration.Proofs.Counters
import Orchestration.Proofs.Origins

/-!
# What a process may write

A definition says where its activities write to: the targets of their copies, their output and counter
variables, and the variables that handlers bind faults to. Nothing else is ever written. Whichever
activities a run gets to, in which order and beside whom, and whether it executes the process or undoes it,
a variable that no such path is about keeps the value that it had when the run began, or stays absent.
-/

namespace Orchestration

/-- The paths that a handler writes to. -/
def FaultHandler.targets (handler : FaultHandler) : List String := handler.faultVariable.toList

/-- The paths that an activity gives to be written to, whether or not one of its kind ever does. -/
def Activity.targets (activity : Activity) : List String :=
  activity.copies.map Copy.target ++ activity.outputVariable.toList ++
    activity.counterVariable.toList ++ activity.faultHandlers.flatMap FaultHandler.targets

/-- The paths that a definition gives to be written to. -/
def Definition.targets (definition : Definition) : List String :=
  definition.activities.flatMap Activity.targets ++
    definition.faultHandlers.flatMap FaultHandler.targets

/-- The variables that a definition gives to be written to. -/
def Definition.writes (definition : Definition) : List String := definition.targets.map Path.root

namespace Activity

variable {activity : Activity}

/-- A copy writes to a target of its activity. -/
theorem mem_targets_copy {copy : Copy} (present : copy ∈ activity.copies) :
    copy.target ∈ activity.targets := by
  simp only [targets, List.mem_append, List.mem_map]
  exact .inl (.inl (.inl ⟨copy, present, rfl⟩))

/-- The output of an invocation is a target of its activity. -/
theorem mem_targets_output {path : String} (output : activity.outputVariable = some path) :
    path ∈ activity.targets := by
  simp [targets, output]

/-- The counter of a loop is a target of its activity. -/
theorem mem_targets_counter {path : String} (counter : activity.counterVariable = some path) :
    path ∈ activity.targets := by
  simp [targets, counter]

/-- What a fault handler of a scope writes, the scope writes. -/
theorem targets_handler_subset {handler : FaultHandler} (present : handler ∈ activity.faultHandlers) :
    handler.targets ⊆ activity.targets := by
  intro path isTarget
  simp only [targets, List.mem_append, List.mem_flatMap]
  exact .inr ⟨handler, present, isTarget⟩

end Activity

namespace Definition

variable {definition : Definition}

/-- What an activity writes, its definition writes. -/
theorem targets_activity_subset {activity : Activity} (present : activity ∈ definition.activities) :
    activity.targets ⊆ definition.targets := by
  intro path isTarget
  simp only [targets, List.mem_append, List.mem_flatMap]
  exact .inl ⟨activity, present, isTarget⟩

/-- What a fault handler of the process writes, its definition writes. -/
theorem targets_handler_subset {handler : FaultHandler}
    (present : handler ∈ definition.faultHandlers) : handler.targets ⊆ definition.targets := by
  intro path isTarget
  simp only [targets, List.mem_append, List.mem_flatMap]
  exact .inr ⟨handler, present, isTarget⟩

end Definition

namespace Task

/-- That a task writes to none but some paths, and calls activities of a definition only. -/
inductive WritesWithin (definition : Definition) (paths : List String) : Task → Prop where
  | done {result : Result} : WritesWithin definition paths (.done result)
  | act {action : Action} {next : action.Reply → Task} (writes : action.targets ⊆ paths)
      (continues : ∀ reply, WritesWithin definition paths (next reply)) :
      WritesWithin definition paths (.act action next)
  | call {activity : Activity} {role : Role} {next : Result → Task}
      (known : activity ∈ definition.activities)
      (continues : ∀ result, WritesWithin definition paths (next result)) :
      WritesWithin definition paths (.call activity role next)
  | wait {duration : Duration} {next : Task} (continues : WritesWithin definition paths next) :
      WritesWithin definition paths (.wait duration next)
  | fork {branches : List Task} {join : List Result → Task}
      (begins : ∀ branch ∈ branches, WritesWithin definition paths branch)
      (continues : ∀ results, WritesWithin definition paths (join results)) :
      WritesWithin definition paths (.fork branches join)

namespace WritesWithin

variable {definition : Definition} {paths : List String} {task : Task}

/-- What writes to some paths writes to them among more. -/
theorem mono {others : List String} (within : task.WritesWithin definition paths)
    (subset : paths ⊆ others) : task.WritesWithin definition others := by
  induction within with
  | done => exact .done
  | act writes _ inductionHypothesis => exact .act (List.Subset.trans writes subset) inductionHypothesis
  | call known _ inductionHypothesis => exact .call known inductionHypothesis
  | wait _ inductionHypothesis => exact .wait inductionHypothesis
  | fork _ _ branchHypothesis inductionHypothesis => exact .fork branchHypothesis inductionHypothesis

/-- Tasks in a row write within the paths that all of them write within. -/
theorem bind {next : Result → Task} (within : task.WritesWithin definition paths)
    (continues : ∀ result, (next result).WritesWithin definition paths) :
    (task.bind next).WritesWithin definition paths := by
  induction within with
  | done => exact continues _
  | act writes _ inductionHypothesis => exact .act writes inductionHypothesis
  | call known _ inductionHypothesis => exact .call known inductionHypothesis
  | wait _ inductionHypothesis => exact .wait inductionHypothesis
  | fork begins _ _ inductionHypothesis => exact .fork begins inductionHypothesis

/-- What follows an outcome writes within the same paths. -/
theorem andThen {next : Outcome → Task} (within : task.WritesWithin definition paths)
    (continues : ∀ outcome, (next outcome).WritesWithin definition paths) :
    (task.andThen next).WritesWithin definition paths := by
  apply within.bind
  intro result
  cases result with
  | ok outcome => exact continues outcome
  | error error => exact .done

/-- What follows a completed task writes within the same paths. -/
theorem whenCompleted {next : Task} (within : task.WritesWithin definition paths)
    (continues : next.WritesWithin definition paths) :
    (task.whenCompleted next).WritesWithin definition paths := by
  apply within.andThen
  intro outcome
  cases outcome with
  | completed => exact continues
  | halted => exact .done

/-- Failing instead of going on writes nothing. -/
theorem ofExcept {α : Type} {next : α → Task} (computed : Except ActivityError α)
    (continues : ∀ value, (next value).WritesWithin definition paths) :
    (Task.ofExcept computed next).WritesWithin definition paths := by
  cases computed with
  | ok value => exact continues value
  | error error => exact .done

/-- Letting an event be known writes nothing. -/
theorem announce {event : Event} {next : Task} (continues : next.WritesWithin definition paths) :
    (Task.announce event next).WritesWithin definition paths :=
  .act (List.nil_subset _) fun _ => continues

/-- A task that ends as its only call does. -/
theorem callOnly {activity : Activity} (known : activity ∈ definition.activities) :
    (Task.call activity .part .done).WritesWithin definition paths :=
  .call known fun _ => .done

end WritesWithin

end Task

namespace Program

variable {program : Program} {paths : List String}

/-- Looking an activity up writes nothing, and goes on with an activity of the definition. -/
theorem writesWithin_lookup {id : String} {next : Activity → Task}
    (continues : ∀ activity ∈ program.definition.activities,
      (next activity).WritesWithin program.definition paths) :
    (program.lookup id next).WritesWithin program.definition paths := by
  unfold lookup
  split
  · rename_i activity found
    exact continues activity (List.mem_of_find?_eq_some found)
  · exact .done

/-- Calling an activity by its id writes nothing by itself. -/
theorem writesWithin_callById (id : String) :
    (program.lookup id fun target => .call target .part .done).WritesWithin program.definition paths :=
  writesWithin_lookup fun _ => .callOnly

/-- A sequence writes nothing on its own level. -/
theorem writesWithin_runSequence (children : List String) :
    (program.runSequence children).WritesWithin program.definition paths := by
  induction children with
  | nil => exact .done
  | cons child children inductionHypothesis =>
      refine .act (List.nil_subset _) fun halting => ?_
      change Bool at halting
      cases halting with
      | true => exact .done
      | false =>
          apply writesWithin_lookup
          intro activity known
          exact (Task.WritesWithin.callOnly known).whenCompleted inductionHypothesis

/-- A flow writes nothing on its own level. -/
theorem writesWithin_runFlow (children : List String) :
    (program.runFlow children).WritesWithin program.definition paths := by
  unfold runFlow
  cases found : program.lookupAll children with
  | error error => exact .done
  | ok branches =>
      refine .fork (fun task present => ?_) fun _ => .done
      obtain ⟨branch, isBranch, rfl⟩ := List.mem_map.mp present
      obtain ⟨id, _, isActivity⟩ := mem_of_lookupAll found branch isBranch
      exact .callOnly (List.mem_of_find?_eq_some isActivity)

/-- Testing a condition writes nothing. -/
theorem writesWithin_testCondition {activity : Activity} {next : Bool → Task}
    (continues : ∀ holds, (next holds).WritesWithin program.definition paths) :
    (testCondition activity next).WritesWithin program.definition paths := by
  unfold testCondition
  split
  · exact .act (List.nil_subset _) fun reply => .ofExcept reply continues
  · exact .done

/-- A choice writes nothing on its own level. -/
theorem writesWithin_runChoice (activity : Activity) :
    (program.runChoice activity).WritesWithin program.definition paths := by
  apply writesWithin_testCondition
  intro holds
  split
  · exact writesWithin_callById _
  · exact .done

/-- Giving up writes nothing. -/
theorem writesWithin_hitIterationCap (activity : Activity) :
    (program.hitIterationCap activity).WritesWithin program.definition paths :=
  .announce .done

/-- A loop that tests first writes nothing on its own level. -/
theorem writesWithin_runWhile (activity : Activity) (remaining : Nat) :
    (program.runWhile activity remaining).WritesWithin program.definition paths := by
  induction remaining with
  | zero =>
      apply writesWithin_testCondition
      intro holds
      cases holds with
      | true => exact writesWithin_hitIterationCap activity
      | false => exact .done
  | succ remaining inductionHypothesis =>
      apply writesWithin_testCondition
      intro holds
      cases holds with
      | true => exact (writesWithin_runSequence _).whenCompleted inductionHypothesis
      | false => exact .done

/-- A loop that tests last writes nothing on its own level. -/
theorem writesWithin_runRepeatUntil (activity : Activity) (remaining : Nat) :
    (program.runRepeatUntil activity remaining).WritesWithin program.definition paths := by
  induction remaining with
  | zero => exact writesWithin_hitIterationCap activity
  | succ remaining inductionHypothesis =>
      apply (writesWithin_runSequence _).whenCompleted
      apply writesWithin_testCondition
      intro holds
      cases holds with
      | true => exact .done
      | false => exact inductionHypothesis

/-- Measuring a bound writes nothing. -/
theorem writesWithin_measureBound {activity : Activity} {bound : Option LoopBound} {field : String}
    {next : Int → Task} (continues : ∀ value, (next value).WritesWithin program.definition paths) :
    (measureBound activity bound field next).WritesWithin program.definition paths := by
  unfold measureBound
  split
  · exact continues _
  · exact .act (List.nil_subset _) fun reply => .ofExcept reply continues
  · exact .done

/-- Counting writes to the counter. -/
theorem writesWithin_writeCounter {counter : String} {index : Int} {next : Task}
    (isPath : counter ∈ paths) (continues : next.WritesWithin program.definition paths) :
    (writeCounter counter index next).WritesWithin program.definition paths := by
  refine .act ?_ fun reply => .ofExcept reply fun _ => continues
  simpa [Action.targets] using isPath

/-- Runs one after another write to the counter and nothing else on their own level. -/
theorem writesWithin_runIterations {counter : String} (isPath : counter ∈ paths)
    (children : List String) (count : Nat) (index : Int) :
    (program.runIterations counter children count index).WritesWithin program.definition paths := by
  induction count generalizing index with
  | zero => exact .done
  | succ count inductionHypothesis =>
      refine .act (List.nil_subset _) fun halting => ?_
      change Bool at halting
      cases halting with
      | true => exact .done
      | false =>
          apply writesWithin_writeCounter isPath
          exact (writesWithin_runSequence children).whenCompleted (inductionHypothesis (index + 1))

/-- Runs side by side write to the one counter and nothing else on their own level. -/
theorem writesWithin_runIterationsInParallel {counter : String} (isPath : counter ∈ paths)
    (children : List String) (count : Nat) (start : Int) :
    (program.runIterationsInParallel counter children count start).WritesWithin
      program.definition paths := by
  refine .fork (fun task present => ?_) fun _ => .done
  obtain ⟨offset, _, rfl⟩ := List.mem_map.mp present
  exact writesWithin_writeCounter isPath (writesWithin_runFlow children)

/-- A counted loop writes within the targets of its activity, of which its counter is one. -/
theorem writesWithin_runForEach (activity : Activity) :
    (program.runForEach activity).WritesWithin program.definition activity.targets := by
  unfold runForEach
  cases isCounter : activity.counterVariable with
  | none => exact .done
  | some counter =>
      have isPath := Activity.mem_targets_counter isCounter
      apply writesWithin_measureBound
      intro start
      apply writesWithin_measureBound
      intro finish
      dsimp only
      split
      · exact writesWithin_hitIterationCap activity
      · split
        · exact writesWithin_runIterationsInParallel isPath _ _ start
        · exact writesWithin_runIterations isPath _ _ start

/-- A pick writes nothing on its own level. -/
theorem writesWithin_runPick (activity : Activity) :
    (program.runPick activity).WritesWithin program.definition paths := by
  unfold runPick
  split
  · exact .done
  · exact .announce (writesWithin_callById _)

/-- An activity that is one action writes what the action does. -/
theorem writesWithin_runAction (action : Action) (writes : action.targets ⊆ paths)
    (reply : action.Reply → Except ActivityError Unit) :
    (runAction action reply).WritesWithin program.definition paths :=
  .act writes fun answer => .ofExcept (reply answer) fun _ => .done

/-- A wait writes nothing. -/
theorem writesWithin_runWait (activity : Activity) :
    (program.runWait activity).WritesWithin program.definition paths :=
  .ofExcept _ fun _ => .announce (.wait .done)

/-- Throwing writes nothing. -/
theorem writesWithin_runThrow (activity : Activity) :
    (runThrow activity).WritesWithin program.definition paths := by
  unfold runThrow
  split
  · exact .act (List.nil_subset _) fun _ => .done
  · exact .done

/-- Throwing again writes nothing. -/
theorem writesWithin_runRethrow : runRethrow.WritesWithin program.definition paths := by
  refine .act (List.nil_subset _) fun current => ?_
  change Option Fault at current
  cases current <;> exact .done

/-- A recovery writes the variable of its handler and nothing else on its own level. -/
theorem writesWithin_recover {handler : FaultHandler} (subset : handler.targets ⊆ paths)
    (fault : Fault) : (program.recover handler fault).WritesWithin program.definition paths := by
  apply writesWithin_lookup
  intro recovery known
  refine .act subset fun reply => .ofExcept reply fun _ => ?_
  apply (Task.WritesWithin.callOnly known).andThen
  intro outcome
  exact .act (List.nil_subset _) fun _ => .done

/-- Handlers write to where they bind their faults, and nothing else is added to what they guard. -/
theorem writesWithin_withHandlers {task : Task} {handlers : List FaultHandler}
    (within : task.WritesWithin program.definition paths)
    (subset : ∀ handler ∈ handlers, handler.targets ⊆ paths)
    (caught : Fault → FaultHandler → Event) :
    (program.withHandlers task handlers caught).WritesWithin program.definition paths := by
  apply within.bind
  intro result
  cases result with
  | ok outcome => exact .done
  | error error =>
      dsimp only
      split
      · rename_i handler found
        exact .announce (writesWithin_recover (subset handler (FaultHandler.mem_of_resolve? found)) _)
      · exact .done

/-- Carrying out a plan writes nothing by itself. -/
theorem writesWithin_runPlan (steps : List CompensationStep) :
    (program.runPlan steps).WritesWithin program.definition paths := by
  induction steps with
  | nil => exact .done
  | cons step steps inductionHypothesis =>
      apply writesWithin_lookup
      intro handler known
      apply Task.WritesWithin.announce
      refine Task.WritesWithin.andThen (.call known fun _ => .done) fun _ => ?_
      exact .act (List.nil_subset _) fun _ => inductionHypothesis

/-- Undoing scopes writes nothing by itself. -/
theorem writesWithin_compensateScopes (target : Option String) :
    (program.compensateScopes target).WritesWithin program.definition paths :=
  .act (List.nil_subset _) writesWithin_runPlan

/-- Undoing an instance writes nothing of itself. -/
theorem writesWithin_compensateProcess :
    program.compensateProcess.WritesWithin program.definition paths := by
  apply (writesWithin_compensateScopes none).andThen
  intro outcome
  split
  · apply writesWithin_lookup
    intro handler known
    exact .announce ((Task.WritesWithin.callOnly known).andThen fun _ => .done)
  · exact .done

/-- An activity of any kind writes to its own targets only. -/
theorem writesWithin_body (activity : Activity) :
    (program.body activity).WritesWithin program.definition activity.targets := by
  have output : activity.outputVariable.toList ⊆ activity.targets := by
    intro path isOutput
    exact Activity.mem_targets_output (Option.mem_toList.mp isOutput)
  have copied : activity.copies.map Copy.target ⊆ activity.targets := by
    intro path isTarget
    obtain ⟨copy, present, rfl⟩ := List.mem_map.mp isTarget
    exact Activity.mem_targets_copy present
  unfold body
  cases activity.kind with
  | sequence => exact writesWithin_runSequence _
  | flow => exact writesWithin_runFlow _
  | choice => exact writesWithin_runChoice activity
  | whileLoop => exact writesWithin_runWhile activity _
  | repeatUntil => exact writesWithin_runRepeatUntil activity _
  | forEach => exact writesWithin_runForEach activity
  | pick => exact writesWithin_runPick activity
  | invoke => exact writesWithin_runAction (.invoke activity) output id
  | receive => exact writesWithin_runAction (.receive activity) output id
  | reply => exact writesWithin_runAction (.respond activity) (List.nil_subset _) _
  | assign => exact writesWithin_runAction (.assign activity.copies) copied id
  | wait => exact writesWithin_runWait activity
  | throw => exact writesWithin_runThrow activity
  | rethrow => exact writesWithin_runRethrow
  | scope =>
      exact writesWithin_withHandlers (writesWithin_runSequence _)
        (fun _ => Activity.targets_handler_subset) _
  | compensate => exact writesWithin_compensateScopes _
  | compensateScope => exact writesWithin_compensateScopes _
  | exit => exact .act (List.nil_subset _) fun _ => .done
  | empty | validate | unsupported => exact .done

/-- The execution of a process writes to the targets of its handlers, besides what activities do. -/
theorem writesWithin_run {root : Activity} (known : root ∈ program.definition.activities) :
    (program.run root).WritesWithin program.definition program.definition.targets :=
  writesWithin_withHandlers (.callOnly known) (fun _ => Definition.targets_handler_subset) _

end Program

namespace Thread

/-- That a thread writes to none but some paths, and calls activities of a definition only. -/
inductive WritesWithin (definition : Definition) (paths : List String) : Thread → Prop where
  | ready {calls : List Call} {task : Task}
      (callers : ∀ call ∈ calls, ∀ result, (call.next result).WritesWithin definition paths)
      (within : task.WritesWithin definition paths) : WritesWithin definition paths (.ready calls task)
  | asleep {calls : List Call} {wake : Nat} {task : Task}
      (callers : ∀ call ∈ calls, ∀ result, (call.next result).WritesWithin definition paths)
      (within : task.WritesWithin definition paths) :
      WritesWithin definition paths (.asleep calls wake task)
  | joined {calls : List Call} {branches : List Thread} {join : List Result → Task}
      (callers : ∀ call ∈ calls, ∀ result, (call.next result).WritesWithin definition paths)
      (inside : ∀ branch ∈ branches, WritesWithin definition paths branch)
      (continues : ∀ results, (join results).WritesWithin definition paths) :
      WritesWithin definition paths (.joined calls branches join)
  | ended {result : Result} : WritesWithin definition paths (.ended result)

/-- A thread of a definition writes within the targets of that definition. -/
abbrev Confined (definition : Definition) (thread : Thread) : Prop :=
  thread.WritesWithin definition definition.targets

/-- A thread that begins with a confined task is confined. -/
theorem confined_ofTask {definition : Definition} {task : Task}
    (within : task.WritesWithin definition definition.targets) :
    (Thread.ofTask task).Confined definition :=
  .ready (by simp) within

variable {program : Program} {scene nextScene : Scene} {thread nextThread : Thread} {move : Move}

/-- A thread that moves writes within the same targets, whatever it enters. -/
theorem Step.confined (moved : Step program scene thread move nextScene nextThread)
    (confined : thread.Confined program.definition) : nextThread.Confined program.definition := by
  induction moved with
  | finish => exact .ended
  | leave =>
      cases confined with
      | ready callers _ =>
          rw [List.forall_mem_cons] at callers
          exact .ready callers.2 (callers.1 _)
  | act =>
      cases confined with
      | ready callers within =>
          cases within with
          | act _ continues => exact .ready callers (continues _)
  | enter =>
      cases confined with
      | ready callers within =>
          cases within with
          | call known continues =>
              exact .ready (List.forall_mem_cons.mpr ⟨continues, callers⟩)
                ((Program.writesWithin_body _).mono (Definition.targets_activity_subset known))
  | rest =>
      cases confined with
      | ready callers within =>
          cases within with
          | wait continues => exact .asleep callers continues
  | wake =>
      cases confined with
      | asleep callers within => exact .ready callers within
  | fork =>
      cases confined with
      | ready callers within =>
          cases within with
          | fork begins continues =>
              refine .joined callers (fun branch present => ?_) continues
              obtain ⟨task, isBranch, rfl⟩ := List.mem_map.mp present
              exact confined_ofTask (begins task isBranch)
  | branch present _ inductionHypothesis =>
      cases confined with
      | joined callers inside continues =>
          refine .joined callers (fun other isBranch => ?_) continues
          rcases List.mem_or_eq_of_mem_set isBranch with old | rfl
          · exact inside other old
          · exact inductionHypothesis (inside _ (List.mem_of_getElem? present))
  | join =>
      cases confined with
      | joined callers _ continues => exact .ready callers (continues _)

/-- A move leaves variables alone that the definition does not write. -/
theorem Step.find?_eq {name : String}
    (moved : Step program scene thread move nextScene nextThread)
    (confined : thread.Confined program.definition) (unwritten : name ∉ program.definition.writes) :
    nextScene.subject.bag.find? name = scene.subject.bag.find? name := by
  induction moved with
  | act =>
      cases confined with
      | ready _ within =>
          cases within with
          | act writes _ =>
              apply Action.find?_perform
              intro touched
              exact unwritten (List.map_subset Path.root writes touched)
  | branch present _ inductionHypothesis =>
      cases confined with
      | joined _ inside _ => exact inductionHypothesis (inside _ (List.mem_of_getElem? present))
  | _ => rfl

end Thread

/-- Settling an instance leaves its variables as they are. -/
theorem RunPurpose.bag_settle (purpose : RunPurpose) (result : Result) (subject : Instance) :
    (purpose.settle result subject).bag = subject.bag := by
  obtain ⟨_, _, _, settled⟩ := purpose.exists_settle_eq result subject
  rw [settled]

/-- What happens to an instance leaves variables alone that the definition of its run does not write. -/
theorem Situation.Step.find?_eq {situation next : Situation} {deed : Deed} {name : String}
    (happened : situation.Step deed next)
    (confined : ∀ run, situation.run? = some run → run.thread.Confined run.program.definition ∧
      name ∉ run.program.definition.writes) :
    next.subject.bag.find? name = situation.subject.bag.find? name := by
  cases happened with
  | move moved =>
      obtain ⟨within, unwritten⟩ := confined _ rfl
      exact moved.find?_eq within unwritten
  | conclude =>
      dsimp only
      rw [RunPurpose.bag_settle]
  | _ => rfl

namespace Snapshot

/-- That every run writes within the targets of its definition. -/
def Confined (state : Snapshot) : Prop :=
  ∀ run ∈ state.runs, run.thread.Confined run.program.definition

/-- The value of a variable of an instance, if the instance was ever started. -/
def valueOf? (id name : String) (state : Snapshot) : Option (Option Value) :=
  (state.engine.instance? id).map fun subject => subject.bag.find? name

variable {state next : Snapshot} {occurrence : Occurrence} {id name : String}

/-- The value of a variable is that in the bag of its instance. -/
theorem valueOf?_of_situation? {situation : Situation}
    (found : state.situation? id = some situation) :
    state.valueOf? id name = some (situation.subject.bag.find? name) := by
  rw [valueOf?, instance?_of_situation? found]
  rfl

/-- No step brings a thread in that writes anything else. -/
theorem Step.confined (transition : Step state occurrence next) (confined : state.Confined) :
    next.Confined := by
  have joins {before after : List Run} {run : Run} (placed : state.runs = before ++ after)
      (own : run.thread.Confined run.program.definition) :
      ∀ other ∈ before ++ run :: after, other.thread.Confined other.program.definition := by
    intro other present
    rcases Run.eq_or_mem_of_join placed present with rfl | old
    · exact own
    · exact confined other old
  have stays {before after : List Run} {run : Run} (placed : state.runs = before ++ run :: after) :
      ∀ other ∈ before ++ after, other.thread.Confined other.program.definition := by
    intro other present
    apply confined
    simp only [placed, List.mem_append, List.mem_cons] at present ⊢
    tauto
  cases transition with
  | start placed accepted =>
      apply joins placed
      obtain ⟨definition, _, _, _, _, _, _, rfl, ⟨root, present, _, thread⟩ | ⟨_, _, thread⟩⟩ :=
        Engine.start_becomes accepted
      · rw [thread]
        exact Thread.confined_ofTask (Program.writesWithin_run (List.mem_of_find?_eq_some present))
      · rw [thread]
        exact .ended
  | compensate placed accepted =>
      apply joins placed
      obtain ⟨_, _, _, _, rfl, _⟩ := Engine.compensate_becomes accepted
      exact Thread.confined_ofTask Program.writesWithin_compensateProcess
  | move placed _ moved =>
      intro other present
      simp only [List.mem_append, List.mem_cons] at present
      rcases present with earlier | rfl | later
      · exact confined other (by simp [placed, earlier])
      · exact moved.confined (confined _ (by simp [placed]))
      · exact confined other (by simp [placed, later])
  | conclude placed => exact stays placed
  | deploy | undeploy | watchCompleted | watchFaulted | suspend | resume | terminate => exact confined

/-- A transition leaves variables of an instance alone that its definition does not write. -/
theorem Step.valueOf?_eq {moments : List Moment} {settings : Settings} {naming : Naming}
    {now : Timestamp} {definition : Definition}
    (reached : History (.new settings naming now) moments state)
    (transition : Step state occurrence next) (confined : state.Confined)
    (isDefinition : state.definition? id = some definition) (unwritten : name ∉ definition.writes) :
    next.valueOf? id name = state.valueOf? id name := by
  obtain ⟨entry, isEntry, _⟩ := Option.map_eq_some_iff.mp isDefinition
  have present : state.engine.instance? id = some entry.subject :=
    Engine.instance?_eq_of_entry? isEntry
  have situated : state.situation? id = some ⟨entry.subject, Run.find? id state.runs⟩ := by
    simp [situation?, present]
  have evolves := reached.evolves transition id
  rw [situated] at evolves
  rw [valueOf?_of_situation? situated]
  generalize isAfter : next.situation? id = after at evolves
  cases evolves with
  | elsewhere => exact valueOf?_of_situation? isAfter
  | step happened =>
      rw [valueOf?_of_situation? isAfter, happened.find?_eq]
      intro run isRun
      obtain ⟨isOne, ofInstance⟩ := mem_runs_of_run? situated isRun
      have ofDefinition := (reached.original run isOne).definition
      rw [ofInstance, isDefinition] at ofDefinition
      rw [← Option.some.inj ofDefinition]
      exact ⟨Option.some.inj ofDefinition ▸ confined run isOne, unwritten⟩

variable {settings : Settings} {naming : Naming} {now : Timestamp} {past moments : List Moment}

/-- All threads that there ever are write within the targets of their definitions. -/
theorem History.confined (history : History (.new settings naming now) moments state) :
    state.Confined := by
  induction history with
  | refl => simp [Confined, new]
  | step _ transition inductionHypothesis => exact transition.confined inductionHypothesis

/-- An instance keeps its definition through a history. -/
theorem History.definition?_eq {final : Snapshot} {definition : Definition}
    (reached : History (.new settings naming now) past state)
    (isDefinition : state.definition? id = some definition) (history : History state moments final) :
    final.definition? id = some definition := by
  induction history with
  | refl => exact isDefinition
  | step prior transition inductionHypothesis =>
      have sofar := reached.trans prior
      exact (transition.original sofar.project.1 sofar.original).2 id definition inductionHypothesis

/-- So do the variables that it does not write. -/
theorem History.valueOf?_eq {final : Snapshot} {definition : Definition}
    (reached : History (.new settings naming now) past state)
    (isDefinition : state.definition? id = some definition) (unwritten : name ∉ definition.writes)
    (history : History state moments final) :
    final.valueOf? id name = state.valueOf? id name ∧
      ∀ moment ∈ moments, moment.after.valueOf? id name = state.valueOf? id name := by
  induction history with
  | refl => simp
  | step prior transition inductionHypothesis =>
      obtain ⟨last, all⟩ := inductionHypothesis
      have sofar := reached.trans prior
      have same := transition.valueOf?_eq sofar sofar.confined
        (reached.definition?_eq isDefinition prior) unwritten
      rw [last] at same
      simp only [List.forall_mem_append, List.forall_mem_singleton]
      exact ⟨same, all, same⟩

/-- The variables of an instance that was just started are those that it was given. -/
theorem valueOf?_of_start {engine : Engine} {runs : List Run} {processId initiatedBy : String}
    {input : Bag} {run : Run} {definition : Definition} (valid : state.Valid) (name : String)
    (accepted : state.engine.start processId input initiatedBy = .ok (engine, run))
    (isDefinition : definition? run.instanceId ⟨engine, runs⟩ = some definition) :
    valueOf? run.instanceId name ⟨engine, runs⟩ = some ((definition.initialBag input).find? name) := by
  obtain ⟨started, subject, isNew, entries, _, _, isOwn, _⟩ := Engine.start_becomes accepted
  have fresh : state.engine.instance? subject.id = none := by
    rw [isNew]
    exact valid.instance?_fresh
  have absent : Entry.find? subject.id state.engine.entries = none :=
    Option.map_eq_none_iff.mp fresh
  have isEntry : engine.entry? run.instanceId = some ⟨started, subject⟩ := by
    simp only [Entry.find?] at absent
    simp [Engine.entry?, Entry.find?, entries, List.find?_append, isOwn, absent]
  simp only [definition?, isEntry, Option.map_some, Option.some.injEq] at isDefinition
  simp only [valueOf?, Engine.instance?, isEntry, Option.map_some]
  rw [isNew, ← isDefinition]
  rfl

/-- An instance that begins with a start is the one that was started. -/
theorem Step.instanceId_of_start {purpose : RunPurpose} {processId initiatedBy : String} {input : Bag}
    {run : Run} (begins : Step state (.done id (.began purpose)) next)
    (accepted : state.engine.start processId input initiatedBy = .ok (next.engine, run)) :
    run.instanceId = id := by
  obtain ⟨_, _, isNew, _, started, _, isOwn, _⟩ := Engine.start_becomes accepted
  cases begins with
  | start _ also =>
      obtain ⟨_, _, alsoNew, _, _, _, alsoOwn, _⟩ := Engine.start_becomes also
      rw [isOwn, alsoOwn, isNew, alsoNew]
      rfl
  | compensate _ undone =>
      obtain ⟨_, _, _, _, _, becomes⟩ := Engine.compensate_becomes undone
      -- Undoing an instance starts none.
      have same := becomes.started
      rw [started] at same
      omega

/-- Undoing an instance leaves it the definition that it had. -/
theorem Step.definition?_of_compensation {definition : Definition}
    (begins : Step state (.done id (.began .compensation)) next)
    (isDefinition : next.definition? id = some definition) :
    state.definition? id = some definition := by
  generalize isPurpose : RunPurpose.compensation = purpose at begins
  generalize isId : id = instanceId at begins isDefinition
  cases begins with
  | start _ accepted =>
      obtain ⟨_, _, _, _, _, _, _, _, ⟨_, _, purpose, _⟩ | ⟨_, purpose, _⟩⟩ :=
        Engine.start_becomes accepted
      · cases isPurpose.trans purpose
      · cases isPurpose.trans purpose
  | compensate _ accepted =>
      obtain ⟨_, _, _, _, _, becomes⟩ := Engine.compensate_becomes accepted
      exact (definition?_eq_of_put becomes _).symm.trans isDefinition

end Snapshot

open Snapshot (History Steps)

/-- A variable that a definition does not give to be written to stays as it is through every run of an
instance of it, and after it: from the input and the declarations on where the run began with the start of
the instance, and from what was found there where the instance is undone. -/
theorem unwritten_variable_kept {settings : Settings} {naming : Naming} {now : Timestamp}
    {past moments : List Snapshot.Moment} {before begun final : Snapshot} {id name : String}
    {purpose : RunPurpose} {definition : Definition}
    (reached : History (.new settings naming now) past before)
    (begins : Snapshot.Step before (.done id (.began purpose)) begun)
    (history : History begun moments final)
    (isDefinition : begun.definition? id = some definition) (unwritten : name ∉ definition.writes) :
    ∃ value?, begun.valueOf? id name = some value? ∧
      (∀ moment ∈ moments, moment.after.valueOf? id name = some value?) ∧
      (∀ processId input initiatedBy run,
        before.engine.start processId input initiatedBy = .ok (begun.engine, run) →
          value? = (definition.initialBag input).find? name) ∧
      (purpose = .compensation → before.valueOf? id name = some value?) := by
  obtain ⟨entry, isEntry, _⟩ := Option.map_eq_some_iff.mp isDefinition
  have known : begun.valueOf? id name = some (entry.subject.bag.find? name) := by
    simp [Snapshot.valueOf?, Engine.instance?_eq_of_entry? isEntry]
  have kept := ((reached.step begins).valueOf?_eq isDefinition unwritten history).2
  refine ⟨entry.subject.bag.find? name, known, ?_, ?_, ?_⟩
  · intro moment present
    rw [kept moment present, known]
  · intro processId input initiatedBy run accepted
    have isOwn : run.instanceId = id := begins.instanceId_of_start accepted
    rw [← isOwn] at known isDefinition
    have seeded := Snapshot.valueOf?_of_start reached.project.1 name accepted isDefinition
    exact Option.some.inj (known.symm.trans seeded)
  · rintro rfl
    have wasDefinition := begins.definition?_of_compensation isDefinition
    rw [← begins.valueOf?_eq reached reached.confined wasDefinition unwritten, known]

namespace OnlyRead

/-- Writes to a variable and to one that is not there. -/
def sum : Activity :=
  { id := "sum", kind := .assign,
    copies := [⟨.stored "order.price", "total.net"⟩, ⟨.stored "order", "total.order"⟩] }

/-- Fails. -/
def broken : Activity := { id := "broken", kind := .throw, faultName := some "Broken" }

/-- Recovers. -/
def calm : Activity := { id := "calm", kind := .empty }

/-- Sums up, and binds the failure behind it to a variable. -/
def main : Activity :=
  { id := "main", kind := .scope, children := ["sum", "broken"],
    faultHandlers := [⟨"*", some "caught.last", "calm"⟩] }

/-- A process that reads an order and writes to other variables. -/
def definition : Definition := .ofActivities "p" "P" "main" [main, sum, broken, calm]

/-- An order of a price. -/
def input : Bag := [("order", .record [("price", .integer 3)])]

/-- An instance is started, and completes when it has written variables. -/
theorem summed : ∃ past before engine run,
    History (.new .default (.numbered "i-") ⟨0, 0⟩) past before ∧ before.runs = [] ∧
      before.engine.start "p" input "oracle" = .ok (engine, run) ∧ run.instanceId = "i-1" ∧
        Snapshot.definition? "i-1" ⟨engine, [run]⟩ = some definition ∧
          Snapshot.valueOf? "i-1" "total" ⟨engine, [run]⟩ = some none ∧
            ∃ ended occurrence final, Steps ⟨engine, [run]⟩ ended ∧
              Snapshot.Step ended occurrence final ∧ final.status? "i-1" = some .completed ∧
                ∃ total, final.valueOf? "i-1" "total" = some (some total) := by
  have deployed : Steps (.new .default (.numbered "i-") ⟨0, 0⟩) ⟨_, []⟩ :=
    .single (@Snapshot.Step.deploy _ definition _ rfl)
  obtain ⟨past, reached⟩ := deployed
  refine ⟨past, _, _, _, reached, rfl, rfl, ?_⟩
  refine ⟨rfl, rfl, rfl, _, _, _, Engine.steps_advance 0 _ _ [] [],
    @Snapshot.Step.conclude _ [] [] _ _ rfl rfl, ?_⟩
  exact ⟨rfl, _, rfl⟩

end OnlyRead

/-- While other variables are written the input is kept to the end. -/
theorem exists_input_kept : ∃ past before begun moments final,
    History (.new .default (.numbered "i-") ⟨0, 0⟩) past before ∧
      (∃ purpose, Snapshot.Step before (.done "i-1" (.began purpose)) begun) ∧
        History begun moments final ∧ final.status? "i-1" = some .completed ∧
          begun.definition? "i-1" = some OnlyRead.definition ∧ "order" ∉ OnlyRead.definition.writes ∧
            begun.valueOf? "i-1" "total" = some none ∧
              (∃ total, final.valueOf? "i-1" "total" = some (some total)) ∧
                final.valueOf? "i-1" "order" = some (some (.record [("price", .integer 3)])) := by
  obtain ⟨past, before, engine, run, reached, idle, accepted, isOwn, isDefinition, absent, ended,
    occurrence, final, ⟨moments, executes⟩, concludes, completed, summed⟩ := OnlyRead.summed
  have begins := @Snapshot.Step.start before "p" "oracle" OnlyRead.input engine [] [] run idle accepted
  rw [isOwn] at begins
  have history := executes.step concludes
  have unwritten : "order" ∉ OnlyRead.definition.writes := by decide
  obtain ⟨value?, _, kept, seeded, _⟩ :=
    unwritten_variable_kept reached begins history isDefinition unwritten
  refine ⟨past, before, _, _, final, reached, ⟨_, begins⟩, history, completed, isDefinition, unwritten,
    absent, summed, ?_⟩
  rw [kept ⟨occurrence, final⟩ List.mem_concat_self, seeded _ _ _ _ accepted]
  rfl

end Orchestration
