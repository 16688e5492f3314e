import Orchestration.Engine.Lifecycle

/-!
# Scenarios

A scenario is a list of requests to one engine, made one after another, each of which may be accompanied
by others that are made a while after it began. `Job` is a request under way, and `Job.advance` lets it
and its companions move at one instant. As work takes no time, the clock can go straight on to the next
instant at which anything can move.
-/

namespace Orchestration

/-- Something that an engine is asked. -/
inductive Request where
  /-- The definition to deploy, or the failure of reading it. -/
  | deploy (definition : Except Failure Definition)
  | undeploy (processId : String)
  | showProcess (processId : String)
  | start (processId : String) (input : Bag) (initiatedBy : String)
  | suspend (instanceId : String)
  | resume (instanceId : String)
  | terminate (instanceId : String)
  | compensate (instanceId : String)
  | showInstance (instanceId : String)
  | listByProcess (processId : String)
  | listByStatus (status : InstanceStatus)
  | count
  | onCompleted (callback : Callback)
  | onFaulted (callback : Callback)

/-- The sizes of an engine. -/
structure Counts where
  processes : Nat
  instances : Nat
  active : Nat
  maxLoopIterations : Nat
  deriving DecidableEq, Repr

/-- What an engine answers. -/
inductive Answer where
  /-- An operation was carried out or refused. -/
  | settled (outcome : Except Failure Unit)
  | process (found : Option Definition)
  /-- An instance as it stood when its run had ended after some milliseconds. -/
  | started (subject : Instance) (elapsed : Nat)
  /-- How undoing an instance ended after some milliseconds, and the instance after it. -/
  | compensated (outcome : Except Failure Unit) (elapsed : Nat) (after : Option Instance)
  | subject (found : Option Instance)
  | listed (found : List Instance)
  | counted (counts : Counts)
  /-- The answers to a request and to those that accompanied it. -/
  | together (main : Answer) (during : List Answer)

/-- A request, alone or with others that follow it while it is under way, each after a count of
milliseconds. -/
inductive Step where
  | alone (request : Request)
  | together (request : Request) (during : List (Nat × Step))

instance : Inhabited Step := ⟨.alone .count⟩

/-- A request under way. -/
inductive Job where
  /-- A step that is made at a time. -/
  | scheduled (time : Nat) (step : Step)
  /-- A run of an instance that began at a time. -/
  | underWay (begun : Nat) (run : Run)
  | together (main : Job) (during : List Job)
  | answered (answer : Answer)

namespace Engine

/-- The answer to an operation that either changes the engine or is refused. -/
def settle (engine : Engine) (changed : Except Refusal Engine) : Engine × Job :=
  match changed with
  | .ok engine => (engine, .answered (.settled (.ok ())))
  | .error refusal => (engine, .answered (.settled (.error refusal.toFailure)))

/-- The answer to the start of an instance that is refused, or the run that will lead to one. -/
def settleStart (now : Nat) (engine : Engine) (begun : Except Refusal (Engine × Run)) :
    Engine × Job :=
  match begun with
  | .ok (engine, run) => (engine, .underWay now run)
  | .error refusal => (engine, .answered (.settled (.error refusal.toFailure)))

/-- The answer to the wish to undo an instance, or the run that will lead to it. -/
def settleCompensate (now : Nat) (instanceId : String) (engine : Engine)
    (begun : Except Refusal (Engine × Run)) : Engine × Job :=
  match begun with
  | .ok (engine, run) => (engine, .underWay now run)
  | .error refusal =>
      (engine, .answered (.compensated (.error refusal.toFailure) 0 (engine.instance? instanceId)))

/-- The sizes of an engine. -/
def counts (engine : Engine) : Counts where
  processes := engine.processCount
  instances := engine.instanceCount
  active := engine.activeCount
  maxLoopIterations := engine.settings.maxLoopIterations

/-- Makes a request at a time. -/
def request (now : Nat) (engine : Engine) : Request → Engine × Job
  | .deploy (.ok definition) => engine.settle (engine.deploy definition)
  | .deploy (.error failure) => (engine, .answered (.settled (.error failure)))
  | .undeploy processId => engine.settle (engine.undeploy processId)
  | .showProcess processId => (engine, .answered (.process (engine.process? processId)))
  | .start processId input initiatedBy =>
      engine.settleStart now (engine.start processId input initiatedBy)
  | .suspend instanceId => engine.settle (engine.suspend instanceId)
  | .resume instanceId => engine.settle (engine.resume instanceId)
  | .terminate instanceId => engine.settle (engine.terminate instanceId)
  | .compensate instanceId =>
      engine.settleCompensate now instanceId (engine.compensate instanceId)
  | .showInstance instanceId => (engine, .answered (.subject (engine.instance? instanceId)))
  | .listByProcess processId => (engine, .answered (.listed (engine.instancesOfProcess processId)))
  | .listByStatus status => (engine, .answered (.listed (engine.instancesInStatus status)))
  | .count => (engine, .answered (.counted engine.counts))
  | .onCompleted callback => (engine.onCompleted callback, .answered (.settled (.ok ())))
  | .onFaulted callback => (engine.onFaulted callback, .answered (.settled (.ok ())))

/-- The answer to a run that has ended with an instance. -/
def runAnswer (purpose : RunPurpose) (elapsed : Nat) (subject : Option Instance) : Answer :=
  match purpose, subject with
  | .compensation, subject => .compensated (.ok ()) elapsed subject
  | _, some subject => .started subject elapsed
  | _, none => .subject none

end Engine

namespace Job

/-- Moves jobs one after another. -/
def advanceAll (advance : Engine → Job → Engine × Job) (engine : Engine) :
    List Job → Engine × List Job
  | [] => (engine, [])
  | job :: jobs =>
      let (engine, job) := advance engine job
      let (engine, jobs) := advanceAll advance engine jobs
      (engine, job :: jobs)

/-- The answers of jobs that are all over. -/
def answers? : List Job → Option (List Answer)
  | [] => some []
  | .answered answer :: jobs => (answers? jobs).map (answer :: ·)
  | _ :: _ => none

/-- Lets a job move at an instant. The limit is on the number of moves from one form of a job to the
next; a job that reaches it can move on from where it stands. -/
def advance (now : Nat) : Nat → Engine → Job → Engine × Job
  | 0, engine, job => (engine, job)
  | limit + 1, engine, job =>
      match job with
      | .answered answer => (engine, .answered answer)
      | .scheduled time step =>
          if time ≤ now then
            match step with
            | .alone request =>
                let (engine, job) := engine.request now request
                advance now limit engine job
            | .together request during =>
                advance now limit engine <| .together (.scheduled now (.alone request))
                  (during.map fun (delay, step) => .scheduled (now + delay) step)
          else (engine, .scheduled time step)
      | .underWay begun run =>
          let (engine, run) := engine.advance now run
          match run.thread with
          | .ended result =>
              let (engine, subject) := engine.conclude run result
              (engine, .answered (Engine.runAnswer run.purpose (now - begun) subject))
          | _ => (engine, .underWay begun run)
      | .together main during =>
          let (engine, main) := advance now limit engine main
          let (engine, during) := advanceAll (advance now limit) engine during
          match main, answers? during with
          | .answered answer, some answers => (engine, .answered (.together answer answers))
          | main, _ => (engine, .together main during)

mutual

/-- The earliest time, from now on, at which a job can move; none for one that is over. -/
def nextMove? (now : Nat) : Job → Option Nat
  | .scheduled time _ => some (max now time)
  | .underWay _ run => some ((run.thread.nextMove? now).getD now)
  | .together main during =>
      match Thread.earlier (main.nextMove? now) (nextMoveOfAny? now during) with
      | some time => some time
      | none => some now
  | .answered _ => none

/-- The earliest time at which any of the jobs can move. -/
def nextMoveOfAny? (now : Nat) : List Job → Option Nat
  | [] => none
  | job :: jobs => Thread.earlier (job.nextMove? now) (nextMoveOfAny? now jobs)

end

/-- Lets a job move until it is over, and gives its answer and the time at which it was, unless it takes
more than so many rounds. -/
def run : Nat → Nat → Engine → Job → Engine × Option (Answer × Nat)
  | 0, _, engine, _ => (engine, none)
  | rounds + 1, now, engine, job =>
      match advance now Thread.slice engine job with
      | (engine, .answered answer) => (engine, some (answer, now))
      | (engine, job) => run rounds ((job.nextMove? now).getD now) engine job

end Job

namespace Engine

/-- Makes the requests of a scenario one after another from a time on. With each answer come the calls
of callbacks that happened before it. -/
def play (now : Nat) (engine : Engine) : List Step → Engine × List (Answer × List Notice)
  | [] => (engine, [])
  | step :: steps =>
      let before := engine.notices.size
      match Job.run Thread.slice now engine (.scheduled now step) with
      | (engine, some (answer, now)) =>
          let notices := engine.notices.toList.drop before
          let (engine, answers) := engine.play now steps
          (engine, (answer, notices) :: answers)
      | (engine, none) => (engine, [])

end Engine

end Orchestration
