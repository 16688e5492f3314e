import Orchestration.Execution.Program

/-!
# Threads

A thread is a task under way, together with the calls that it is inside of: the executions of activities
that have begun and not ended, each with what its caller goes on with. Branches of a task are threads of
their own, and may rest until different times. Time is counted in whole milliseconds from some beginning,
and work takes none of it.

An execution makes two marks on the instance. It begins when its activity is called, with a mark that it
is executing, and it ends when the task of the activity is done, with a mark of how it ended and an entry
in the log.

`Thread.advance` lets everything move that can move at one instant, in the order of the tree: each branch
goes on until it rests or ends, and then the next one does. A wait of no time at all is no rest.
-/

namespace Orchestration

/-- An execution that has begun: the activity, what it was called for, and how its caller goes on with the
result. -/
structure Call where
  activity : Activity
  role : Role
  next : Result → Task

/-- A task under way. The calls that it is inside of come innermost first. -/
inductive Thread where
  /-- A task that can move now. -/
  | ready (calls : List Call) (task : Task)
  /-- A task that moves again at a time. -/
  | asleep (calls : List Call) (wake : Nat) (task : Task)
  /-- Branches under way, and what follows when all of them have ended. -/
  | joined (calls : List Call) (branches : List Thread) (join : List Result → Task)
  /-- Nothing more to do. -/
  | ended (result : Result)

/-- A task that is about to begin. -/
def Thread.ofTask (task : Task) : Thread := .ready [] task

/-- The results of threads that have all ended. -/
def Thread.results? : List Thread → Option (List Result)
  | [] => some []
  | .ended result :: threads => (Thread.results? threads).map (result :: ·)
  | _ :: _ => none

/-- The earlier of two times, either of which may never come. -/
def Thread.earlier : Option Nat → Option Nat → Option Nat
  | some left, some right => some (min left right)
  | some left, none => some left
  | none, right => right

mutual

/-- The earliest time, from now on, at which a thread can move; none for one that has ended. -/
def Thread.nextMove? (now : Nat) : Thread → Option Nat
  | .ready .. => some now
  | .asleep _ wake _ => some (max now wake)
  | .joined _ branches _ =>
      if (Thread.results? branches).isSome then some now else Thread.nextMoveOfAny? now branches
  | .ended _ => none

/-- The earliest time at which any of the threads can move. -/
def Thread.nextMoveOfAny? (now : Nat) : List Thread → Option Nat
  | [] => none
  | thread :: threads => Thread.earlier (thread.nextMove? now) (Thread.nextMoveOfAny? now threads)

end

/-- An instance on which threads act, and the events of their actions. -/
structure Scene where
  subject : Instance
  events : Array Event

namespace Scene

/-- Performs an action. -/
def perform (scene : Scene) (action : Action) : Scene × action.Reply :=
  let effect := action.perform scene.subject
  (⟨effect.subject, scene.events ++ effect.events⟩, effect.reply)

end Scene

namespace Thread

/-- Moves threads one after another. -/
def advanceAll (advance : Scene → Thread → Scene × Thread) (scene : Scene) :
    List Thread → Scene × List Thread
  | [] => (scene, [])
  | thread :: threads =>
      let (scene, thread) := advance scene thread
      let (scene, threads) := advanceAll advance scene threads
      (scene, thread :: threads)

/-- Lets a thread move at an instant until it rests or ends. The limit is on the number of moves; a
thread that reaches it is left where it stands and can move on from there. -/
def advance (program : Program) (now : Nat) : Nat → Scene → Thread → Scene × Thread
  | 0, scene, thread => (scene, thread)
  | limit + 1, scene, thread =>
      match thread with
      | .ended result => (scene, .ended result)
      | .asleep calls wake task =>
          if wake ≤ now then advance program now limit scene (.ready calls task)
          else (scene, .asleep calls wake task)
      | .joined calls branches join =>
          let (scene, branches) := advanceAll (advance program now limit) scene branches
          match results? branches with
          | some results => advance program now limit scene (.ready calls (join results))
          | none => (scene, .joined calls branches join)
      | .ready [] (.done result) => (scene, .ended result)
      | .ready (call :: calls) (.done result) =>
          let (scene, _) := scene.perform (.close call.activity result)
          advance program now limit scene (.ready calls (call.next result))
      | .ready calls (.act action next) =>
          let (scene, reply) := scene.perform action
          advance program now limit scene (.ready calls (next reply))
      | .ready calls (.call activity role next) =>
          let (scene, _) := scene.perform (.start activity)
          advance program now limit scene
            (.ready (⟨activity, role, next⟩ :: calls) (program.body activity))
      | .ready calls (.wait duration next) =>
          if duration.ceilingMilliseconds = 0 then
            advance program now limit scene (.ready calls next)
          else (scene, .asleep calls (now + duration.ceilingMilliseconds) next)
      | .ready calls (.fork branches join) =>
          advance program now limit scene (.joined calls (branches.map ofTask) join)

/-- The number of moves after which a thread is looked at again. -/
def slice : Nat := Nat.pow 2 60

/-- Runs a thread on its own from a time on, and gives its result if it ends within so many rounds. -/
def run (program : Program) : Nat → Nat → Scene → Thread → Scene × Option Result
  | 0, _, scene, _ => (scene, none)
  | rounds + 1, now, scene, thread =>
      match advance program now slice scene thread with
      | (scene, .ended result) => (scene, some result)
      | (scene, thread) =>
          run program rounds ((thread.nextMove? now).getD now) scene thread

end Thread

namespace Task

/-- Runs a task on its own on an instance. -/
def run (program : Program) (subject : Instance) (task : Task) : Scene × Option Result :=
  Thread.run program Thread.slice 0 ⟨subject, #[]⟩ (.ofTask task)

end Task

end Orchestration
