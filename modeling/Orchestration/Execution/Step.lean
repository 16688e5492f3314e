import Orchestration.Execution.Thread

/-!
# Moves of threads

What a thread may do next, one move at a time. Where branches are under way any of them may move, and a
thread that rests may wake at any time, so the relation allows every order in which the branches of a
process can possibly act. `Thread.advance` picks one of these orders: by `Thread.steps_advance` all that
it does is done by moves.

Every move says what it did, and sequences of moves keep that in order.
-/

namespace Orchestration

/-- What a move did. -/
inductive Move where
  /-- An action was performed, with a reply. -/
  | performed (action : Action) (reply : action.Reply)
  /-- An execution began, with the mark that it is executing. -/
  | entered (call : Call)
  /-- An execution ended, with the mark of how it did and its entry in the log. -/
  | left (call : Call) (result : Result)
  /-- Nothing that touches an instance. -/
  | silent

namespace Thread

/-- One move of a thread on a scene. -/
inductive Step (program : Program) : Scene → Thread → Move → Scene → Thread → Prop where
  /-- A task that is inside of no call and has nothing left to do ends. -/
  | finish {scene : Scene} {result : Result} :
      Step program scene (.ready [] (.done result)) .silent scene (.ended result)
  /-- An execution whose task is done ends, and its caller goes on. -/
  | leave {scene : Scene} {call : Call} {calls : List Call} {result : Result} :
      Step program scene (.ready (call :: calls) (.done result)) (.left call result)
        (scene.perform (.close call.activity result)).1 (.ready calls (call.next result))
  /-- A task goes on with the reply to its action. -/
  | act {scene : Scene} {calls : List Call} {action : Action} {next : action.Reply → Task} :
      Step program scene (.ready calls (.act action next))
        (.performed action (scene.perform action).2) (scene.perform action).1
        (.ready calls (next (scene.perform action).2))
  /-- A called activity begins to execute. -/
  | enter {scene : Scene} {calls : List Call} {call : Call} :
      Step program scene (.ready calls (.call call.activity call.role call.next)) (.entered call)
        (scene.perform (.start call.activity)).1
        (.ready (call :: calls) (program.body call.activity))
  /-- A wait puts its task to sleep. -/
  | rest {scene : Scene} {calls : List Call} {duration : Duration} {next : Task} {time : Nat} :
      Step program scene (.ready calls (.wait duration next)) .silent
        scene (.asleep calls time next)
  /-- A task that slept goes on. -/
  | wake {scene : Scene} {calls : List Call} {time : Nat} {task : Task} :
      Step program scene (.asleep calls time task) .silent scene (.ready calls task)
  /-- The branches of a task get under way. -/
  | fork {scene : Scene} {calls : List Call} {branches : List Task}
      {join : List Result → Task} :
      Step program scene (.ready calls (.fork branches join)) .silent
        scene (.joined calls (branches.map ofTask) join)
  /-- One of the branches moves. -/
  | branch {scene nextScene : Scene} {calls : List Call} {branches : List Thread}
      {join : List Result → Task} {index : Nat} {thread nextThread : Thread} {move : Move}
      (present : branches[index]? = some thread)
      (moved : Step program scene thread move nextScene nextThread) :
      Step program scene (.joined calls branches join) move
        nextScene (.joined calls (branches.set index nextThread) join)
  /-- Branches that have all ended give way to what follows them. -/
  | join {scene : Scene} {calls : List Call} {branches : List Thread}
      {join : List Result → Task} {results : List Result}
      (known : results? branches = some results) :
      Step program scene (.joined calls branches join) .silent scene (.ready calls (join results))

/-- Moves one after another. -/
inductive Steps (program : Program) (scene : Scene) (thread : Thread) :
    List Move → Scene → Thread → Prop where
  | refl : Steps program scene thread [] scene thread
  | step {moves : List Move} {move : Move} {middleScene nextScene : Scene}
      {middleThread nextThread : Thread}
      (prior : Steps program scene thread moves middleScene middleThread)
      (moved : Step program middleScene middleThread move nextScene nextThread) :
      Steps program scene thread (moves ++ [move]) nextScene nextThread

namespace Steps

variable {program : Program} {scene middleScene nextScene : Scene}
  {thread middleThread nextThread : Thread}

/-- A single move. -/
theorem single {move : Move} (moved : Step program scene thread move nextScene nextThread) :
    Steps program scene thread [move] nextScene nextThread :=
  Steps.step .refl moved

/-- Moves after moves. -/
theorem trans {first second : List Move}
    (prior : Steps program scene thread first middleScene middleThread)
    (later : Steps program middleScene middleThread second nextScene nextThread) :
    Steps program scene thread (first ++ second) nextScene nextThread := by
  induction later with
  | refl => simpa using prior
  | step _ moved inductionHypothesis =>
      simpa [List.append_assoc] using Steps.step inductionHypothesis moved

/-- Moves of one branch are moves of the whole. -/
theorem branch {moves : List Move} (calls : List Call) (before after : List Thread)
    (join : List Result → Task) (moved : Steps program scene thread moves nextScene nextThread) :
    Steps program scene (.joined calls (before ++ thread :: after) join) moves
      nextScene (.joined calls (before ++ nextThread :: after) join) := by
  induction moved with
  | refl => exact .refl
  | @step moves move middleScene nextScene middleThread nextThread _ moved
      inductionHypothesis =>
      have present : (before ++ middleThread :: after)[before.length]? = some middleThread := by
        simp
      simpa using Steps.step inductionHypothesis (Step.branch present moved)

end Steps

/-- Whoever stood in a list where one entry gave way to another was that entry, or stays in place. -/
theorem same_or_getElem?_set {α : Type} {entries : List α} {index place : Nat} {moving entry : α}
    (next : α) (present : entries[index]? = some moving) (isEntry : entries[place]? = some entry) :
    (place = index ∧ entry = moving) ∨ (entries.set index next)[place]? = some entry := by
  by_cases same : index = place
  · subst same
    exact .inl ⟨rfl, Option.some.inj (isEntry.symm.trans present)⟩
  · exact .inr ((List.getElem?_set_ne same).trans isEntry)

/-- What was in a list where one entry gave way to another was that entry, or still is in it. -/
theorem same_or_mem_set {α : Type} {entries : List α} {index : Nat} {moving entry : α} (next : α)
    (present : entries[index]? = some moving) (isEntry : entry ∈ entries) :
    entry = moving ∨ entry ∈ entries.set index next := by
  obtain ⟨place, isPlace⟩ := List.getElem?_of_mem isEntry
  rcases same_or_getElem?_set next present isPlace with ⟨_, same⟩ | stays
  · exact .inl same
  · exact .inr (List.mem_of_getElem? stays)

/-- A move keeps the id of the instance. -/
theorem Step.id_eq {program : Program} {scene nextScene : Scene} {thread nextThread : Thread}
    {move : Move} (moved : Step program scene thread move nextScene nextThread) :
    nextScene.subject.id = scene.subject.id := by
  induction moved with
  | leave => exact Action.id_perform _ _
  | act => exact Action.id_perform _ _
  | enter => exact Action.id_perform _ _
  | branch _ _ inductionHypothesis => exact inductionHypothesis
  | _ => rfl

/-- Moves keep the id of the instance. -/
theorem Steps.id_eq {program : Program} {scene nextScene : Scene} {thread nextThread : Thread}
    {moves : List Move} (moved : Steps program scene thread moves nextScene nextThread) :
    nextScene.subject.id = scene.subject.id := by
  induction moved with
  | refl => rfl
  | step _ moved inductionHypothesis => exact moved.id_eq.trans inductionHypothesis

/-- What a way of moving threads does, it does by moves. -/
def MovesBySteps (program : Program) (move : Scene → Thread → Scene × Thread) : Prop :=
  ∀ (scene : Scene) (thread : Thread),
    ∃ moves, Steps program scene thread moves (move scene thread).1 (move scene thread).2

/-- Moving branches one after another moves the whole. -/
theorem steps_advanceAll {program : Program} {move : Scene → Thread → Scene × Thread}
    (movesBySteps : MovesBySteps program move) (calls : List Call) (join : List Result → Task)
    (before threads : List Thread) (scene : Scene) :
    ∃ moves, Steps program scene (.joined calls (before ++ threads) join) moves
      (advanceAll move scene threads).1
      (.joined calls (before ++ (advanceAll move scene threads).2) join) := by
  induction threads generalizing before scene with
  | nil => exact ⟨[], .refl⟩
  | cons thread threads inductionHypothesis =>
      obtain ⟨first, firstSteps⟩ := movesBySteps scene thread
      obtain ⟨rest, restSteps⟩ :=
        inductionHypothesis (before ++ [(move scene thread).2]) (move scene thread).1
      refine ⟨first ++ rest, (firstSteps.branch calls before threads join).trans ?_⟩
      simpa [advanceAll] using restSteps

/-- Whatever a thread does at an instant, it does by moves. -/
theorem steps_advance (program : Program) (now limit : Nat) :
    MovesBySteps program (advance program now limit) := by
  induction limit with
  | zero => exact fun _ _ => ⟨[], .refl⟩
  | succ limit inductionHypothesis =>
      intro scene thread
      have goOn {move : Move} {nextScene : Scene} {calls : List Call} {task : Task}
          (moved : Step program scene thread move nextScene (.ready calls task)) :
          ∃ moves, Steps program scene thread moves
            (advance program now limit nextScene (.ready calls task)).1
            (advance program now limit nextScene (.ready calls task)).2 := by
        obtain ⟨moves, steps⟩ := inductionHypothesis nextScene (.ready calls task)
        exact ⟨_, (Steps.single moved).trans steps⟩
      cases thread with
      | ended result => exact ⟨[], .refl⟩
      | asleep calls time task =>
          by_cases due : time ≤ now
          · simpa only [advance, if_pos due] using goOn .wake
          · exact ⟨[], by simpa only [advance, if_neg due] using Steps.refl⟩
      | joined calls branches join =>
          obtain ⟨moves, steps⟩ :=
            steps_advanceAll inductionHypothesis calls join [] branches scene
          simp only [List.nil_append] at steps
          cases known :
              results? (advanceAll (advance program now limit) scene branches).2 with
          | none => exact ⟨moves, by simpa only [advance, known] using steps⟩
          | some results =>
              obtain ⟨later, laterSteps⟩ := inductionHypothesis
                (advanceAll (advance program now limit) scene branches).1
                (.ready calls (join results))
              have joined := (steps.trans (Steps.single (.join known))).trans laterSteps
              exact ⟨_, by simpa only [advance, known] using joined⟩
      | ready calls task =>
          cases task with
          | done result =>
              cases calls with
              | nil => exact ⟨_, Steps.single .finish⟩
              | cons call calls => simpa only [advance] using goOn .leave
          | act action next => simpa only [advance] using goOn .act
          | call activity role next =>
              simpa only [advance] using goOn (@Step.enter _ _ _ ⟨activity, role, next⟩)
          | wait duration next =>
              by_cases instant : duration.ceilingMilliseconds = 0
              · obtain ⟨moves, steps⟩ := inductionHypothesis scene (.ready calls next)
                have rested : Step program scene (.ready calls (.wait duration next)) .silent
                    scene (.asleep calls now next) := .rest
                have waited := ((Steps.single rested).trans (Steps.single .wake)).trans steps
                exact ⟨_, by simpa only [advance, if_pos instant] using waited⟩
              · have rested : Step program scene (.ready calls (.wait duration next)) .silent
                    scene (.asleep calls (now + duration.ceilingMilliseconds) next) := .rest
                exact ⟨_, by simpa only [advance, if_neg instant] using Steps.single rested⟩
          | fork branches join =>
              obtain ⟨moves, steps⟩ :=
                inductionHypothesis scene (.joined calls (branches.map ofTask) join)
              exact ⟨_, by simpa only [advance] using (Steps.single .fork).trans steps⟩

end Thread

end Orchestration
