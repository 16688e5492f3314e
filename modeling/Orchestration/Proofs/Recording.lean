import Orchestration.Proofs.Nesting
import Orchestration.Proofs.Projection
import Orchestration.Proofs.Records

/-!
# Runs leave records

A thread stands where its task does of which so much has been done as was recorded, and every move adds
to the record what it did, in its place. So every run that is under way has a record that its task
unfolds to, and that the moves it has made come to.
-/

namespace Orchestration

namespace Thread

/-- The result of a thread that has ended. -/
def result? : Thread → Option Result
  | .ended result => some result
  | _ => none

/-- That a thread stands where a task does of which so much has been done. -/
inductive Follows (program : Program) : Task → List Record → Thread → Prop where
  | ready {task : Task} : Follows program task [] (.ready [] task)
  | asleep {duration : Duration} {wake : Nat} {next : Task} :
      Follows program (.wait duration next) [] (.asleep [] wake next)
  | ended {result : Result} : Follows program (.done result) [] (.ended result)
  | act {action : Action} {next : action.Reply → Task} {reply : action.Reply}
      {records : List Record} {thread : Thread}
      (continues : Follows program (next reply) records thread) :
      Follows program (.act action next) (.performed action reply :: records) thread
  | wait {duration : Duration} {next : Task} {records : List Record} {thread : Thread}
      (continues : Follows program next records thread) :
      Follows program (.wait duration next) records thread
  | inside {activity : Activity} {role : Role} {next : Result → Task} {within : List Record}
      {inner outer : Thread} (begun : Follows program (program.body activity) within inner)
      (under : Under ⟨activity, role, next⟩ inner outer) :
      Follows program (.call activity role next) [.executed activity role within none] outer
  | call {activity : Activity} {role : Role} {next : Result → Task} {within records : List Record}
      {result : Result} {thread : Thread}
      (ended : (program.body activity).Unfolds program within (some result))
      (continues : Follows program (next result) records thread) :
      Follows program (.call activity role next)
        (.executed activity role within (some result) :: records) thread
  | aside {branches : List Task} {join : List Result → Task}
      {sides : List (List Record × Option Result)} {threads : List Thread}
      (paired : sides.length = branches.length)
      (follow : ∀ (index : Nat) (branch : Task) (side : List Record × Option Result)
        (thread : Thread), branches[index]? = some branch → sides[index]? = some side →
          threads[index]? = some thread → Follows program branch side.1 thread)
      (known : sides.map Prod.snd = threads.map result?) :
      Follows program (.fork branches join) [.branched sides] (.joined [] threads join)
  | fork {branches : List Task} {join : List Result → Task}
      {sides : List (List Record × Option Result)} {results : List Result} {records : List Record}
      {thread : Thread} (paired : sides.length = branches.length)
      (ended : sides.map Prod.snd = results.map some)
      (unfold : ∀ (index : Nat) (branch : Task) (side : List Record × Option Result),
        branches[index]? = some branch → sides[index]? = some side →
          branch.Unfolds program side.1 side.2)
      (continues : Follows program (join results) records thread) :
      Follows program (.fork branches join) (.branched sides :: records) thread

/-- A thread that is inside of a call has not ended, nor has it without the call. -/
theorem Under.open {call : Call} {inner outer : Thread} (under : Under call inner outer) :
    inner.result? = none ∧ outer.result? = none := by
  cases under <;> exact ⟨rfl, rfl⟩

/-- Results of threads are known when each of the threads has ended with its own. -/
theorem results?_eq_some {threads : List Thread} {results : List Result}
    (known : results? threads = some results) : threads.map result? = results.map some := by
  rw [eq_ended_of_results? known, List.map_map]
  rfl

/-- Of lists that a map each makes equal, one has an element where the other does. -/
theorem getElem?_of_map_eq {α β γ : Type} {first : α → γ} {second : β → γ} {left : List α}
    {right : List β} (same : left.map first = right.map second) {index : Nat} {one : α}
    (isOne : left[index]? = some one) :
    ∃ other, right[index]? = some other ∧ first one = second other := by
  have atIndex := congrArg (fun list => list[index]?) same
  simp only [List.getElem?_map, isOne, Option.map_some] at atIndex
  obtain ⟨other, isOther, agree⟩ := Option.map_eq_some_iff.mp atIndex.symm
  exact ⟨other, isOther, agree.symm⟩

namespace Follows

variable {program : Program} {task : Task} {records : List Record} {thread : Thread}

/-- A thread stands after records that its task unfolds to. -/
theorem unfolds (follows : thread.Follows program task records) :
    task.Unfolds program records thread.result? := by
  induction follows with
  | ready => exact .rest
  | asleep => exact .rest
  | ended => exact .done
  | act _ inductionHypothesis => exact .act inductionHypothesis
  | wait _ inductionHypothesis => exact .wait inductionHypothesis
  | inside _ under inductionHypothesis =>
      obtain ⟨innerOpen, outerOpen⟩ := under.open
      rw [innerOpen] at inductionHypothesis
      rw [outerOpen]
      exact .inside inductionHypothesis
  | call ended _ inductionHypothesis => exact .call ended inductionHypothesis
  | aside paired _ known inductionHypothesis =>
      refine .aside paired fun index branch side isBranch isSide => ?_
      obtain ⟨thread, isThread, agree⟩ := getElem?_of_map_eq known isSide
      rw [agree]
      exact inductionHypothesis index branch side thread isBranch isSide isThread
  | fork paired ended unfold _ inductionHypothesis =>
      exact .fork paired ended unfold inductionHypothesis

/-- A thread that has nothing left to do has the records of a task that has ended. -/
theorem finished {result : Result} (follows : Follows program task records (.ready [] (.done result))) :
    task.Unfolds program records (some result) := by
  generalize isReady : Thread.ready [] (.done result) = thread at follows
  induction follows with
  | ready =>
      cases isReady
      exact .done
  | asleep => cases isReady
  | ended => cases isReady
  | act _ inductionHypothesis => exact .act (inductionHypothesis isReady)
  | wait _ inductionHypothesis => exact .wait (inductionHypothesis isReady)
  | inside _ under =>
      subst isReady
      generalize isCalls : ([] : List Call) = calls at under
      cases under with
      | ready => simp at isCalls
  | call ended _ inductionHypothesis => exact .call ended (inductionHypothesis isReady)
  | aside => cases isReady
  | fork paired ended unfold _ inductionHypothesis =>
      exact .fork paired ended unfold (inductionHypothesis isReady)

end Follows

variable {program : Program} {scene nextScene : Scene} {thread nextThread : Thread} {move : Move}
  {task : Task} {records : List Record}

/-- A thread that moves has not ended. -/
theorem Step.open (moved : Step program scene thread move nextScene nextThread) :
    thread.result? = none := by
  cases moved <;> rfl

/-- A move adds to the record what it did, and the thread stands after that. -/
theorem Step.follows (moved : Step program scene thread move nextScene nextThread)
    (follows : thread.Follows program task records) :
    ∃ path later, Record.Grows path records move later ∧ Follows program task later nextThread := by
  induction follows generalizing nextThread with
  | @ready task =>
      cases moved with
      | finish => exact ⟨_, _, .silent, .ended⟩
      | act => exact ⟨_, _, .performed, .act .ready⟩
      | enter => exact ⟨_, _, .entered, .inside .ready (@Under.ready _ [] _)⟩
      | rest => exact ⟨_, _, .silent, .asleep⟩
      | @fork _ branches =>
          refine ⟨_, _, @Record.Grows.forked [] branches.length, .aside (by simp) ?_ ?_⟩
          · intro index branch side thread isBranch isSide isThread
            have isEmpty : ([], none) = side := by
              rw [List.getElem?_replicate] at isSide
              split at isSide
              · exact Option.some.inj isSide
              · cases isSide
            have isNew : .ofTask branch = thread := by simpa [isBranch] using isThread
            subst isEmpty isNew
            exact .ready
          · simp [Function.comp_def, result?, ofTask]
  | asleep =>
      cases moved with
      | wake => exact ⟨_, _, .silent, .wait .ready⟩
  | ended => cases moved
  | act _ inductionHypothesis =>
      obtain ⟨path, later, grows, follows⟩ := inductionHypothesis moved
      obtain ⟨longer, grows⟩ := grows.cons (.performed _ _)
      exact ⟨_, _, grows, .act follows⟩
  | wait _ inductionHypothesis =>
      obtain ⟨path, later, grows, follows⟩ := inductionHypothesis moved
      exact ⟨_, _, grows, .wait follows⟩
  | @inside activity role next within inner outer begun under inductionHypothesis =>
      rcases under.step moved with ⟨nextInner, nextUnder, innerMoved⟩ | ⟨result, rfl, rfl, rfl⟩
      · obtain ⟨path, later, grows, follows⟩ := inductionHypothesis innerMoved
        exact ⟨_, _, @Record.Grows.inside _ [] _ _ _ _ _ grows, .inside follows nextUnder⟩
      · exact ⟨_, _, @Record.Grows.left [] _ ⟨activity, role, next⟩ _, .call begun.finished .ready⟩
  | call ended _ inductionHypothesis =>
      obtain ⟨path, later, grows, follows⟩ := inductionHypothesis moved
      obtain ⟨longer, grows⟩ := grows.cons (.executed _ _ _ _)
      exact ⟨_, _, grows, .call ended follows⟩
  | @aside branches join sides threads paired follow known inductionHypothesis =>
      cases moved with
      | @branch _ _ _ _ index thread nextThread _ present branchMoved =>
          obtain ⟨side, isSide, agree⟩ := getElem?_of_map_eq known.symm present
          obtain ⟨within, sideResult?⟩ := side
          obtain rfl : sideResult? = none := agree.symm.trans branchMoved.open
          obtain ⟨inside, _⟩ := List.getElem?_eq_some_iff.mp isSide
          have inRange : index < branches.length := paired ▸ inside
          have isBranch : branches[index]? = some branches[index] := List.getElem?_eq_getElem inRange
          obtain ⟨path, later, grows, nextFollows⟩ :=
            inductionHypothesis index _ _ thread isBranch isSide present branchMoved
          refine ⟨_, _, @Record.Grows.aside _ [] _ _ _ _ _ nextThread.result? isSide grows,
            .aside (by simpa using paired) ?_ ?_⟩
          · intro other branch side otherThread otherBranch otherSide isThread
            by_cases same : index = other
            · subst same
              obtain ⟨within, _⟩ := List.getElem?_eq_some_iff.mp present
              rw [List.getElem?_set_self inside] at otherSide
              rw [List.getElem?_set_self within] at isThread
              cases isBranch.symm.trans otherBranch
              cases otherSide
              cases isThread
              exact nextFollows
            · rw [List.getElem?_set_ne same] at otherSide isThread
              exact follow other branch side otherThread otherBranch otherSide isThread
          · rw [List.map_set, List.map_set, known]
      | join joined =>
          refine ⟨_, _, .silent, .fork paired (known.trans (results?_eq_some joined)) ?_ .ready⟩
          intro index branch side isBranch isSide
          obtain ⟨thread, isThread, agree⟩ := getElem?_of_map_eq known isSide
          rw [agree]
          exact (follow index branch side thread isBranch isSide isThread).unfolds
  | fork paired ended unfold _ inductionHypothesis =>
      obtain ⟨path, later, grows, follows⟩ := inductionHypothesis moved
      obtain ⟨longer, grows⟩ := grows.cons (.branched _)
      exact ⟨_, _, grows, .fork paired ended unfold follows⟩

/-- Moves of a task come to records that its thread stands after. -/
theorem Steps.recorded {moves : List Move}
    (moved : Steps program scene (.ofTask task) moves nextScene nextThread) :
    ∃ records, Record.Keeps moves records ∧ nextThread.Follows program task records := by
  induction moved with
  | refl => exact ⟨[], .nil, .ready⟩
  | step _ moved inductionHypothesis =>
      obtain ⟨records, keeps, follows⟩ := inductionHypothesis
      obtain ⟨path, later, grows, nextFollows⟩ := moved.follows follows
      exact ⟨later, keeps.grow grows, nextFollows⟩

end Thread

/-- That moves have brought a task to a thread, and come to records. -/
def Thread.Kept (program : Program) (start : Scene) (task : Task) (scene : Scene) (thread : Thread)
    (records : List Record) : Prop :=
  ∃ moves, Thread.Steps program start (.ofTask task) moves scene thread ∧ Record.Keeps moves records

/-- A task goes on with the reply to its action. -/
theorem Thread.Step.act_of_reply {program : Program} {scene : Scene} {calls : List Call}
    {action : Action} {next : action.Reply → Task} {reply : action.Reply}
    (replied : (scene.perform action).2 = reply) :
    Thread.Step program scene (.ready calls (.act action next)) (.performed action reply)
      (scene.perform action).1 (.ready calls (next reply)) := by
  rw [← replied]
  exact .act

namespace Thread.Kept

variable {program : Program} {start scene : Scene} {task : Task} {calls : List Call}
  {frames : List Record.Frame} {before current : List Record} {activity : Activity} {role : Role}
  {next : Result → Task}

/-- No move has brought a task to where it begins. -/
theorem refl : Kept program start task start (.ofTask task) [] := ⟨[], .refl, .nil⟩

/-- An action that is performed is recorded at the level that it is performed at. -/
theorem act {action : Action} {next : action.Reply → Task}
    (kept : Kept program start task scene (.ready calls (.act action next))
      (Record.within frames current)) :
    Kept program start task (scene.perform action).1 (.ready calls (next (scene.perform action).2))
      (Record.within frames (current ++ [.performed action (scene.perform action).2])) := by
  obtain ⟨moves, steps, keeps⟩ := kept
  exact ⟨_, steps.step .act, keeps.grow (Record.Grows.performed.within frames)⟩

/-- An execution that begins has done nothing yet inside. -/
theorem enter
    (kept : Kept program start task scene (.ready calls (.call activity role next))
      (Record.within frames current)) :
    Kept program start task (scene.perform (.start activity)).1
      (.ready (⟨activity, role, next⟩ :: calls) (program.body activity))
      (Record.within (⟨current, activity, role⟩ :: frames) []) := by
  obtain ⟨moves, steps, keeps⟩ := kept
  exact ⟨_, steps.step (@Thread.Step.enter _ _ _ ⟨activity, role, next⟩),
    keeps.grow ((@Record.Grows.entered current ⟨activity, role, next⟩).within frames)⟩

/-- An execution that ends is recorded with what was done inside and how it ended. -/
theorem leave {result : Result}
    (kept : Kept program start task scene
      (.ready (⟨activity, role, next⟩ :: calls) (.done result))
      (Record.within (⟨before, activity, role⟩ :: frames) current)) :
    Kept program start task (scene.perform (.close activity result)).1 (.ready calls (next result))
      (Record.within frames (before ++ [.executed activity role current (some result)])) := by
  obtain ⟨moves, steps, keeps⟩ := kept
  exact ⟨_, steps.step .leave,
    keeps.grow ((@Record.Grows.left before current ⟨activity, role, next⟩ result).within frames)⟩

end Thread.Kept

/-- The task of a run for a purpose. -/
inductive Program.Serves (program : Program) : RunPurpose → Task → Prop where
  | execution {root : Activity} (present : program.definition.root? = some root) :
      Serves program .execution (program.run root)
  | missingRoot {error : ActivityError} : Serves program .missingRoot (.done (.error error))
  | compensation : Serves program .compensation program.compensateProcess

/-- The moves of a run once something more has happened. Another run begins with none. -/
def Deed.extend (moves : List Move) : Deed → List Move
  | .began _ => []
  | .moved move => moves ++ [move]
  | _ => moves

/-- A move that there is after a deed was there before, or is the deed. -/
theorem Deed.mem_extend {deed : Deed} {moves : List Move} {move : Move}
    (present : move ∈ deed.extend moves) : move ∈ moves ∨ deed = .moved move := by
  cases deed with
  | began => cases present
  | moved last =>
      rcases List.mem_append.mp present with earlier | isLast
      · exact .inl earlier
      · exact .inr (congrArg Deed.moved (List.mem_singleton.mp isLast).symm)
  | _ => exact .inl present

/-- The moves of the run that is under way, or was last. -/
def Stage.movesOf (stages : List Stage) : List Move :=
  stages.foldl (fun moves stage => stage.deed.extend moves) []

/-- One more stage extends the moves by its own. -/
theorem Stage.movesOf_concat (stages : List Stage) (stage : Stage) :
    movesOf (stages ++ [stage]) = stage.deed.extend (movesOf stages) := by
  simp [movesOf]

/-- What has been recorded of a run that is under way and has made some moves. -/
structure Run.Recorded (moves : List Move) (run : Run) (task : Task) (records : List Record) :
    Prop where
  serves : run.program.Serves run.purpose task
  keeps : Record.Keeps moves records
  follows : run.thread.Follows run.program task records

/-- What has been done of the task of a run was done by its moves. -/
theorem Run.Recorded.unfolds {moves : List Move} {run : Run} {task : Task} {records : List Record}
    (recorded : run.Recorded moves task records) :
    task.Unfolds run.program records run.thread.result? :=
  recorded.follows.unfolds

/-- What a run recorded of its actions is as expected if its moves were. -/
theorem Run.Recorded.expects {contract : Contract} {moves : List Move} {run : Run} {task : Task}
    {records : List Record} (recorded : run.Recorded moves task records)
    (expected : ∀ move ∈ moves, move.Expected contract) : contract.Expects records :=
  fun _ _ among => expected _ (recorded.keeps.among_performed_iff.mp among)

namespace Situation

variable {situation next : Situation} {deed : Deed} {moves : List Move}

/-- That there is a record of the run that is under way. -/
def HasRecord (moves : List Move) (situation : Situation) : Prop :=
  ∀ run, situation.run? = some run → ∃ task records, run.Recorded moves task records

/-- A run that has just begun has a record. -/
theorem Born.hasRecord {purpose : RunPurpose} (born : situation.Born purpose) :
    situation.HasRecord [] := by
  intro run isRun
  cases born with
  | execution _ present =>
      cases isRun
      exact ⟨_, _, .execution present, .nil, .ready⟩
  | missingRoot =>
      cases isRun
      exact ⟨_, _, .missingRoot, .nil, .ended⟩

/-- The record goes on with everything that happens. -/
theorem Step.hasRecord (happened : situation.Step deed next) (has : situation.HasRecord moves) :
    next.HasRecord (deed.extend moves) := by
  intro run isRun
  cases happened with
  | suspend => exact has run isRun
  | resume => exact has run isRun
  | terminate => exact has run isRun
  | compensate =>
      cases isRun
      exact ⟨_, _, .compensation, .nil, .ready⟩
  | @move own _ _ _ _ moved =>
      cases isRun
      obtain ⟨task, records, serves, keeps, follows⟩ := has own rfl
      obtain ⟨path, later, grows, nextFollows⟩ := moved.follows follows
      exact ⟨task, later, serves, keeps.grow grows, nextFollows⟩
  | conclude => cases isRun

/-- What is concluded is a run that has ended, and its instance is settled. -/
theorem Step.of_concluded {purpose : RunPurpose} {result : Result}
    (happened : situation.Step (.concluded purpose result) next) :
    ∃ run, situation.run? = some run ∧ run.thread = .ended result ∧ run.purpose = purpose ∧
      next = ⟨purpose.settle result situation.subject, none⟩ := by
  generalize isDeed : Deed.concluded purpose result = deed at happened
  cases happened with
  | conclude ended =>
      injection isDeed with isPurpose isResult
      subst isPurpose isResult
      exact ⟨_, rfl, ended, rfl, rfl⟩
  | _ => cases isDeed

end Situation

/-- Every run that is under way has left a record. -/
theorem Life.hasRecord {stages : List Stage} {situation : Situation} (life : Life stages situation) :
    situation.HasRecord (Stage.movesOf stages) := by
  induction life with
  | born born => exact born.hasRecord
  | step _ happened inductionHypothesis =>
      rw [Stage.movesOf_concat]
      exact happened.hasRecord inductionHypothesis

/-- A move does what it says to the instance of its run. -/
theorem Situation.Step.acts {situation next : Situation} {move : Move}
    (happened : situation.Step (.moved move) next) :
    ∃ scene nextScene, scene.subject = situation.subject ∧ nextScene.subject = next.subject ∧
      move.Acts scene nextScene := by
  generalize isDeed : Deed.moved move = deed at happened
  cases happened with
  | move moved =>
      cases isDeed
      exact ⟨_, _, rfl, rfl, moved.acts⟩
  | _ => cases isDeed

/-- A move adds to the record of its run what it did, in its place. -/
theorem Life.grows {stages : List Stage} {situation next : Situation} {move : Move}
    (life : Life stages situation) (happened : situation.Step (.moved move) next) :
    ∃ run nextRun task records later path, situation.run? = some run ∧ next.run? = some nextRun ∧
      (nextRun.program = run.program ∧ nextRun.purpose = run.purpose) ∧
        run.Recorded (Stage.movesOf stages) task records ∧
          nextRun.Recorded (Stage.movesOf stages ++ [move]) task later ∧
            Record.Grows path records move later := by
  generalize isDeed : Deed.moved move = deed at happened
  cases happened with
  | @move run scene nextScene nextThread _ moved =>
      cases isDeed
      obtain ⟨task, records, recorded⟩ := life.hasRecord run rfl
      obtain ⟨path, later, grows, follows⟩ := moved.follows recorded.follows
      exact ⟨run, _, task, records, later, path, rfl, rfl, ⟨rfl, rfl⟩, recorded,
        ⟨recorded.serves, recorded.keeps.grow grows, follows⟩, grows⟩
  | _ => cases isDeed

/-- The moves of the run of an instance once something more has happened. -/
def Occurrence.extend (id : String) (moves : List Move) : Occurrence → List Move
  | .administered => moves
  | .done instanceId deed => if instanceId = id then deed.extend moves else moves

/-- What happens elsewhere adds nothing. -/
theorem Occurrence.extend_of_other {id : String} {occurrence : Occurrence}
    (other : ∀ deed, occurrence ≠ .done id deed) (moves : List Move) :
    occurrence.extend id moves = moves := by
  cases occurrence with
  | administered => rfl
  | done instanceId deed =>
      have different : instanceId ≠ id := by
        rintro rfl
        exact other deed rfl
      simp [extend, different]

/-- Moves of a run come after those that it has made. -/
theorem Occurrence.foldl_extend_moved (id : String) (past moves : List Move) :
    (moves.map fun move => Occurrence.done id (.moved move)).foldl (extend id) past =
      past ++ moves := by
  induction moves generalizing past with
  | nil => simp
  | cons move moves inductionHypothesis =>
      simp [inductionHypothesis, extend, Deed.extend]

namespace Snapshot

variable {settings : Settings} {naming : Naming} {now : Timestamp} {moments : List Moment}
  {state : Snapshot}

/-- The run of a situation is the one that the state has of the instance. -/
theorem run?_of_situation? {id : String} {state : Snapshot} {situation : Situation}
    (found : state.situation? id = some situation) : Run.find? id state.runs = situation.run? := by
  obtain ⟨subject, _, rfl⟩ := Option.map_eq_some_iff.mp found
  rfl

/-- The run of an instance is the first of the runs that is of that instance, and it moves on what the engine
has of the instance. -/
theorem placed_of_situation? {id : String} {state : Snapshot} {situation : Situation} {run : Run}
    (found : state.situation? id = some situation) (isRun : situation.run? = some run) :
    run.instanceId = id ∧ state.engine.scene? id = some ⟨situation.subject, state.engine.journal⟩ ∧
      ∃ before after, state.runs = before ++ run :: after ∧
        ∀ other ∈ before, other.instanceId ≠ id := by
  have present := (run?_of_situation? found).trans isRun
  obtain ⟨isOwn, before, after, placed, others⟩ := List.find?_eq_some_iff_append.mp present
  refine ⟨by simpa using isOwn, ?_, before, after, placed, by simpa using others⟩
  rw [Engine.scene?, instance?_of_situation? found]
  rfl

/-- Every move that the thread of a run can make is a transition. -/
theorem exists_step_of_thread {id : String} {state : Snapshot} {situation : Situation} {run : Run}
    {move : Move} {nextScene : Scene} {nextThread : Thread}
    (found : state.situation? id = some situation) (isRun : situation.run? = some run)
    (moved : Thread.Step run.program ⟨situation.subject, state.engine.journal⟩ run.thread move nextScene
      nextThread) :
    ∃ next, Step state (.done id (.moved move)) next ∧
      next.situation? id = some ⟨nextScene.subject, some { run with thread := nextThread }⟩ := by
  obtain ⟨rfl, scene, before, after, placed, others⟩ := placed_of_situation? found isRun
  refine ⟨_, .move placed scene moved, ?_⟩
  have isNext : Run.find? run.instanceId (before ++ { run with thread := nextThread } :: after) =
      some { run with thread := nextThread } :=
    List.find?_eq_some_iff_append.mpr ⟨by simp, before, after, rfl, by simpa using others⟩
  rw [situation?_of_scene? (Engine.scene?_leave scene moved.id_eq), isNext]

/-- What a transition adds to the moves of a run. -/
theorem History.movesOf_concat {next : Snapshot} {occurrence : Occurrence}
    (history : History (.new settings naming now) moments state)
    (transition : Step state occurrence next) (id : String) :
    Stage.movesOf (stagesOf id (moments ++ [⟨occurrence, next⟩])) =
      occurrence.extend id (Stage.movesOf (stagesOf id moments)) := by
  have evolves := history.evolves transition id
  generalize state.situation? id = before at evolves
  generalize found : next.situation? id = after at evolves
  cases evolves with
  | elsewhere other =>
      simp [stagesOf_concat, Moment.stage?_eq_none next other, Occurrence.extend_of_other other]
  | born => simp [stagesOf_concat, Moment.stage?, Occurrence.extend, found, Stage.movesOf_concat]
  | step => simp [stagesOf_concat, Moment.stage?, Occurrence.extend, found, Stage.movesOf_concat]

/-- The moves of a run are those that the history has of it. -/
theorem History.movesOf_eq (history : History (.new settings naming now) moments state) (id : String) :
    Stage.movesOf (stagesOf id moments) =
      (moments.map Moment.occurrence).foldl (Occurrence.extend id) [] := by
  induction history with
  | refl => rfl
  | step prior transition inductionHypothesis =>
      rw [prior.movesOf_concat transition, inductionHypothesis]
      simp

end Snapshot

/-- Moves of a run that has made none before are a history, and the moves of the run in it. -/
theorem Thread.Steps.history {settings : Settings} {naming : Naming} {now : Timestamp}
    {first : List Snapshot.Moment} {engine : Engine} {run : Run} {scene nextScene : Scene}
    {nextThread : Thread} {moves : List Move}
    (steps : Thread.Steps run.program scene run.thread moves nextScene nextThread)
    (prior : Snapshot.History (.new settings naming now) first ⟨engine, [run]⟩)
    (fresh : Stage.movesOf (Snapshot.stagesOf run.instanceId first) = [])
    (present : engine.scene? run.instanceId = some scene) :
    ∃ moments, Snapshot.History (.new settings naming now) moments
        ⟨engine.leave nextScene, [{ run with thread := nextThread }]⟩ ∧
      Stage.movesOf (Snapshot.stagesOf run.instanceId moments) = moves ∧
        (engine.leave nextScene).scene? run.instanceId = some nextScene := by
  obtain ⟨later, moved, occurrences⟩ := Engine.history_leave [] [] present steps
  have history := prior.trans moved
  refine ⟨_, history, ?_, Engine.scene?_leave present steps.id_eq⟩
  rw [history.movesOf_eq, List.map_append, List.foldl_append, ← prior.movesOf_eq, fresh, occurrences,
    Occurrence.foldl_extend_moved]
  rfl

/-- Moves that bring the task of a run to a thread are a history, and come to records. -/
theorem Thread.Kept.history {settings : Settings} {naming : Naming} {now : Timestamp}
    {first : List Snapshot.Moment} {engine : Engine} {run : Run} {scene nextScene : Scene}
    {task : Task} {nextThread : Thread} {records : List Record}
    (kept : Thread.Kept run.program scene task nextScene nextThread records)
    (begins : run.thread = .ofTask task)
    (prior : Snapshot.History (.new settings naming now) first ⟨engine, [run]⟩)
    (fresh : Stage.movesOf (Snapshot.stagesOf run.instanceId first) = [])
    (present : engine.scene? run.instanceId = some scene) :
    ∃ moments, Snapshot.History (.new settings naming now) moments
        ⟨engine.leave nextScene, [{ run with thread := nextThread }]⟩ ∧
      Record.Keeps (Stage.movesOf (Snapshot.stagesOf run.instanceId moments)) records ∧
        (engine.leave nextScene).scene? run.instanceId = some nextScene := by
  obtain ⟨moves, steps, keeps⟩ := kept
  rw [← begins] at steps
  obtain ⟨moments, history, made, found⟩ := steps.history prior fresh present
  exact ⟨moments, history, made ▸ keeps, found⟩

/-- The first instance of an engine is found as it was when it was started. -/
theorem Engine.scene?_enroll {engine : Engine} (definition : Definition) (input : Bag)
    (initiatedBy : String) (first : engine.entries = []) :
    let started := engine.enroll definition input initiatedBy
    started.1.scene? started.2.id = some ⟨started.2, started.1.journal⟩ := by
  simp [scene?, instance?, entry?, Entry.find?, enroll, record, first]

namespace Snapshot

variable {program : Program} {root : Activity} {records : List Record}

/-- A process that nothing stands in the way of is deployed and started. -/
theorem History.exists_started (naming : Naming) (initiatedBy : String)
    (enabled : program.definition.enabled = true) (present : program.definition.root? = some root) :
    ∃ moments engine,
      History (.new program.settings naming program.now) moments
        ⟨engine, [⟨naming.name 1, .execution, program, .ofTask (program.run root)⟩]⟩ ∧
      Stage.movesOf (stagesOf (naming.name 1) moments) = [] ∧ engine.scene? (naming.name 1) =
        some ⟨.new (naming.name 1) program.definition.id (program.definition.initialBag []) initiatedBy,
          engine.journal⟩ := by
  have deployed := History.refl.step
    (@Step.deploy (.new program.settings naming program.now) program.definition _ rfl)
  have started := deployed.step (@Step.start _ program.definition.id initiatedBy [] _ [] [] _ rfl
    (Engine.start_eq_ok (List.find?_cons_of_pos (decide_eq_true rfl)) enabled present))
  refine ⟨_, _, started, ?_, Engine.scene?_enroll _ _ _ rfl⟩
  rw [started.movesOf_eq]
  exact if_pos rfl

/-- What a process can do when it has just been started is what its run has done in a history. -/
theorem History.exists_recorded {naming : Naming} {initiatedBy : String}
    (enabled : program.definition.enabled = true) (present : program.definition.root? = some root)
    (kept : ∀ events, ∃ nextScene thread,
      Thread.Kept program
        ⟨.new (naming.name 1) program.definition.id (program.definition.initialBag []) initiatedBy, events⟩
        (program.run root) nextScene thread records ∧
      thread.Follows program (program.run root) records) :
    ∃ moments state situation thread, History (.new program.settings naming program.now) moments state ∧
      state.situation? (naming.name 1) = some situation ∧
        situation.run? = some ⟨naming.name 1, .execution, program, thread⟩ ∧
          Run.Recorded (Stage.movesOf (stagesOf (naming.name 1) moments))
            ⟨naming.name 1, .execution, program, thread⟩ (program.run root) records := by
  obtain ⟨first, engine, prior, fresh, found⟩ := exists_started naming initiatedBy enabled present
  obtain ⟨nextScene, thread, kept, follows⟩ := kept engine.journal
  obtain ⟨moments, history, keeps, found⟩ :=
    @Thread.Kept.history _ _ _ _ _ ⟨naming.name 1, .execution, program, .ofTask (program.run root)⟩
      _ _ _ _ _ kept rfl prior fresh found
  exact ⟨moments, _, _, thread, history, situation?_of_scene? found, by simp [Run.find?], .execution present,
    keeps, follows⟩

end Snapshot

end Orchestration
