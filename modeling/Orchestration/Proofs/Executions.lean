import Orchestration.Proofs.Flows

/-!
# Where executions stand

An execution of which something has been recorded stands somewhere in the task of its activity: it is the
work of a thread that follows the task so far. Of a task that goes on with another one where it ends, the
thread is within the first one or follows the second one, and a thread that has nothing left to do but to let
events be known ends as it is bound to.
-/

namespace Orchestration

namespace Thread

/-- That all a thread has left to do is to let events be known and to end with a result. -/
inductive EndsIn (result : Result) : Thread → Prop where
  | ended : EndsIn result (.ended result)
  | returns : EndsIn result (.ready [] (.done result))
  | announces {event : Event} {next : Task} (following : EndsIn result (.ready [] next)) :
      EndsIn result (.ready [] (.announce event next))

/-- That a thread has not ended, and has more to do than that. -/
structure IsGoing (thread : Thread) : Prop where
  open_ : thread.result? = none
  unreturned : ∀ result, thread ≠ .ready [] (.done result)

/-- A thread that has ended with a result was bound to. -/
theorem EndsIn.eq_of_result? {thread : Thread} {result ended : Result} (endsIn : thread.EndsIn result)
    (known : thread.result? = some ended) : ended = result := by
  cases endsIn with
  | ended =>
      cases known
      rfl
  | returns => cases known
  | announces => cases known

namespace Follows

variable {program : Program} {task : Task} {next : Result → Task} {records : List Record}
  {thread : Thread} {result : Result}

/-- Whatever has been done of a task is followed by a thread. -/
theorem exists_of_unfolds {result? : Option Result} (unfolds : task.Unfolds program records result?) :
    ∃ thread : Thread, thread.Follows program task records ∧ thread.result? = result? := by
  induction unfolds with
  | rest => exact ⟨_, .ready, rfl⟩
  | done => exact ⟨_, .ended, rfl⟩
  | act _ inductionHypothesis =>
      obtain ⟨thread, follows, known⟩ := inductionHypothesis
      exact ⟨thread, .act follows, known⟩
  | inside _ inductionHypothesis =>
      obtain ⟨inner, begun, known⟩ := inductionHypothesis
      cases inner with
      | ready calls task => exact ⟨_, .inside begun .ready, rfl⟩
      | asleep calls wake task => exact ⟨.asleep (calls ++ [_]) wake task, .inside begun .asleep, rfl⟩
      | joined calls branches join => exact ⟨_, .inside begun .joined, rfl⟩
      | ended result => cases known
  | call ended _ _ inductionHypothesis =>
      obtain ⟨thread, follows, known⟩ := inductionHypothesis
      exact ⟨thread, .call ended follows, known⟩
  | wait _ inductionHypothesis =>
      obtain ⟨thread, follows, known⟩ := inductionHypothesis
      exact ⟨thread, .wait follows, known⟩
  | @aside branches join sides paired _ inductionHypothesis =>
      have each (index : Fin sides.length) : ∃ thread : Thread,
          (∀ branch, branches[index]? = some branch → thread.Follows program branch sides[index].1) ∧
            thread.result? = sides[index].2 := by
        have inRange : index < branches.length := paired ▸ index.isLt
        obtain ⟨thread, follows, known⟩ := inductionHypothesis index branches[index] sides[index]
          (List.getElem?_eq_getElem inRange) (List.getElem?_eq_getElem index.isLt)
        refine ⟨thread, fun branch isBranch => ?_, known⟩
        rwa [← Option.some.inj ((List.getElem?_eq_getElem inRange).symm.trans isBranch)]
      choose threadOf follow known using each
      refine ⟨.joined [] (List.ofFn threadOf) join, .aside paired ?_ ?_, rfl⟩
      · intro index branch side thread isBranch isSide isThread
        obtain ⟨inRange, rfl⟩ := List.getElem?_eq_some_iff.mp isSide
        rw [List.getElem?_ofFn, dif_pos inRange] at isThread
        cases isThread
        exact follow ⟨index, inRange⟩ branch isBranch
      · rw [List.map_ofFn]
        exact List.ext_getElem (by simp) fun index inSides _ => by simp [known]
  | fork paired ended unfold _ _ inductionHypothesis =>
      obtain ⟨thread, follows, known⟩ := inductionHypothesis
      exact ⟨thread, .fork paired ended unfold follows, known⟩

/-- Nothing is done of a task that has nothing left to do. -/
theorem of_done (follows : thread.Follows program (.done result) records) :
    records = [] ∧ thread.EndsIn result := by
  cases follows with
  | ready => exact ⟨rfl, .returns⟩
  | ended => exact ⟨rfl, .ended⟩

/-- A thread that follows two tasks in a row is within the first, or follows the second when the first has
ended. -/
theorem of_bind (follows : thread.Follows program (task.bind next) records) :
    (thread.result? = none ∧ ∃ inner : Thread, inner.Follows program task records ∧ inner.IsGoing) ∨
      ∃ first rest result, records = first ++ rest ∧ task.Unfolds program first (some result) ∧
        thread.Follows program (next result) rest := by
  induction task using Task.rec (motive_2 := fun _ => True) generalizing records thread with
  | done result => exact .inr ⟨[], records, result, rfl, .done, follows⟩
  | act action continuation inductionHypothesis =>
      cases follows with
      | ready => exact .inl ⟨rfl, _, .ready, rfl, fun _ => nofun⟩
      | act continues =>
          rcases inductionHypothesis _ continues with ⟨open_, inner, first, going⟩ |
            ⟨first, rest, result, rfl, unfolds, follows⟩
          · exact .inl ⟨open_, inner, .act first, going⟩
          · exact .inr ⟨_ :: first, rest, result, rfl, .act unfolds, follows⟩
  | call activity role continuation inductionHypothesis =>
      cases follows with
      | ready => exact .inl ⟨rfl, _, .ready, rfl, fun _ => nofun⟩
      | inside begun under =>
          refine .inl ⟨under.open.2, ?_⟩
          cases under with
          | ready => exact ⟨_, .inside begun .ready, rfl, fun _ => by simp⟩
          | asleep => exact ⟨_, .inside begun .asleep, rfl, fun _ => nofun⟩
          | joined => exact ⟨_, .inside begun .joined, rfl, fun _ => nofun⟩
      | call ended continues =>
          rcases inductionHypothesis _ continues with ⟨open_, inner, first, going⟩ |
            ⟨first, rest, result, rfl, unfolds, follows⟩
          · exact .inl ⟨open_, inner, .call ended first, going⟩
          · exact .inr ⟨_ :: first, rest, result, rfl, .call ended unfolds, follows⟩
  | wait duration continuation inductionHypothesis =>
      cases follows with
      | ready => exact .inl ⟨rfl, _, .ready, rfl, fun _ => nofun⟩
      | @asleep _ wake => exact .inl ⟨rfl, .asleep [] wake continuation, .asleep, rfl, fun _ => nofun⟩
      | wait continues =>
          rcases inductionHypothesis continues with ⟨open_, inner, first, going⟩ |
            ⟨first, rest, result, rfl, unfolds, follows⟩
          · exact .inl ⟨open_, inner, .wait first, going⟩
          · exact .inr ⟨first, rest, result, rfl, .wait unfolds, follows⟩
  | fork branches join _ inductionHypothesis =>
      cases follows with
      | ready => exact .inl ⟨rfl, _, .ready, rfl, fun _ => nofun⟩
      | aside paired follow known => exact .inl ⟨rfl, _, .aside paired follow known, rfl, fun _ => nofun⟩
      | fork paired ended unfold continues =>
          rcases inductionHypothesis _ continues with ⟨open_, inner, first, going⟩ |
            ⟨first, rest, result, rfl, unfolds, follows⟩
          · exact .inl ⟨open_, inner, .fork paired ended unfold first, going⟩
          · exact .inr ⟨_ :: first, rest, result, rfl, .fork paired ended unfold unfolds, follows⟩
  | nil => trivial
  | cons => trivial

/-- A thread that follows a task, and another one if that completes, is within the first, ends as the first
did, or follows the second. -/
theorem of_whenCompleted {following : Task}
    (follows : thread.Follows program (task.whenCompleted following) records) :
    (thread.result? = none ∧ ∃ inner : Thread, inner.Follows program task records ∧ inner.IsGoing) ∨
      (∃ result, result ≠ .ok .completed ∧ task.Unfolds program records (some result) ∧
        thread.EndsIn result) ∨
      ∃ first rest, records = first ++ rest ∧ task.Unfolds program first (some (.ok .completed)) ∧
        thread.Follows program following rest := by
  rcases follows.of_bind with within | ⟨first, rest, result, rfl, unfolds, follows⟩
  · exact .inl within
  · rcases result with error | outcome
    · obtain ⟨rfl, endsIn⟩ := follows.of_done
      exact .inr (.inl ⟨.error error, nofun, by simpa using unfolds, endsIn⟩)
    · cases outcome with
      | completed => exact .inr (.inr ⟨first, rest, rfl, unfolds, follows⟩)
      | halted =>
          obtain ⟨rfl, endsIn⟩ := follows.of_done
          exact .inr (.inl ⟨.ok .halted, nofun, by simpa using unfolds, endsIn⟩)

end Follows

end Thread

/-- A thread moves, whatever it stands at. -/
theorem Thread.Kept.step {program : Program} {start scene nextScene : Scene} {task : Task}
    {thread nextThread : Thread} {move : Move} {path : List (List Record)} {records later : List Record}
    (kept : Thread.Kept program start task scene thread records)
    (moved : Thread.Step program scene thread move nextScene nextThread)
    (grows : Record.Grows path records move later) :
    Thread.Kept program start task nextScene nextThread later := by
  obtain ⟨moves, steps, keeps⟩ := kept
  exact ⟨_, steps.step moved, keeps.grow grows⟩

/-- An action is performed whose reply is known. -/
theorem Thread.Kept.act_of_reply {program : Program} {start scene : Scene} {task : Task} {calls : List Call}
    {frames : List Record.Frame} {current : List Record} {action : Action} {next : action.Reply → Task}
    {reply : action.Reply}
    (kept : Thread.Kept program start task scene (.ready calls (.act action next))
      (Record.within frames current))
    (replied : (scene.perform action).2 = reply) :
    Thread.Kept program start task (scene.perform action).1 (.ready calls (next reply))
      (Record.within frames (current ++ [.performed action reply])) :=
  replied ▸ kept.act

namespace Snapshot

/-- Where an execution of an activity stands in a run of an instance: a thread follows the task of the
activity through what was done of it, and has ended as the execution has. If it has not ended, what it has to
do next is what a part of the run has to do next, and that goes on by itself. -/
structure Stands (state : Snapshot) (id : String) (program : Program) (activity : Activity) (role : Role)
    (within : List Record) (ended? : Option Result) (inner : Thread) : Prop where
  follows : inner.Follows program (program.body activity) within
  known : inner.result? = ended?
  goesOn : ended? = none → ∃ next calls part,
    Thread.Inside (⟨activity, role, next⟩ :: calls) inner part ∧ state.Sustains id program part

variable {settings : Settings} {naming : Naming} {now : Timestamp} {moments : List Moment}
  {state : Snapshot} {id : String} {situation : Situation} {run : Run} {moves : List Move} {task : Task}
  {records within : List Record} {activity : Activity} {role : Role} {ended? : Option Result}

/-- Every execution of a run that is under way stands somewhere. -/
theorem History.exists_stands (history : History (.new settings naming now) moments state)
    (found : state.situation? id = some situation) (isRun : situation.run? = some run)
    (recorded : run.Recorded moves task records)
    (among : (Record.executed activity role within ended?).Among records) :
    ∃ inner, state.Stands id run.program activity role within ended? inner := by
  cases ended? with
  | some result =>
      obtain ⟨owner, level, level?, isLevel, present⟩ := among.level run.thread.result?
      have does := (isLevel.does recorded.serves recorded.unfolds).inside present
      obtain ⟨inner, follows, known⟩ := Thread.Follows.exists_of_unfolds does
      exact ⟨inner, follows, known, nofun⟩
  | none =>
      obtain ⟨inner, next, calls, part, follows, inside, isPart⟩ := recorded.follows.exists_part among
      refine ⟨inner, follows, ?_, fun _ => ⟨next, calls, part, inside, history.sustains found isRun isPart⟩⟩
      cases inside <;> rfl

end Snapshot

end Orchestration
