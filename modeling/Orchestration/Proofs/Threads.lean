import Orchestration.Execution.Step
import Orchestration.Proofs.Contract

/-!
# Threads keep to contracts

A thread keeps to a contract when its task does and every call that it is inside of goes on in keeping
with it. `Thread.Step.obeys` is that a move preserves this, as long as the tasks of the activities that
may be called keep to the contract and replies are what it says.
-/

namespace Orchestration

/-- The scopes that are still to be undone when a call has returned. -/
def Call.agenda (call : Call) : List String := (call.next (.ok .completed)).agenda

/-- That the caller goes on in keeping with a contract. The flag tells whether the caller is the inside
of an execution itself. -/
structure Call.Sound (contract : Contract) (inside : Bool) (call : Call) : Prop where
  marks : ∀ scopeId outcome, call.role = .undoing scopeId →
    ∃ following, call.next (.ok outcome) = .act (.markCompensated scopeId) following
  shrinks : ∀ result, (call.next result).agenda ⊆ call.agenda
  continues : ∀ result, contract.returns result → (call.next result).Obeys contract inside

/-- What a task that keeps to a contract calls may be called, and it goes on in keeping with it. -/
theorem Task.Obeys.called {contract : Contract} {inside : Bool} {call : Call}
    (obeys : (Task.call call.activity call.role call.next).Obeys contract inside) :
    contract.calls call.activity call.role ∧ call.Sound contract inside := by
  cases obeys with
  | call allowed marks shrinks continues => exact ⟨allowed, marks, shrinks, continues⟩

/-- Only the inside of an execution asks whether to go on, and it ends if not. -/
theorem Task.Obeys.stops {contract : Contract} {inside : Bool} {next : Bool → Task}
    (obeys : (Task.act .checkHalting next).Obeys contract inside) :
    inside = true ∧ next true = .halted := by
  cases obeys with
  | check stops => exact ⟨rfl, stops⟩
  | act ordinary => cases ordinary

/-- An action of a task that keeps to a contract is an ordinary one or a checkpoint. -/
theorem Task.Obeys.isOrdinary {contract : Contract} {inside : Bool} {action : Action}
    {next : action.Reply → Task} (obeys : (Task.act action next).Obeys contract inside) :
    action.isOrdinary = true ∨ action = .checkHalting := by
  cases obeys with
  | check => exact .inr rfl
  | act ordinary => exact .inl ordinary

/-- Whether a task that is inside of calls is the inside of an execution. -/
def Call.isInside (calls : List Call) : Bool := !calls.isEmpty

/-- That every caller goes on in keeping with a contract, the innermost coming first. -/
def Call.AllSound (contract : Contract) : List Call → Prop
  | [] => True
  | call :: calls => call.Sound contract (isInside calls) ∧ AllSound contract calls

/-- That a move found nothing but what a contract takes for granted. -/
def Move.Expected (contract : Contract) : Move → Prop
  | .performed action reply => contract.replies action reply
  | _ => True

/-- What a thread may do that keeps to a contract. -/
def Move.Fits (contract : Contract) : Move → Prop
  | .performed action _ => action.isOrdinary = true ∨ action = .checkHalting
  | .entered call => contract.calls call.activity call.role
  | .left _ result => contract.returns result
  | .silent => True

/-- That a move did to a scene what it says. -/
def Move.Acts (scene nextScene : Scene) : Move → Prop
  | .performed action reply => scene.perform action = (nextScene, reply)
  | .entered call => (scene.perform (.start call.activity)).1 = nextScene
  | .left call result => (scene.perform (.close call.activity result)).1 = nextScene
  | .silent => nextScene = scene

namespace Thread

/-- A thread that has not ended can move. -/
theorem ended_or_moves (program : Program) (scene : Scene) (thread : Thread) :
    (∃ result, thread = .ended result) ∨
      ∃ move nextScene nextThread, Step program scene thread move nextScene nextThread := by
  induction thread using Thread.rec (motive_2 := fun branches =>
      (∃ results, results? branches = some results) ∨
        ∃ (index : Nat) (branch : Thread) (move : Move) (nextScene : Scene) (nextBranch : Thread),
          branches[index]? = some branch ∧ Step program scene branch move nextScene nextBranch) with
  | ready calls task =>
      refine .inr ?_
      cases task with
      | done result =>
          cases calls with
          | nil => exact ⟨_, _, _, .finish⟩
          | cons call calls => exact ⟨_, _, _, .leave⟩
      | act => exact ⟨_, _, _, .act⟩
      | call activity role next => exact ⟨_, _, _, @Step.enter _ _ _ ⟨activity, role, next⟩⟩
      | wait => exact ⟨_, _, _, @Step.rest _ _ _ _ _ 0⟩
      | fork => exact ⟨_, _, _, .fork⟩
  | asleep calls wake task => exact .inr ⟨_, _, _, .wake⟩
  | joined calls branches join inductionHypothesis =>
      rcases inductionHypothesis with ⟨results, known⟩ | ⟨index, branch, move, _, _, present, moved⟩
      · exact .inr ⟨_, _, _, .join known⟩
      · exact .inr ⟨_, _, _, .branch present moved⟩
  | ended result => exact .inl ⟨result, rfl⟩
  | nil => exact .inl ⟨[], rfl⟩
  | cons thread threads headHypothesis tailHypothesis =>
      rcases headHypothesis with ⟨result, rfl⟩ | ⟨move, _, _, moved⟩
      · rcases tailHypothesis with ⟨results, known⟩ | ⟨index, branch, move, _, _, present, moved⟩
        · exact .inl ⟨result :: results, by simp [results?, known]⟩
        · exact .inr ⟨index + 1, branch, move, _, _, by simpa using present, moved⟩
      · exact .inr ⟨0, thread, move, _, _, rfl, moved⟩

/-- Whichever branch moves, the move did what it says. -/
theorem Step.acts {program : Program} {scene nextScene : Scene} {thread nextThread : Thread}
    {move : Move} (moved : Step program scene thread move nextScene nextThread) :
    move.Acts scene nextScene := by
  induction moved with
  | branch _ _ inductionHypothesis => exact inductionHypothesis
  | _ => rfl

/-- That a thread keeps to a contract. -/
inductive Obeys (contract : Contract) : Thread → Prop where
  | ready {calls : List Call} {task : Task} (sound : Call.AllSound contract calls)
      (obeys : task.Obeys contract (Call.isInside calls)) : Obeys contract (.ready calls task)
  | asleep {calls : List Call} {wake : Nat} {task : Task} (sound : Call.AllSound contract calls)
      (obeys : task.Obeys contract (Call.isInside calls)) :
      Obeys contract (.asleep calls wake task)
  | joined {calls : List Call} {branches : List Thread} {join : List Result → Task}
      (sound : Call.AllSound contract calls)
      (branchesObey : ∀ branch ∈ branches, Obeys contract branch)
      (continues : ∀ results, (join results).agenda = [] ∧
        ((∀ result ∈ results, contract.returns result) →
          (join results).Obeys contract (Call.isInside calls))) :
      Obeys contract (.joined calls branches join)
  | ended {result : Result} (returned : contract.returns result) : Obeys contract (.ended result)

/-- A task that keeps to a contract begins a thread that does. -/
theorem Obeys.ofTask {contract : Contract} {task : Task} (obeys : task.Obeys contract false) :
    (Thread.ofTask task).Obeys contract :=
  .ready trivial obeys

/-- Threads whose results are known have all ended with them. -/
theorem eq_ended_of_results? {threads : List Thread} {results : List Result}
    (known : results? threads = some results) : threads = results.map Thread.ended := by
  induction threads generalizing results with
  | nil =>
      cases known
      rfl
  | cons thread threads inductionHypothesis =>
      cases thread with
      | ended first =>
          obtain ⟨rest, restKnown, rfl⟩ := Option.map_eq_some_iff.mp known
          rw [inductionHypothesis restKnown, List.map_cons]
      | _ => cases known

/-- A branch that has ended is known by its result. -/
theorem mem_results?_iff {branches : List Thread} {results : List Result} {result : Result}
    (known : results? branches = some results) : result ∈ results ↔ Thread.ended result ∈ branches := by
  simp [eq_ended_of_results? known]

/-- Branches with known results have ended. -/
theorem ended_of_results? {branches : List Thread} {results : List Result}
    (known : results? branches = some results) :
    ∀ branch ∈ branches, ∃ result, branch = .ended result := by
  simp [eq_ended_of_results? known]

/-- A move keeps a thread to its contract, if what it found is expected and the tasks of the activities
that may be called keep to the contract. -/
theorem Step.obeys {contract : Contract} {program : Program} {scene nextScene : Scene}
    {thread nextThread : Thread} {move : Move}
    (bodies : ∀ activity role, contract.calls activity role →
      (program.body activity).Obeys contract true)
    (moved : Step program scene thread move nextScene nextThread)
    (expected : move.Expected contract) (obeys : thread.Obeys contract) :
    nextThread.Obeys contract := by
  induction moved with
  | finish =>
      cases obeys with
      | ready _ task => exact .ended task.returned
  | leave =>
      cases obeys with
      | ready sound task => exact .ready sound.2 (sound.1.continues _ task.returned)
  | act =>
      cases obeys with
      | ready sound task => exact .ready sound (task.reply expected)
  | enter =>
      cases obeys with
      | ready sound task =>
          obtain ⟨allowed, callSound⟩ := task.called
          exact .ready ⟨callSound, sound⟩ (bodies _ _ allowed)
  | rest =>
      cases obeys with
      | ready sound task => exact .asleep sound task.waited.2
  | wake =>
      cases obeys with
      | asleep sound task => exact .ready sound task
  | fork =>
      cases obeys with
      | ready sound task =>
          obtain ⟨begins, continues⟩ := task.forked
          refine .joined sound (fun branch present => ?_) continues
          obtain ⟨task, isBranch, rfl⟩ := List.mem_map.mp present
          exact .ofTask (begins task isBranch).2
  | branch present _ inductionHypothesis =>
      cases obeys with
      | joined sound branchesObey continues =>
          refine .joined sound (fun branch isBranch => ?_) continues
          rcases List.mem_or_eq_of_mem_set isBranch with old | rfl
          · exact branchesObey branch old
          · exact inductionHypothesis expected (branchesObey _ (List.mem_of_getElem? present))
  | join known =>
      cases obeys with
      | joined sound branchesObey continues =>
          refine .ready sound ((continues _).2 fun result present => ?_)
          cases branchesObey _ ((mem_results?_iff known).mp present) with
          | ended returned => exact returned

/-- A thread that keeps to a contract does only what the contract allows. -/
theorem Step.fits {contract : Contract} {program : Program} {scene nextScene : Scene}
    {thread nextThread : Thread} {move : Move}
    (moved : Step program scene thread move nextScene nextThread) (obeys : thread.Obeys contract) :
    move.Fits contract := by
  induction moved with
  | leave =>
      cases obeys with
      | ready _ task => exact task.returned
  | act =>
      cases obeys with
      | ready _ task => exact task.isOrdinary
  | enter =>
      cases obeys with
      | ready _ task => exact task.called.1
  | branch present _ inductionHypothesis =>
      cases obeys with
      | joined _ branchesObey _ =>
          exact inductionHypothesis (branchesObey _ (List.mem_of_getElem? present))
  | _ => trivial

end Thread

end Orchestration
