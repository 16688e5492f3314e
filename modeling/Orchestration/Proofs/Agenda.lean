import Orchestration.Proofs.Statuses

/-!
# What threads are going to undo

A thread that carries out plans lists the scopes that are left of them, in its task and in the calls that
it is inside of. Only reading a plan lists a scope anew, and only a scope that is listed begins to be
undone. A scope that has begun to be undone remains so until it is marked or its handler fails.
-/

namespace Orchestration

namespace Move

/-- That a move reads a plan with a scope in it. -/
def Lists (scopeId : String) : Move → Prop
  | .performed action reply => scopeId ∈ action.listed reply
  | _ => False

/-- That the handler of a scope begins. -/
def Begins (scopeId : String) : Move → Prop
  | .entered call => call.role = .undoing scopeId
  | _ => False

/-- That the handler of a scope fails. -/
def Fails (scopeId : String) : Move → Prop
  | .left call (.error _) => call.role = .undoing scopeId
  | _ => False

end Move

namespace Thread

/-- The calls that a thread is inside of, apart from those of its branches. -/
def calls : Thread → List Call
  | .ready calls _ => calls
  | .asleep calls _ _ => calls
  | .joined calls _ _ => calls
  | .ended _ => []

/-- The task that a thread goes on with. -/
def task? : Thread → Option Task
  | .ready _ task => some task
  | .asleep _ _ task => some task
  | _ => none

/-- That something is true of a call that a thread is inside of or of the task that it goes on with, here
or in one of its branches. -/
inductive Has (ofCall : Call → Prop) (ofTask : Task → Prop) : Thread → Prop where
  | call {thread : Thread} {call : Call} (inside : call ∈ thread.calls) (holds : ofCall call) :
      Has ofCall ofTask thread
  | task {thread : Thread} {task : Task} (goesOn : thread.task? = some task)
      (holds : ofTask task) : Has ofCall ofTask thread
  | branch {calls : List Call} {branches : List Thread} {join : List Result → Task}
      {branch : Thread} (present : branch ∈ branches) (has : Has ofCall ofTask branch) :
      Has ofCall ofTask (.joined calls branches join)

/-- That a plan is under way in which a scope is left to be undone. -/
def Lists (scopeId : String) : Thread → Prop :=
  Has (fun call => scopeId ∈ call.agenda) (fun task => scopeId ∈ task.agenda)

/-- That the handler of a scope is running. -/
def Runs (scopeId : String) : Thread → Prop :=
  Has (fun call => call.role = .undoing scopeId) (fun _ => False)

/-- That a task is about to mark a scope as undone. -/
def IsMark (scopeId : String) (task : Task) : Prop :=
  ∃ following, task = .act (.markCompensated scopeId) following

/-- That the handler of a scope has ended and the scope is about to be marked as undone. -/
def Pends (scopeId : String) : Thread → Prop := Has (fun _ => False) (IsMark scopeId)

/-- That a scope has begun to be undone and is not marked as undone yet. -/
def Undoes (scopeId : String) : Thread → Prop :=
  Has (fun call => call.role = .undoing scopeId) (IsMark scopeId)

variable {ofCall : Call → Prop} {ofTask : Task → Prop} {calls : List Call} {task : Task}
  {branches : List Thread} {join : List Result → Task} {scopeId : String}

/-- What has ended has nothing more. -/
@[simp]
theorem not_has_ended (result : Result) : ¬ Has ofCall ofTask (.ended result) := by
  intro has
  cases has with
  | call inside => cases inside
  | task goesOn => cases goesOn

/-- What goes on with a task has what its calls and the task have. -/
theorem has_iff_of_task? {thread : Thread} (goesOn : thread.task? = some task) :
    Has ofCall ofTask thread ↔ (∃ call ∈ thread.calls, ofCall call) ∨ ofTask task := by
  constructor
  · intro has
    cases has with
    | call inside holds => exact .inl ⟨_, inside, holds⟩
    | task other holds =>
        cases goesOn.symm.trans other
        exact .inr holds
    | branch => cases goesOn
  · rintro (⟨call, inside, holds⟩ | holds)
    · exact .call inside holds
    · exact .task goesOn holds

/-- A thread that is ready has what its calls and its task have. -/
@[simp]
theorem has_ready_iff :
    Has ofCall ofTask (.ready calls task) ↔ (∃ call ∈ calls, ofCall call) ∨ ofTask task :=
  has_iff_of_task? rfl

/-- A thread that sleeps has what its calls and its task have. -/
@[simp]
theorem has_asleep_iff {wake : Nat} :
    Has ofCall ofTask (.asleep calls wake task) ↔ (∃ call ∈ calls, ofCall call) ∨ ofTask task :=
  has_iff_of_task? rfl

/-- A thread with branches has what its calls and its branches have. -/
@[simp]
theorem has_joined_iff :
    Has ofCall ofTask (.joined calls branches join) ↔
      (∃ call ∈ calls, ofCall call) ∨ ∃ branch ∈ branches, Has ofCall ofTask branch := by
  constructor
  · intro has
    cases has with
    | call inside holds => exact .inl ⟨_, inside, holds⟩
    | task goesOn => cases goesOn
    | branch present has => exact .inr ⟨_, present, has⟩
  · rintro (⟨call, inside, holds⟩ | ⟨branch, present, has⟩)
    · exact .call inside holds
    · exact .branch present has

/-- What is true somewhere once a branch has moved was true before, or came with the move. -/
theorem Has.of_set {index : Nat} {nextBranch : Thread}
    (has : Has ofCall ofTask (.joined calls (branches.set index nextBranch) join)) :
    Has ofCall ofTask nextBranch ∨ Has ofCall ofTask (.joined calls branches join) := by
  rw [has_joined_iff] at has
  rcases has with inCalls | ⟨other, isBranch, has⟩
  · exact .inr (has_joined_iff.mpr (.inl inCalls))
  · rcases List.mem_or_eq_of_mem_set isBranch with old | rfl
    · exact .inr (.branch old has)
    · exact .inl has

/-- What is true somewhere is so still once a branch has moved, unless it was so in that branch. -/
theorem Has.set {index : Nat} {branch : Thread} (nextBranch : Thread)
    (present : branches[index]? = some branch)
    (has : Has ofCall ofTask (.joined calls branches join)) :
    Has ofCall ofTask branch ∨
      Has ofCall ofTask (.joined calls (branches.set index nextBranch) join) := by
  rw [has_joined_iff] at has
  rcases has with inCalls | ⟨other, isBranch, has⟩
  · exact .inr (has_joined_iff.mpr (.inl inCalls))
  · rcases same_or_mem_set nextBranch present isBranch with rfl | stays
    · exact .inl has
    · exact .inr (.branch stays has)

/-- A branch that has moved is one of the branches. -/
theorem Has.of_branch {index : Nat} {branch nextBranch : Thread}
    (present : branches[index]? = some branch) (has : Has ofCall ofTask nextBranch) :
    Has ofCall ofTask (.joined calls (branches.set index nextBranch) join) :=
  .branch (List.mem_set (List.getElem?_eq_some_iff.mp present).1 _) has

variable {contract : Contract} {program : Program} {scene nextScene : Scene}
  {thread nextThread : Thread} {move : Move}

/-- Only reading a plan lists a scope anew. -/
theorem Step.lists (fresh : ∀ activity, (program.body activity).agenda = [])
    (moved : Step program scene thread move nextScene nextThread) (obeys : thread.Obeys contract)
    (lists : nextThread.Lists scopeId) : thread.Lists scopeId ∨ move.Lists scopeId := by
  unfold Lists at lists ⊢
  induction moved with
  | finish => simp at lists
  | leave =>
      cases obeys with
      | ready sound _ =>
          rcases has_ready_iff.mp lists with ⟨call, inside, inCall⟩ | inTask
          · exact .inl (.call (List.mem_cons_of_mem _ inside) inCall)
          · exact .inl (.call List.mem_cons_self (sound.1.shrinks _ inTask))
  | act =>
      cases obeys with
      | ready _ task =>
          rcases has_ready_iff.mp lists with inCalls | inTask
          · exact .inl (has_ready_iff.mpr (.inl inCalls))
          · rcases List.mem_append.mp (task.agenda_reply _ inTask) with old | listed
            · exact .inl (.task rfl old)
            · exact .inr listed
  | enter =>
      rcases has_ready_iff.mp lists with ⟨call, inside, inCall⟩ | inTask
      · rcases List.mem_cons.mp inside with rfl | outer
        · exact .inl (.task rfl (List.mem_append_right _ inCall))
        · exact .inl (.call outer inCall)
      · rw [fresh] at inTask
        cases inTask
  | rest =>
      cases obeys with
      | ready _ task =>
          rw [has_asleep_iff, task.waited.1] at lists
          exact .inl (has_ready_iff.mpr (.inl (by simpa using lists)))
  | wake => exact .inl (by simpa using lists)
  | fork =>
      cases obeys with
      | ready _ task =>
          simp only [has_joined_iff, List.mem_map] at lists
          rcases lists with inCalls | ⟨_, ⟨branch, present, rfl⟩, has⟩
          · exact .inl (has_ready_iff.mpr (.inl inCalls))
          · simp [ofTask, (task.forked.1 branch present).1] at has
  | branch present _ inductionHypothesis =>
      cases obeys with
      | joined _ branchesObey _ =>
          have isBranch := List.mem_of_getElem? present
          rcases lists.of_set with inBranch | old
          · rcases inductionHypothesis (branchesObey _ isBranch) inBranch with old | listed
            · exact .inl (.branch isBranch old)
            · exact .inr listed
          · exact .inl old
  | join known =>
      cases obeys with
      | joined _ _ continues =>
          simp only [has_ready_iff, (continues _).1] at lists
          exact .inl (has_joined_iff.mpr (.inl (by simpa using lists)))

/-- Only a scope that a plan lists begins to be undone. -/
theorem Step.lists_of_begins (moved : Step program scene thread move nextScene nextThread)
    (begins : move.Begins scopeId) : thread.Lists scopeId := by
  induction moved with
  | @enter calls call =>
      refine .task rfl (List.mem_append_left _ ?_)
      rw [show call.role = .undoing scopeId from begins]
      exact List.mem_singleton_self scopeId
  | branch present _ inductionHypothesis =>
      exact .branch (List.mem_of_getElem? present) (inductionHypothesis begins)
  | _ => exact begins.elim

/-- A scope whose handler begins is being undone from then on. -/
theorem Step.undoes_of_begins (moved : Step program scene thread move nextScene nextThread)
    (begins : move.Begins scopeId) : nextThread.Undoes scopeId := by
  induction moved with
  | enter => exact .call List.mem_cons_self begins
  | branch present _ inductionHypothesis => exact .of_branch present (inductionHypothesis begins)
  | _ => exact begins.elim

/-- A scope is being undone until it is marked or its handler fails. -/
theorem Step.undoes (moved : Step program scene thread move nextScene nextThread)
    (obeys : thread.Obeys contract) (undoes : thread.Undoes scopeId) :
    nextThread.Undoes scopeId ∨ move.Marks scopeId ∨ move.Fails scopeId := by
  unfold Undoes at undoes ⊢
  induction moved with
  | finish =>
      rcases has_ready_iff.mp undoes with ⟨_, inside, _⟩ | ⟨_, impossible⟩
      · cases inside
      · cases impossible
  | @leave call calls result =>
      rcases has_ready_iff.mp undoes with ⟨other, inside, undoing⟩ | ⟨_, impossible⟩
      · rcases List.mem_cons.mp inside with rfl | outer
        · cases obeys with
          | ready sound _ =>
              cases result with
              | ok outcome => exact .inl (.task rfl (sound.1.marks scopeId outcome undoing))
              | error error => exact .inr (.inr undoing)
        · exact .inl (.call outer undoing)
      · cases impossible
  | act =>
      rcases has_ready_iff.mp undoes with inCalls | ⟨_, isMark⟩
      · exact .inl (has_ready_iff.mpr (.inl inCalls))
      · cases isMark
        exact .inr (.inl rfl)
  | enter =>
      rcases has_ready_iff.mp undoes with ⟨other, inside, undoing⟩ | ⟨_, impossible⟩
      · exact .inl (.call (List.mem_cons_of_mem _ inside) undoing)
      · cases impossible
  | rest =>
      rcases has_ready_iff.mp undoes with inCalls | ⟨_, impossible⟩
      · exact .inl (has_asleep_iff.mpr (.inl inCalls))
      · cases impossible
  | wake => exact .inl (has_ready_iff.mpr (has_asleep_iff.mp undoes))
  | fork =>
      rcases has_ready_iff.mp undoes with inCalls | ⟨_, impossible⟩
      · exact .inl (has_joined_iff.mpr (.inl inCalls))
      · cases impossible
  | branch present _ inductionHypothesis =>
      cases obeys with
      | joined _ branchesObey _ =>
          rcases undoes.set _ present with inBranch | elsewhere
          · rcases inductionHypothesis (branchesObey _ (List.mem_of_getElem? present)) inBranch with
              still | settled
            · exact .inl (.of_branch present still)
            · exact .inr settled
          · exact .inl elsewhere
  | join known =>
      rcases has_joined_iff.mp undoes with inCalls | ⟨branch, present, has⟩
      · exact .inl (has_ready_iff.mpr (.inl inCalls))
      · obtain ⟨result, rfl⟩ := ended_of_results? known branch present
        exact absurd has (not_has_ended result)

/-- A scope that is being undone has a running handler or is about to be marked. -/
theorem Undoes.runs_or_pends (undoes : thread.Undoes scopeId) :
    thread.Runs scopeId ∨ thread.Pends scopeId := by
  induction undoes with
  | call inside undoing => exact .inl (.call inside undoing)
  | task goesOn isMark => exact .inr (.task goesOn isMark)
  | branch present _ inductionHypothesis =>
      rcases inductionHypothesis with runs | pends
      · exact .inl (.branch present runs)
      · exact .inr (.branch present pends)

end Thread

end Orchestration
