import Orchestration.Proofs.Agenda
import Orchestration.Proofs.Rethrow
import Orchestration.Proofs.Stopping

/-!
# Who catches a fault has it cleared

The place of the fault that is being handled is shared by all handlers of an instance, and any of them may
write it while others run. Still nobody who catches a fault can end without a failure before the place has
been cleared: whoever runs the recovery clears it himself, and passes its failure on, as does everybody
above him up to a handler that takes the failure. That one clears the place in turn.

So a thread that has written the place owes its clearing from then on, until somebody clears it or the
thread as a whole fails.
-/

namespace Orchestration

namespace Task

/-- That a task does not end without a failure before it has cleared the fault that is being handled. -/
inductive Clears : Task → Prop where
  | failed {error : ActivityError} : Clears (.done (.error error))
  | clear {next : Action.Reply .clearFault → Task} : Clears (.act .clearFault next)
  | act {action : Action} {next : action.Reply → Task} (continues : ∀ reply, Clears (next reply)) :
      Clears (.act action next)
  | call {activity : Activity} {role : Role} {next : Result → Task}
      (continues : ∀ result, Clears (next result)) : Clears (.call activity role next)
  | wait {duration : Duration} {next : Task} (continues : Clears next) : Clears (.wait duration next)
  | fork {branches : List Task} {join : List Result → Task}
      (continues : ∀ results, Clears (join results)) : Clears (.fork branches join)

/-- That a task clears every fault that was caught: those that it catches itself, and those of whatever
fails that it has called or forked. -/
inductive Tidy : Task → Prop where
  | done {result : Result} : Tidy (.done result)
  | act {action : Action} {next : action.Reply → Task}
      (clears : ∀ reply fault, (Move.performed action reply).Catches fault → (next reply).Clears)
      (continues : ∀ reply, Tidy (next reply)) : Tidy (.act action next)
  | call {activity : Activity} {role : Role} {next : Result → Task}
      (clears : ∀ error, (next (.error error)).Clears) (continues : ∀ result, Tidy (next result)) :
      Tidy (.call activity role next)
  | wait {duration : Duration} {next : Task} (continues : Tidy next) : Tidy (.wait duration next)
  | fork {branches : List Task} {join : List Result → Task} (begins : ∀ branch ∈ branches, Tidy branch)
      (clears : ∀ results error, .error error ∈ results → (join results).Clears)
      (continues : ∀ results, Tidy (join results)) : Tidy (.fork branches join)

/-- What goes on after a failure by clearing the fault lets the whole clear it. -/
theorem Clears.bind {task : Task} {next : Result → Task} (clears : task.Clears)
    (rescues : ∀ error, (next (.error error)).Clears) : (task.bind next).Clears := by
  induction clears with
  | failed => exact rescues _
  | clear => exact .clear
  | act _ inductionHypothesis => exact .act inductionHypothesis
  | call _ inductionHypothesis => exact .call inductionHypothesis
  | wait _ inductionHypothesis => exact .wait inductionHypothesis
  | fork _ inductionHypothesis => exact .fork inductionHypothesis

/-- Tasks one after another are tidy if what follows a failure clears what was caught. -/
theorem Tidy.bind {task : Task} {next : Result → Task} (tidy : task.Tidy)
    (rescues : ∀ error, (next (.error error)).Clears) (continues : ∀ result, (next result).Tidy) :
    (task.bind next).Tidy := by
  induction tidy with
  | done => exact continues _
  | act clears _ inductionHypothesis =>
      exact .act (fun reply fault catches => (clears reply fault catches).bind rescues)
        inductionHypothesis
  | call clears _ inductionHypothesis =>
      exact .call (fun error => (clears error).bind rescues) inductionHypothesis
  | wait _ inductionHypothesis => exact .wait inductionHypothesis
  | fork begins clears _ _ inductionHypothesis =>
      exact .fork begins (fun results error fails => (clears results error fails).bind rescues)
        inductionHypothesis

namespace Orderly

variable {permitted : Action → Bool} {task : Task}

/-- Nothing passes what has failed. -/
theorem not_passes {last : Record} {error : ActivityError}
    (failed : last.result? = some (.error error)) : ¬ Record.Passes (some last) := by
  intro passes
  cases failed.symm.trans (passes last rfl)

/-- A task in order that has just failed fails as a whole. -/
theorem clears {last : Record} {error : ActivityError} (orderly : task.Orderly permitted (some last))
    (failed : last.result? = some (.error error)) : task.Clears := by
  generalize isLast : some last = last? at orderly
  induction orderly with
  | ended stops =>
      cases isLast
      cases failed.symm.trans stops
      exact .failed
  | wait _ inductionHypothesis => exact .wait (inductionHypothesis isLast)
  | done passes | act passes | call passes | fork passes =>
      subst isLast
      exact absurd passes (not_passes failed)

/-- A task in order that catches nothing passes on whatever failed. -/
theorem tidy {last? : Option Record} (orderly : task.Orderly permitted last?)
    (uncaught : ∀ handler fault, permitted (.catchFault handler fault) = false) : task.Tidy := by
  induction orderly with
  | ended => exact .done
  | done => exact .done
  | @act _ _ action _ _ allowed _ inductionHypothesis =>
      refine .act (fun reply fault catches => ?_) fun reply => inductionHypothesis reply uncaught
      cases action with
      | catchFault =>
          rw [uncaught] at allowed
          cases allowed
      | _ => exact catches.elim
  | call _ continues inductionHypothesis =>
      exact .call (fun error => (continues [] (.error error)).clears Record.result?_executed_error)
        fun result => inductionHypothesis [] result uncaught
  | wait _ inductionHypothesis => exact .wait (inductionHypothesis uncaught)
  | fork _ _ continues branchHypothesis inductionHypothesis =>
      -- Sides that ended with the results, whatever was done in them.
      have sides (results : List Result) :
          (results.map fun result => (([] : List Record), some result)).map Prod.snd =
            results.map some := by
        simp [Function.comp_def]
      refine .fork (fun branch present => branchHypothesis branch present fun _ _ => rfl)
        (fun results error fails => ?_) fun results =>
          inductionHypothesis _ results (sides results) uncaught
      cases merged : Result.merge results with
      | ok outcome =>
          exact absurd rfl (Result.exists_merge_eq_ok_iff.mp ⟨outcome, merged⟩ _ fails error)
      | error failure =>
          exact (continues _ results (sides results)).clears
            (Record.result?_branched_iff.mpr ⟨results, sides results, merged⟩)

end Orderly

end Task

namespace Program

variable (program : Program)

/-- A recovery clears the fault that it is about, unless it fails. -/
theorem clears_recover (handler : FaultHandler) (fault : Fault) :
    (program.recover handler fault).Clears := by
  unfold recover lookup
  split
  · refine .act fun reply => ?_
    change Except ActivityError Unit at reply
    cases reply with
    | error error => exact .failed
    | ok =>
        refine .call fun result => ?_
        cases result with
        | error error => exact .failed
        | ok outcome => exact .clear
  · exact .failed

/-- Recovering from a fault clears it. -/
theorem tidy_recover (handler : FaultHandler) (fault : Fault) :
    (program.recover handler fault).Tidy := by
  have recovery (activity : Activity) :
      ((Task.call activity .part .done).andThen fun outcome =>
        .act .clearFault fun _ => .done (.ok outcome)).Clears := by
    refine .call fun result => ?_
    cases result with
    | error error => exact .failed
    | ok outcome => exact .clear
  unfold recover lookup
  split
  · refine .act (fun reply fault catches => ?_) fun reply => ?_
    · cases catches.1
      exact recovery _
    · change Except ActivityError Unit at reply
      cases reply with
      | error error => exact .done
      | ok =>
          refine .call (fun error => .failed) fun result => ?_
          cases result with
          | error error => exact .done
          | ok outcome => exact .act (fun _ _ => False.elim) fun _ => .done
  · exact .done

/-- A task that clears what was caught still does so under handlers. -/
theorem tidy_withHandlers {task : Task} (tidy : task.Tidy) (handlers : List FaultHandler)
    (caught : Fault → FaultHandler → Event) : (program.withHandlers task handlers caught).Tidy := by
  refine tidy.bind (fun error => ?_) fun result => ?_
  · dsimp only
    split
    · exact .act fun _ => program.clears_recover _ _
    · exact .failed
  · cases result with
    | ok outcome => exact .done
    | error error =>
        dsimp only
        split
        · exact .act (fun _ _ => False.elim) fun _ => program.tidy_recover _ _
        · exact .done

/-- Every activity clears what was caught in it. -/
theorem tidy_body (activity : Activity) : (program.body activity).Tidy := by
  by_cases isScope : activity.kind = .scope
  · have children : (program.runSequence activity.children).Orderly Action.isPlain none :=
      orderly_runSequence (fun _ => id) _ Record.passes_none
    unfold body
    rw [isScope]
    exact program.tidy_withHandlers (children.tidy fun _ _ => rfl) _ _
  · refine (orderly_body isScope).tidy fun handler fault => ?_
    cases kind : activity.kind <;> first | rfl | exact absurd kind isScope

/-- So does the execution of a process. -/
theorem tidy_run (root : Activity) : (program.run root).Tidy := by
  have task : (Task.call root .part .done).Orderly Action.isPlain none :=
    .callOnly Record.passes_none
  exact program.tidy_withHandlers (task.tidy fun _ _ => rfl) _ _

end Program

/-- That a caller passes on what fails, and clears what was caught. -/
structure Call.Tidy (call : Call) : Prop where
  clears : ∀ error, (call.next (.error error)).Clears
  continues : ∀ result, (call.next result).Tidy

namespace Thread

/-- That a thread clears every fault that was caught. -/
inductive Tidy : Thread → Prop where
  | ready {calls : List Call} {task : Task} (callers : ∀ call ∈ calls, call.Tidy)
      (tidy : task.Tidy) : Tidy (.ready calls task)
  | asleep {calls : List Call} {wake : Nat} {task : Task} (callers : ∀ call ∈ calls, call.Tidy)
      (tidy : task.Tidy) : Tidy (.asleep calls wake task)
  | joined {calls : List Call} {branches : List Thread} {join : List Result → Task}
      (callers : ∀ call ∈ calls, call.Tidy) (branchesTidy : ∀ branch ∈ branches, Tidy branch)
      (clears : ∀ results error, .error error ∈ results → (join results).Clears)
      (continues : ∀ results, (join results).Tidy) : Tidy (.joined calls branches join)
  | ended {result : Result} : Tidy (.ended result)

/-- That a thread does not end without a failure before it has cleared the fault that is being
handled. -/
inductive Clears : Thread → Prop where
  | call {thread : Thread} {call : Call} (inside : call ∈ thread.calls)
      (clears : ∀ result, (call.next result).Clears) : Clears thread
  | task {thread : Thread} {task : Task} (goesOn : thread.task? = some task) (clears : task.Clears) :
      Clears thread
  | branch {calls : List Call} {branches : List Thread} {join : List Result → Task} {branch : Thread}
      (present : branch ∈ branches) (clears : Clears branch) : Clears (.joined calls branches join)
  | join {calls : List Call} {branches : List Thread} {join : List Result → Task}
      (clears : ∀ results, (join results).Clears) : Clears (.joined calls branches join)
  | failed {error : ActivityError} : Clears (.ended (.error error))

variable {program : Program} {scene nextScene : Scene} {thread nextThread : Thread} {move : Move}

/-- A thread that has ended without a failure owes nothing. -/
theorem not_clears_ended (outcome : Outcome) : ¬ Clears (.ended (.ok outcome)) := by
  intro clears
  generalize isThread : Thread.ended (.ok outcome) = thread at clears
  cases clears with
  | call inside =>
      subst isThread
      cases inside
  | task goesOn =>
      subst isThread
      cases goesOn
  | _ => cases isThread

/-- A thread with a task owes what its task or one of its callers owes. -/
theorem clears_iff_of_task? {task : Task} (goesOn : thread.task? = some task) :
    thread.Clears ↔
      (∃ call ∈ thread.calls, ∀ result, (call.next result).Clears) ∨ task.Clears := by
  constructor
  · intro clears
    cases clears with
    | call inside owes => exact .inl ⟨_, inside, owes⟩
    | task other owes =>
        cases goesOn.symm.trans other
        exact .inr owes
    | _ => cases goesOn
  · rintro (⟨call, inside, owes⟩ | owes)
    · exact .call inside owes
    · exact .task goesOn owes

/-- A thread with branches owes what a caller, a branch or the join owes. -/
theorem Clears.of_joined {calls : List Call} {branches : List Thread} {join : List Result → Task}
    (clears : Clears (.joined calls branches join)) :
    (∃ call ∈ calls, ∀ result, (call.next result).Clears) ∨ (∃ branch ∈ branches, branch.Clears) ∨
      ∀ results, (join results).Clears := by
  cases clears with
  | call inside owes => exact .inl ⟨_, inside, owes⟩
  | task goesOn => cases goesOn
  | branch present owes => exact .inr (.inl ⟨_, present, owes⟩)
  | join owes => exact .inr (.inr owes)

/-- A tidy thread stays tidy. -/
theorem Step.tidy (moved : Step program scene thread move nextScene nextThread)
    (tidy : thread.Tidy) : nextThread.Tidy := by
  induction moved with
  | finish => exact .ended
  | leave =>
      cases tidy with
      | ready callers _ =>
          rw [List.forall_mem_cons] at callers
          exact .ready callers.2 (callers.1.continues _)
  | act =>
      cases tidy with
      | ready callers task =>
          cases task with
          | act _ continues => exact .ready callers (continues _)
  | enter =>
      cases tidy with
      | ready callers task =>
          cases task with
          | call clears continues =>
              exact .ready (List.forall_mem_cons.mpr ⟨⟨clears, continues⟩, callers⟩)
                (program.tidy_body _)
  | rest =>
      cases tidy with
      | ready callers task =>
          cases task with
          | wait continues => exact .asleep callers continues
  | wake =>
      cases tidy with
      | asleep callers task => exact .ready callers task
  | fork =>
      cases tidy with
      | ready callers task =>
          cases task with
          | fork begins clears continues =>
              refine .joined callers (fun branch present => ?_) clears continues
              obtain ⟨task, isBranch, rfl⟩ := List.mem_map.mp present
              exact .ready (by simp) (begins task isBranch)
  | branch present _ inductionHypothesis =>
      cases tidy with
      | joined callers branchesTidy clears continues =>
          refine .joined callers (fun branch isBranch => ?_) clears continues
          rcases List.mem_or_eq_of_mem_set isBranch with old | rfl
          · exact branchesTidy branch old
          · exact inductionHypothesis (branchesTidy _ (List.mem_of_getElem? present))
  | join =>
      cases tidy with
      | joined callers _ _ continues => exact .ready callers (continues _)

/-- A thread owes the clearing of a fault that it has just caught. -/
theorem Step.clears_of_catches {fault : Fault}
    (moved : Step program scene thread move nextScene nextThread) (tidy : thread.Tidy)
    (catches : move.Catches fault) : nextThread.Clears := by
  induction moved with
  | act =>
      cases tidy with
      | ready _ task =>
          cases task with
          | act clears _ => exact .task rfl (clears _ fault catches)
  | branch present _ inductionHypothesis =>
      cases tidy with
      | joined _ branchesTidy _ _ =>
          exact .branch (List.mem_set (List.getElem?_eq_some_iff.mp present).1 _)
            (inductionHypothesis (branchesTidy _ (List.mem_of_getElem? present)) catches)
  | _ => exact catches.elim

/-- A thread that owes the clearing of a fault goes on to owe it, unless it clears it now. -/
theorem Step.clears (moved : Step program scene thread move nextScene nextThread)
    (tidy : thread.Tidy) (clears : thread.Clears) :
    nextThread.Clears ∨ move = .performed .clearFault () := by
  induction moved with
  | finish =>
      rcases (clears_iff_of_task? rfl).mp clears with ⟨_, inside, _⟩ | failed
      · cases inside
      · cases failed
        exact .inl .failed
  | leave =>
      cases tidy with
      | ready callers _ =>
          rw [List.forall_mem_cons] at callers
          rcases (clears_iff_of_task? rfl).mp clears with ⟨call, inside, owes⟩ | failed
          · rcases List.mem_cons.mp inside with rfl | outer
            · exact .inl (.task rfl (owes _))
            · exact .inl (.call outer owes)
          · cases failed
            exact .inl (.task rfl (callers.1.clears _))
  | act =>
      rcases (clears_iff_of_task? rfl).mp clears with ⟨call, inside, owes⟩ | owes
      · exact .inl (.call inside owes)
      · cases owes with
        | clear => exact .inr rfl
        | act continues => exact .inl (.task rfl (continues _))
  | enter =>
      rcases (clears_iff_of_task? rfl).mp clears with ⟨call, inside, owes⟩ | owes
      · exact .inl (.call (List.mem_cons_of_mem _ inside) owes)
      · cases owes with
        | call continues => exact .inl (.call List.mem_cons_self continues)
  | rest =>
      rcases (clears_iff_of_task? rfl).mp clears with ⟨call, inside, owes⟩ | owes
      · exact .inl (.call inside owes)
      · cases owes with
        | wait continues => exact .inl (.task rfl continues)
  | wake =>
      rcases (clears_iff_of_task? rfl).mp clears with ⟨call, inside, owes⟩ | owes
      · exact .inl (.call inside owes)
      · exact .inl (.task rfl owes)
  | fork =>
      rcases (clears_iff_of_task? rfl).mp clears with ⟨call, inside, owes⟩ | owes
      · exact .inl (.call inside owes)
      · cases owes with
        | fork continues => exact .inl (.join continues)
  | @branch _ _ _ _ _ _ nextThread _ present _ inductionHypothesis =>
      cases tidy with
      | joined _ branchesTidy _ _ =>
          rcases clears.of_joined with ⟨call, inside, owes⟩ | ⟨branch, isBranch, owes⟩ | owes
          · exact .inl (.call inside owes)
          · rcases same_or_mem_set nextThread present isBranch with rfl | stays
            · rcases inductionHypothesis (branchesTidy _ isBranch) owes with still | cleared
              · exact .inl (.branch (List.mem_set (List.getElem?_eq_some_iff.mp present).1 _) still)
              · exact .inr cleared
            · exact .inl (.branch stays owes)
          · exact .inl (.join owes)
  | join known =>
      cases tidy with
      | joined _ _ joins _ =>
          rcases clears.of_joined with ⟨call, inside, owes⟩ | ⟨branch, isBranch, owes⟩ | owes
          · exact .inl (.call inside owes)
          · -- The branch has ended, and with a failure, since it owes the clearing still.
            obtain ⟨result, rfl⟩ := ended_of_results? known branch isBranch
            cases result with
            | ok outcome => exact absurd owes (not_clears_ended outcome)
            | error error =>
                exact .inl (.task rfl (joins _ error ((mem_results?_iff known).mpr isBranch)))
          · exact .inl (.task rfl (owes _))

end Thread

end Orchestration
