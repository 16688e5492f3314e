import Orchestration.Proofs.Programs
import Orchestration.Proofs.Projection

/-!
# What a completed instance has done

A checkpoint that finds its instance halting leaves out what would have come next, and its execution
ends halted. The end of a run looks only at the status of the instance, which a resumption can have
set back to active by then. So an instance is completed without anything left out exactly if no
checkpoint of its run found it halting, and whenever one did, the instance was resumed afterwards.
-/

namespace Orchestration

/-- What a task may take for granted whose checkpoints all let it go on, while nobody exits: in return
it ends completed or with a failure. -/
def Contract.unhalted : Contract where
  calls _ _ := True
  replies action reply :=
    match action, reply with
    | .checkHalting, halting => halting = false
    | .exit _, _ => False
    | _, _ => True
  returns result := result ≠ .ok .halted

/-- The contract grants what tasks need: none halts where no checkpoint stops it and nobody exits. -/
theorem Contract.unhalted_admits (program : Program) : unhalted.Admits program where
  completed := nofun
  failed _ := nofun
  stopped impossible := nomatch impossible
  exited _ impossible := impossible.elim
  undoing _ _ _ _ _ _ _ := trivial

/-- Every activity keeps to it. -/
theorem Contract.unhalted_body (program : Program) (activity : Activity) :
    (program.body activity).Obeys unhalted true :=
  (program.fresh_body (unhalted_admits program) activity fun _ _ _ _ => trivial).obeys

/-- So does the execution of a root. -/
theorem Contract.unhalted_run (program : Program) (root : Activity) :
    (program.run root).Obeys unhalted false :=
  (program.fresh_run (unhalted_admits program) trivial fun _ _ _ _ => trivial).obeys

/-- That a move is a checkpoint that found the instance halting: what would have come next is left
out. -/
def Move.Skips : Move → Prop
  | .performed .checkHalting halting => halting = true
  | _ => False

/-- That a move is the end of an execution that halted. -/
def Move.Interrupts : Move → Prop
  | .performed (.close _ result) _ => result = .ok .halted
  | .left _ result => result = .ok .halted
  | _ => False

/-- That the log of an instance has an execution that was interrupted. -/
def Instance.Interrupted (subject : Instance) : Prop :=
  ∃ entry ∈ subject.log, entry.status = .interrupted

namespace Thread

variable {contract : Contract} {program : Program} {scene nextScene : Scene}
  {thread nextThread : Thread} {move : Move}

/-- That an execution inside of a thread has halted and is yet to end. -/
inductive Owes : Thread → Prop where
  | ready {call : Call} {calls : List Call} : Owes (.ready (call :: calls) .halted)
  | branch {calls : List Call} {branches : List Thread} {join : List Result → Task} {index : Nat}
      {branch : Thread} (present : branches[index]? = some branch) (owes : Owes branch) :
      Owes (.joined calls branches join)

/-- A checkpoint that found the instance halting makes its execution halt. -/
theorem Step.owes_of_skips (moved : Step program scene thread move nextScene nextThread)
    (skips : move.Skips) (obeys : thread.Obeys contract) : nextThread.Owes := by
  induction moved with
  | @act calls action next =>
      cases action with
      | checkHalting =>
          cases obeys with
          | ready _ task =>
              obtain ⟨inside, stops⟩ := task.stops
              rw [show (scene.perform .checkHalting).2 = true from skips, stops]
              cases calls with
              | nil => cases inside
              | cons call calls => exact .ready
      | _ => exact skips.elim
  | branch present _ inductionHypothesis =>
      cases obeys with
      | joined _ branchesObey _ =>
          have bound := (List.getElem?_eq_some_iff.mp present).1
          exact .branch (List.getElem?_set_self bound)
            (inductionHypothesis skips (branchesObey _ (List.mem_of_getElem? present)))
  | _ => exact skips.elim

/-- An execution that has halted stays so until it ends. -/
theorem Step.owes (moved : Step program scene thread move nextScene nextThread)
    (owes : thread.Owes) : nextThread.Owes ∨ move.Interrupts := by
  induction moved with
  | leave =>
      cases owes with
      | ready => exact .inr rfl
  | @branch _ _ _ _ _ _ nextThread _ present _ inductionHypothesis =>
      cases owes with
      | branch isBranch owes =>
          rcases same_or_getElem?_set nextThread present isBranch with ⟨_, rfl⟩ | stays
          · have bound := (List.getElem?_eq_some_iff.mp present).1
            rcases inductionHypothesis owes with still | ended
            · exact .inl (.branch (List.getElem?_set_self bound) still)
            · exact .inr ended
          · exact .inl (.branch stays owes)
  | join known =>
      cases owes with
      | branch isBranch owes =>
          obtain ⟨result, rfl⟩ := ended_of_results? known _ (List.mem_of_getElem? isBranch)
          cases owes
  | _ => cases owes

end Thread

/-- Only the mark that an execution has ended adds to the log. -/
theorem Action.log_perform (subject : Instance) {action : Action}
    (open_ : ∀ activity result, action ≠ .close activity result) :
    (action.perform subject).subject.log = subject.log := by
  rcases perform_cases subject action with ⟨_, rfl⟩ | ⟨activity, result, closes⟩ | ⟨_, rfl⟩ |
    ⟨_, rfl⟩ | ⟨_, _, unchanged⟩
  · rfl
  · exact absurd closes (open_ activity result)
  · rfl
  · rfl
  · rw [unchanged]

/-- The interrupted are those that halted. -/
theorem ActivityStatus.ofResult_eq_interrupted_iff (result : Result) :
    ofResult result = .interrupted ↔ result = .ok .halted := by
  rcases result with error | outcome
  · simp [ofResult]
  · cases outcome <;> simp [ofResult]

/-- The log gets an interruption when an execution ends that halted, and never loses it. -/
theorem Action.interrupted_close_iff (subject : Instance) (activity : Activity) (result : Result) :
    ((Action.close activity result).perform subject).subject.Interrupted ↔
      subject.Interrupted ∨ result = .ok .halted := by
  simp [perform, Instance.Interrupted, Instance.setActivityStatus, or_and_right, exists_or,
    ActivityStatus.ofResult_eq_interrupted_iff]

/-- The log has an interruption once an execution has ended that halted, and not before. -/
theorem Move.Acts.interrupted_iff {scene nextScene : Scene} {move : Move}
    (acts : move.Acts scene nextScene) :
    nextScene.subject.Interrupted ↔ scene.subject.Interrupted ∨ move.Interrupts := by
  cases move with
  | performed action reply =>
      obtain ⟨rfl, _⟩ := Prod.mk.inj acts
      by_cases closes : ∃ activity result, action = .close activity result
      · obtain ⟨activity, result, rfl⟩ := closes
        exact Action.interrupted_close_iff scene.subject activity result
      · have same : (action.perform scene.subject).subject.log = scene.subject.log :=
          Action.log_perform scene.subject fun activity result isClose =>
            closes ⟨activity, result, isClose⟩
        have silent : ¬ Interrupts (.performed action reply) := by
          cases action with
          | close activity result => exact absurd ⟨activity, result, rfl⟩ closes
          | _ => exact id
        simp [Instance.Interrupted, same, silent]
  | entered call =>
      cases acts
      simp [Scene.perform, Action.perform, Instance.Interrupted, Instance.setActivityStatus,
        Interrupts]
  | left call result =>
      cases acts
      exact Action.interrupted_close_iff scene.subject call.activity result
  | silent =>
      cases acts
      simp [Interrupts]

/-- What keeps to the contract of an unhalted execution ends none that halted. -/
theorem Move.Fits.not_interrupts {move : Move} (fits : move.Fits .unhalted) :
    ¬ move.Interrupts := by
  cases move with
  | performed action reply =>
      cases action with
      | close activity result =>
          rcases fits with ordinary | checks
          · cases ordinary
          · cases checks
      | _ => exact id
  | left call result => exact fits
  | _ => exact id

/-- An exit terminates the instance. -/
theorem Move.Acts.expected {scene nextScene : Scene} {move : Move}
    (acts : move.Acts scene nextScene) (goesOn : ¬ move.Skips) :
    move.Expected .unhalted ∨ nextScene.subject.status = .terminated := by
  cases move with
  | performed action reply =>
      cases action with
      | checkHalting =>
          change Bool at reply
          cases reply with
          | true => exact absurd rfl goesOn
          | false => exact .inl rfl
      | exit id =>
          obtain ⟨rfl, _⟩ := Prod.mk.inj acts
          exact .inr rfl
      | _ => exact .inl trivial
  | _ => exact .inl trivial

/-- A checkpoint that finds its instance halting finds it suspended or terminated, and leaves it so. -/
theorem Move.Acts.status_of_skips {scene nextScene : Scene} {move : Move}
    (acts : move.Acts scene nextScene) (skips : move.Skips) :
    nextScene.subject.status ≠ .active := by
  cases move with
  | performed action reply =>
      cases action with
      | checkHalting =>
          obtain ⟨rfl, rfl⟩ := Prod.mk.inj acts
          have halting : scene.subject.status.isHalting = true := skips
          intro active
          rw [show scene.subject.status = .active from active] at halting
          cases halting
      | _ => exact skips.elim
  | _ => exact skips.elim

namespace Situation

variable {situation next : Situation} {deed : Deed} {skipped : Prop}

/-- What is known of an execution under way. If nothing was left out, it keeps to the contract and nothing
was interrupted; else something was interrupted, or is about to be. -/
def Account (skipped : Prop) (thread : Thread) (subject : Instance) : Prop :=
  (¬ skipped ∧ thread.Obeys .unhalted ∧ ¬ subject.Interrupted) ∨
    (skipped ∧ (thread.Owes ∨ subject.Interrupted))

/-- That an execution is accounted for as long as its instance is not terminated. -/
def Accounts (skipped : Prop) (situation : Situation) : Prop :=
  ∀ run, situation.run? = some run → run.purpose = .execution →
    situation.subject.status = .terminated ∨ Account skipped run.thread situation.subject

/-- Nothing was interrupted in an instance that was just started. -/
theorem Born.accounts {purpose : RunPurpose} (born : situation.Born purpose) :
    situation.Accounts False := by
  intro run isRun executes
  cases born with
  | @execution _ _ _ _ _ program root new present =>
      cases isRun
      refine .inr (.inl ⟨id, .ofTask (Contract.unhalted_run program root), ?_⟩)
      rw [new]
      rintro ⟨entry, logged, _⟩
      simp [Instance.new] at logged
  | missingRoot =>
      cases isRun
      cases executes

/-- A move keeps the account. -/
theorem Account.move {program : Program} {scene nextScene : Scene} {thread nextThread : Thread}
    {move : Move} (moved : Thread.Step program scene thread move nextScene nextThread)
    (account : Account skipped thread scene.subject) :
    nextScene.subject.status = .terminated ∨
      Account (skipped ∨ move.Skips) nextThread nextScene.subject := by
  have logged := moved.acts.interrupted_iff
  rcases account with ⟨unskipped, obeys, uninterrupted⟩ | ⟨skipped, owes | interrupted⟩
  · by_cases skips : move.Skips
    · exact .inr (.inr ⟨.inr skips, .inl (moved.owes_of_skips skips obeys)⟩)
    · rcases moved.acts.expected skips with expected | terminated
      · refine .inr (.inl ⟨by simp [unskipped, skips], ?_, ?_⟩)
        · exact moved.obeys (fun activity _ _ => Contract.unhalted_body program activity) expected
            obeys
        · have harmless := (moved.fits obeys).not_interrupts
          simp [logged, uninterrupted, harmless]
      · exact .inl terminated
  · rcases moved.owes owes with still | interrupts
    · exact .inr (.inr ⟨.inl skipped, .inl still⟩)
    · exact .inr (.inr ⟨.inl skipped, .inr (logged.mpr (.inr interrupts))⟩)
  · exact .inr (.inr ⟨.inl skipped, .inr (logged.mpr (.inl interrupted))⟩)

/-- An execution remains accounted for, with one more checkpoint skipped if that is what happens. -/
theorem Step.accounts (happened : situation.Step deed next) (accounts : situation.Accounts skipped) :
    next.Accounts (skipped ∨ Stage.Does Move.Skips ⟨deed, next⟩) := by
  intro run isRun executes
  cases happened with
  | suspend active =>
      rcases accounts run isRun executes with terminated | account
      · simp [active] at terminated
      · exact .inr (by simpa [Stage.Does, Account, Instance.Interrupted] using account)
  | resume suspended =>
      rcases accounts run isRun executes with terminated | account
      · simp [suspended] at terminated
      · exact .inr (by simpa [Stage.Does, Account, Instance.Interrupted] using account)
  | terminate => exact .inl rfl
  | compensate =>
      cases isRun
      cases executes
  | @move own _ _ _ _ moved =>
      cases isRun
      rcases accounts own rfl executes with terminated | account
      · rcases moved.acts.status with same | stopped
        · exact .inl (same.trans terminated)
        · exact .inl stopped
      · rw [Stage.does_moved_iff]
        exact account.move moved
  | conclude => cases isRun

/-- An instance is completed by nothing but the end of its execution while it is active. -/
theorem Step.of_completed (happened : situation.Step deed next)
    (open_ : situation.subject.status ≠ .completed) (completed : next.subject.status = .completed) :
    ∃ run outcome, situation.run? = some run ∧ run.purpose = .execution ∧
      run.thread = .ended (.ok outcome) ∧ deed = .concluded .execution (.ok outcome) ∧
      situation.subject.status = .active ∧ next.subject.log = situation.subject.log := by
  cases happened with
  | suspend => cases completed
  | resume => cases completed
  | terminate => cases completed
  | compensate => cases completed
  | move moved =>
      rcases moved.acts.status with same | stopped
      · exact absurd (same.symm.trans completed) open_
      · rw [show _ = InstanceStatus.terminated from stopped] at completed
        cases completed
  | @conclude subject run result ended =>
      cases purpose : run.purpose with
      | execution =>
          rw [purpose] at completed
          cases result with
          | ok outcome =>
              by_cases active : subject.status = .active
              · refine ⟨run, outcome, rfl, purpose, ended, by rfl, active, ?_⟩
                simp [RunPurpose.settle, Engine.executed, active, Instance.finish]
              · simp only [RunPurpose.settle, Engine.executed, active, if_false] at completed
                exact absurd completed open_
          | error error =>
              simp only [RunPurpose.settle, Engine.executed] at completed
              split at completed
              · exact absurd completed open_
              · cases completed
      | missingRoot =>
          rw [purpose] at completed
          cases result with
          | ok outcome => exact absurd completed open_
          | error error => cases completed
      | compensation =>
          rw [purpose] at completed
          cases result with
          | ok outcome => cases completed
          | error error => cases completed

/-- An instance that is not active becomes so by a resumption only. -/
theorem Step.of_active (happened : situation.Step deed next)
    (halting : situation.subject.status ≠ .active) (active : next.subject.status = .active) :
    deed = .resumed := by
  cases happened with
  | resume => rfl
  | suspend => cases active
  | terminate => cases active
  | compensate => cases active
  | move moved =>
      rcases moved.acts.status with same | stopped
      · exact absurd (same.symm.trans active) halting
      · rw [show _ = InstanceStatus.terminated from stopped] at active
        cases active
  | @conclude subject run result ended =>
      have settled : (run.purpose.settle result subject).status ≠ .active := by
        cases run.purpose <;> cases result <;>
          simp only [RunPurpose.settle, Engine.executed, Engine.fail, Instance.finish, ne_eq]
        case execution.ok => split <;> simp_all
        case execution.error => split <;> simp_all
        case missingRoot.ok => exact halting
        all_goals simp
      exact absurd active settled

end Situation

namespace Life

variable {stages : List Stage} {situation : Situation}

/-- An execution is accounted for all along the life of its instance. -/
theorem accounts (life : Life stages situation) :
    situation.Accounts (∃ stage ∈ stages, stage.Does Move.Skips) := by
  induction life with
  | born born => simpa [Stage.Does] using born.accounts
  | step _ happened inductionHypothesis =>
      simpa [or_and_right, exists_or] using happened.accounts inductionHypothesis

/-- An instance that is active was resumed after every checkpoint that found it halting. -/
theorem not_since_skips (life : Life stages situation)
    (active : situation.subject.status = .active) :
    ¬ Since (Stage.Does Move.Skips) (·.deed = .resumed) stages := by
  induction life with
  | born born =>
      rw [← List.nil_append [_], Since.concat_iff]
      rintro (skips | ⟨since, _⟩)
      · simp [Stage.Does] at skips
      · exact Since.not_nil since
  | @step _ situation _ _ _ happened inductionHypothesis =>
      rw [Since.concat_iff]
      rintro (skips | ⟨since, unresumed⟩)
      · obtain ⟨_, rfl, skips⟩ := skips
        cases happened with
        | move moved => exact moved.acts.status_of_skips skips active
      · by_cases wasActive : situation.subject.status = .active
        · exact inductionHypothesis wasActive since
        · exact unresumed (happened.of_active wasActive active)

end Life

namespace Snapshot

/-- That the log of an instance has an execution that was interrupted. -/
def Interrupted (id : String) (state : Snapshot) : Prop :=
  ∃ subject, state.engine.instance? id = some subject ∧ subject.Interrupted

/-- An instance has an interrupted execution when its situation has one. -/
theorem interrupted_iff {id : String} {state : Snapshot} {situation : Situation}
    (found : state.situation? id = some situation) :
    state.Interrupted id ↔ situation.subject.Interrupted := by
  simp [Interrupted, instance?_of_situation? found]

/-- The status of an instance that is not completed yet becomes so in one way only. -/
theorem Evolves.of_completed {id : String} {before after : Option Situation}
    {occurrence : Occurrence} (evolves : Evolves id before occurrence after)
    (open_ : before.map (·.subject.status) ≠ some .completed)
    (completed : after.map (·.subject.status) = some .completed) :
    ∃ situation deed next, before = some situation ∧ occurrence = .done id deed ∧
      after = some next ∧ situation.Step deed next := by
  cases evolves with
  | elsewhere => exact absurd completed open_
  | born born =>
      cases born with
      | execution new => simp [new, Instance.new] at completed
      | missingRoot new => simp [new, Instance.new] at completed
  | step happened => exact ⟨_, _, _, rfl, rfl, rfl, happened⟩

end Snapshot

open Snapshot (History Steps stagesOf)

/-- An instance becomes completed by the end of its execution. The execution then completed too, with
nothing in the log that was interrupted, exactly if no checkpoint found the instance halting. Whenever
one did, the instance was resumed afterwards. -/
theorem completed_entirely_iff {settings : Settings} {naming : Naming} {now : Timestamp}
    {moments : List Snapshot.Moment} {state next : Snapshot} {occurrence : Occurrence} {id : String}
    (history : History (.new settings naming now) moments state)
    (transition : Snapshot.Step state occurrence next) (open_ : state.status? id ≠ some .completed)
    (completed : next.status? id = some .completed) :
    ∃ result, occurrence = .done id (.concluded .execution result) ∧
      ((result = .ok .completed ∧ ¬ next.Interrupted id) ↔
        ∀ stage ∈ stagesOf id moments, ¬ stage.Does Move.Skips) ∧
      ¬ Since (Stage.Does Move.Skips) (·.deed = .resumed) (stagesOf id moments) := by
  obtain ⟨situation, _, last, found, rfl, isLast, happened⟩ :=
    (history.evolves transition id).of_completed open_ completed
  obtain ⟨run, outcome, isRun, executes, ended, rfl, active, sameLog⟩ :=
    happened.of_completed (by simpa [Snapshot.status?, found] using open_)
      (by simpa [Snapshot.status?, isLast] using completed)
  have life := history.life found
  have same : next.Interrupted id ↔ situation.subject.Interrupted := by
    rw [Snapshot.interrupted_iff isLast, Instance.Interrupted, sameLog]
    rfl
  refine ⟨.ok outcome, rfl, ?_, life.not_since_skips active⟩
  rw [same]
  rcases life.accounts run isRun executes with terminated | ⟨unskipped, obeys, uninterrupted⟩ |
    ⟨skipped, owes | interrupted⟩
  · rw [active] at terminated
    cases terminated
  · rw [ended] at obeys
    have outcomeCompleted : outcome = .completed := by
      cases obeys with
      | ended returned =>
          cases outcome with
          | completed => rfl
          | halted => exact absurd rfl returned
    rw [outcomeCompleted]
    exact ⟨fun _ stage present skips => unskipped ⟨stage, present, skips⟩,
      fun _ => ⟨rfl, uninterrupted⟩⟩
  · rw [ended] at owes
    cases owes
  · obtain ⟨stage, present, skips⟩ := skipped
    exact ⟨fun entirely => absurd interrupted entirely.2,
      fun unskipped => absurd skips (unskipped stage present)⟩

namespace ResumedFlow

/-- Waits for a moment and then has one more thing to do. -/
def left : Activity := { id := "left", kind := .sequence, children := ["short", "after"] }

/-- Waits for a moment. -/
def short : Activity := { id := "short", kind := .wait, duration := some (.milliseconds 10) }

/-- Is left out. -/
def after : Activity := { id := "after", kind := .empty }

/-- Waits for longer. -/
def right : Activity := { id := "right", kind := .wait, duration := some (.milliseconds 100) }

/-- Runs both sides at once. -/
def main : Activity := { id := "main", kind := .flow, children := ["left", "right"] }

/-- A process one side of which reaches a checkpoint while the other side still waits. -/
def definition : Definition := .ofActivities "p" "P" "main" [main, left, short, after, right]

/-- The left side comes to its checkpoint while the instance is suspended. It is resumed before the
right side ends, and is completed then. -/
theorem skipped : ∃ moments state occurrence next,
    History (.new .default (.numbered "i-") ⟨0, 0⟩) moments state ∧
      state.status? "i-1" = some .active ∧ Snapshot.Step state occurrence next ∧
        occurrence = .done "i-1" (.concluded .execution (.ok .halted)) ∧
          next.status? "i-1" = some .completed ∧ next.Interrupted "i-1" := by
  have started := Engine.steps_start .default (.numbered "i-") ⟨0, 0⟩ definition "oracle" rfl rfl rfl
  have waiting := started.trans (Engine.steps_advance 0 _ _ [] [])
  have suspended := waiting.step (@Snapshot.Step.suspend _ "i-1" _ rfl)
  have halted := suspended.trans (Engine.steps_advance 10 _ _ [] [])
  have resumed := halted.step (@Snapshot.Step.resume _ "i-1" _ rfl)
  obtain ⟨moments, ended⟩ := resumed.trans (Engine.steps_advance 100 _ _ [] [])
  exact ⟨moments, _, _, _, ended, rfl, @Snapshot.Step.conclude _ [] [] _ _ rfl rfl, rfl, rfl, _, rfl,
    ⟨"left", "left", .sequence, .interrupted, none⟩, @Array.mem_of_getElem? _ _ 1 _ rfl, rfl⟩

end ResumedFlow

/-- An instance can be completed by an execution that halted, with an interruption in its log. -/
theorem exists_completed_interrupted :
    ∃ state next, Steps (.new .default (.numbered "i-") ⟨0, 0⟩) state ∧
      Snapshot.Step state (.done "i-1" (.concluded .execution (.ok .halted))) next ∧
        next.status? "i-1" = some .completed ∧ next.Interrupted "i-1" := by
  obtain ⟨moments, state, _, next, history, _, transition, rfl, completed, interrupted⟩ :=
    ResumedFlow.skipped
  exact ⟨state, next, ⟨moments, history⟩, transition, completed, interrupted⟩

/-- A checkpoint of its run found it halting. -/
theorem exists_completed_skipped :
    ∃ moments state occurrence next,
      History (.new .default (.numbered "i-") ⟨0, 0⟩) moments state ∧
        Snapshot.Step state occurrence next ∧ next.status? "i-1" = some .completed ∧
          ∃ stage ∈ stagesOf "i-1" moments, stage.Does Move.Skips := by
  obtain ⟨moments, state, _, next, history, active, transition, _, completed, interrupted⟩ :=
    ResumedFlow.skipped
  have open_ : state.status? "i-1" ≠ some .completed := by simp [active]
  obtain ⟨result, _, entirely, _⟩ := completed_entirely_iff history transition open_ completed
  refine ⟨moments, state, _, next, history, transition, completed, ?_⟩
  refine Classical.byContradiction fun unskipped => ?_
  exact (entirely.mpr (by simpa using unskipped)).2 interrupted

end Orchestration
