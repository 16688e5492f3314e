import Orchestration.Proofs.Clearing

/-!
# How instances end

The status of an instance goes with its fault and with the time of its end, whatever is done to it and in
whatever order. One that is completed has no fault, since whoever caught one has cleared it by then. One
that is faulted has one, and the time of the end is noted of all that are neither active nor suspended.
-/

namespace Orchestration

/-- That the status of an instance goes with its fault and with the time of its end. -/
structure Instance.Coherent (subject : Instance) : Prop where
  completed : subject.status = .completed → subject.fault = none
  faulted : subject.status = .faulted → subject.fault.isSome = true
  finished : subject.finished = true ↔ subject.status ≠ .active ∧ subject.status ≠ .suspended

/-- Of an instance that is neither completed nor faulted, only the time of its end says anything. -/
theorem Instance.Coherent.of_status {subject : Instance} (incomplete : subject.status ≠ .completed)
    (unfaulted : subject.status ≠ .faulted)
    (finished : subject.finished = true ↔ subject.status ≠ .active ∧ subject.status ≠ .suspended) :
    subject.Coherent :=
  ⟨fun completed => absurd completed incomplete, fun faulted => absurd faulted unfaulted, finished⟩

/-- An instance that has just begun is active and has no fault. -/
theorem Instance.coherent_new (id processId : String) (bag : Bag) (initiatedBy : String) :
    (Instance.new id processId bag initiatedBy).Coherent :=
  ⟨fun _ => rfl, nofun, by simp [new]⟩

/-- An instance that ends as faulted has the fault that it ends with. -/
theorem Engine.coherent_fail (fault : Fault) (subject : Instance) : (fail fault subject).Coherent :=
  ⟨nofun, fun _ => rfl, by simp [fail, Instance.finish]⟩

/-- An action leaves the status and the time of the end alone, unless it terminates the instance. -/
theorem Action.end_perform (subject : Instance) (action : Action) :
    ((action.perform subject).subject.status = subject.status ∧
        (action.perform subject).subject.finished = subject.finished) ∨
      ((action.perform subject).subject.status = .terminated ∧
        (action.perform subject).subject.finished = true) := by
  rcases perform_cases subject action with ⟨_, rfl⟩ | ⟨_, _, rfl⟩ | ⟨_, rfl⟩ | ⟨_, rfl⟩ |
    ⟨_, _, unchanged⟩
  · exact .inl ⟨rfl, rfl⟩
  · exact .inl ⟨rfl, rfl⟩
  · exact .inr ⟨rfl, rfl⟩
  · exact .inl ⟨rfl, rfl⟩
  · exact .inl (by simp [unchanged])

/-- A move leaves the status and the time of the end alone, unless it terminates the instance. -/
theorem Move.Acts.end_eq {scene nextScene : Scene} {move : Move} (acts : move.Acts scene nextScene) :
    (nextScene.subject.status = scene.subject.status ∧
        nextScene.subject.finished = scene.subject.finished) ∨
      (nextScene.subject.status = .terminated ∧ nextScene.subject.finished = true) := by
  cases move with
  | performed action reply =>
      obtain ⟨rfl, _⟩ := Prod.mk.inj acts
      exact Action.end_perform scene.subject action
  | entered call =>
      cases acts
      exact .inl ⟨rfl, rfl⟩
  | left call result =>
      cases acts
      exact .inl ⟨rfl, rfl⟩
  | silent =>
      cases acts
      exact .inl ⟨rfl, rfl⟩

/-- An instance is neither completed nor faulted while a run of it is under way. -/
theorem RunPurpose.Allows.open {purpose : RunPurpose} {status : InstanceStatus}
    (allows : purpose.Allows status) : status ≠ .completed ∧ status ≠ .faulted := by
  constructor
  · rintro rfl
    cases purpose <;> simp [Allows] at allows
  · rintro rfl
    cases purpose <;> simp [Allows] at allows

namespace Situation

variable {situation next : Situation} {deed : Deed}

/-- That the execution of an instance clears whatever fault is recorded as being handled. -/
def Clearing (situation : Situation) : Prop :=
  ∀ run, situation.run? = some run → run.purpose = .execution →
    run.thread.Tidy ∧ (situation.subject.fault = none ∨ run.thread.Clears)

/-- The execution that an instance begins with clears every fault. -/
theorem Born.clearing {purpose : RunPurpose} (born : situation.Born purpose) :
    situation.Clearing := by
  intro run isRun executes
  cases born with
  | @execution _ _ _ _ _ program root new =>
      cases isRun
      exact ⟨.ready (by simp) (program.tidy_run root), .inl (by rw [new, Instance.new])⟩
  | missingRoot =>
      cases isRun
      cases executes

/-- A fault that is recorded after a move was caught by it, or was there before and not cleared. -/
theorem Step.clearing (happened : situation.Step deed next) (clearing : situation.Clearing) :
    next.Clearing := by
  intro run isRun executes
  cases happened with
  | suspend => exact clearing run isRun executes
  | resume => exact clearing run isRun executes
  | terminate => exact clearing run isRun executes
  | compensate =>
      cases isRun
      cases executes
  | conclude => cases isRun
  | @move own scene nextScene nextThread move moved =>
      cases isRun
      obtain ⟨tidy, cleared⟩ := clearing own rfl executes
      refine ⟨moved.tidy tidy, ?_⟩
      cases recorded : nextScene.subject.fault with
      | none => exact .inl rfl
      | some fault =>
          refine .inr ?_
          rcases moved.acts.fault_eq_iff.mp recorded with catches | ⟨before, untouched⟩
          · exact moved.clears_of_catches tidy catches
          · have owes : own.thread.Clears := cleared.resolve_left (by simp [before])
            rcases moved.clears tidy owes with still | rfl
            · exact still
            · exact absurd trivial untouched

/-- The end of a run leaves an instance coherent. -/
theorem coherent_settle {run : Run} {subject : Instance} {result : Result}
    (ended : run.thread = .ended result) (sound : Sound ⟨subject, some run⟩)
    (clearing : Clearing ⟨subject, some run⟩) (coherent : subject.Coherent) :
    (run.purpose.settle result subject).Coherent := by
  cases purpose : run.purpose with
  | execution =>
      cases result with
      | ok outcome =>
          simp only [RunPurpose.settle, Engine.executed]
          split
          · have unfaulted : subject.fault = none := by
              rcases (clearing run rfl purpose).2 with none | owes
              · exact none
              · rw [ended] at owes
                exact absurd owes (Thread.not_clears_ended outcome)
            exact ⟨fun _ => unfaulted, by simp [Instance.finish], by simp [Instance.finish]⟩
          · exact coherent
      | error error =>
          simp only [RunPurpose.settle, Engine.executed]
          split
          · exact coherent
          · exact Engine.coherent_fail _ subject
  | missingRoot =>
      cases result with
      | ok outcome => exact coherent
      | error error => exact Engine.coherent_fail _ subject
  | compensation =>
      cases result with
      | ok outcome =>
          -- What is undone has ended before, and stays so if it is terminated in the meantime.
          have allowed : run.purpose.Allows subject.status := sound run rfl
          rw [purpose] at allowed
          have finished : subject.finished = true :=
            coherent.finished.mpr (by rcases allowed with status | status <;> simp [status])
          exact .of_status (by simp [RunPurpose.settle]) (by simp [RunPurpose.settle])
            (by simp [RunPurpose.settle, finished])
      | error error => exact Engine.coherent_fail _ subject

/-- Whatever happens to an instance leaves it coherent. -/
theorem Step.coherent (happened : situation.Step deed next) (sound : situation.Sound)
    (clearing : situation.Clearing) (coherent : situation.subject.Coherent) :
    next.subject.Coherent := by
  cases happened with
  | suspend active =>
      exact .of_status (by simp) (by simp) (by simpa [active] using coherent.finished)
  | resume suspended =>
      exact .of_status (by simp) (by simp) (by simpa [suspended] using coherent.finished)
  | terminate =>
      exact .of_status (by simp [Instance.finish]) (by simp [Instance.finish])
        (by simp [Instance.finish])
  | @compensate subject _ _ closed =>
      have finished : subject.finished = true :=
        coherent.finished.mpr (by rcases closed with status | status <;> simp [status])
      exact .of_status (by simp) (by simp) (by simp [finished])
  | move moved =>
      obtain ⟨incomplete, unfaulted⟩ := (sound _ rfl).open
      rcases moved.acts.end_eq with ⟨status, finished⟩ | ⟨status, finished⟩
      · refine ⟨fun completed => ?_, fun faulted => ?_, ?_⟩
        · exact absurd (status.symm.trans completed) incomplete
        · exact absurd (status.symm.trans faulted) unfaulted
        · rw [status, finished]
          exact coherent.finished
      · exact .of_status (by simp [status]) (by simp [status]) (by simp [status, finished])
  | conclude ended => exact coherent_settle ended sound clearing coherent

end Situation

/-- An instance is coherent all its life. -/
theorem Life.coherent {stages : List Stage} {situation : Situation} (life : Life stages situation) :
    situation.subject.Coherent := by
  suffices both : situation.Clearing ∧ situation.subject.Coherent from both.2
  induction life with
  | born born =>
      refine ⟨born.clearing, ?_⟩
      cases born with
      | execution new => exact new ▸ Instance.coherent_new _ _ _ _
      | missingRoot new => exact new ▸ Instance.coherent_new _ _ _ _
  | step prior happened inductionHypothesis =>
      obtain ⟨clearing, coherent⟩ := inductionHypothesis
      exact ⟨happened.clearing clearing, happened.coherent prior.sound clearing coherent⟩

open Snapshot (History Steps)

/-- In every state that an engine can reach, an instance that is completed has no fault, one that is
faulted has one, and the time of the end is noted exactly of those that are neither active nor
suspended. -/
theorem fault_and_end_of_status {settings : Settings} {naming : Naming} {now : Timestamp}
    {moments : List Snapshot.Moment} {state : Snapshot} {id : String} {subject : Instance}
    (history : History (.new settings naming now) moments state)
    (found : state.engine.instance? id = some subject) :
    (subject.status = .completed → subject.fault = none) ∧
      (subject.status = .faulted → subject.fault.isSome = true) ∧
        (subject.finished = true ↔ subject.status ≠ .active ∧ subject.status ≠ .suspended) := by
  have situated : state.situation? id = some ⟨subject, Run.find? id state.runs⟩ := by
    simp [Snapshot.situation?, found]
  obtain ⟨completed, faulted, finished⟩ := (history.life situated).coherent
  exact ⟨completed, faulted, finished⟩

namespace CaughtFault

/-- Fails. -/
def broken : Activity := { id := "broken", kind := .throw, faultName := some "Broken" }

/-- Waits for a moment. -/
def calm : Activity := { id := "calm", kind := .wait, duration := some (.milliseconds 10) }

/-- Sends the failure to the one that waits. -/
def main : Activity :=
  { id := "main", kind := .scope, children := ["broken"], faultHandlers := [⟨"*", none, "calm"⟩] }

/-- A process that recovers from its only fault. -/
def definition : Definition := .ofActivities "p" "P" "main" [main, broken, calm]

/-- The fault is recorded while the recovery waits. Then the instance completes. -/
theorem recovered : ∃ middle state, Steps (.new .default (.numbered "i-") ⟨0, 0⟩) middle ∧
    (∃ subject, middle.engine.instance? "i-1" = some subject ∧ subject.fault.isSome = true) ∧
      Steps middle state ∧
        ∃ subject, state.engine.instance? "i-1" = some subject ∧ subject.status = .completed := by
  have started := Engine.steps_start .default (.numbered "i-") ⟨0, 0⟩ definition "oracle" rfl rfl rfl
  have waiting := started.trans (Engine.steps_advance 0 _ _ [] [])
  exact ⟨_, _, waiting, ⟨_, rfl, rfl⟩, Engine.steps_conclude 10 .refl rfl, _, rfl, rfl⟩

end CaughtFault

/-- An instance that completes after a fault was caught has none. -/
theorem exists_fault_cleared : ∃ middle moments state,
    Steps (.new .default (.numbered "i-") ⟨0, 0⟩) middle ∧
      (∃ subject, middle.engine.instance? "i-1" = some subject ∧ subject.fault.isSome = true) ∧
        Steps middle state ∧ History (.new .default (.numbered "i-") ⟨0, 0⟩) moments state ∧
          ∃ subject, state.engine.instance? "i-1" = some subject ∧ subject.status = .completed ∧
            subject.fault = none ∧ subject.finished = true := by
  obtain ⟨middle, state, prior, faulty, later, subject, found, completed⟩ := CaughtFault.recovered
  obtain ⟨moments, history⟩ := prior.trans later
  obtain ⟨unfaulted, _, finished⟩ := fault_and_end_of_status history found
  exact ⟨middle, moments, state, prior, faulty, later, history, subject, found, completed,
    unfaulted completed, finished.mpr (by simp [completed])⟩

end Orchestration
