import Orchestration.Proofs.Registry
import Orchestration.Proofs.Since
import Orchestration.Proofs.Threads

/-!
# The life of one instance

A situation is what concerns one instance: the instance itself, and the run of it that is under way, if
there is one. Its steps are the deeds that can be done to the instance, in any order, by the run and by
those who use the engine. A life is what can become of an instance from its start on, with every deed
and the situation that it left.
-/

namespace Orchestration

/-- An instance and the run of it that is under way. -/
structure Situation where
  subject : Instance
  run? : Option Run

/-- A deed and the situation that it left. -/
structure Stage where
  deed : Deed
  after : Situation

namespace Situation

/-- An instance that was just started for a purpose. -/
inductive Born : RunPurpose → Situation → Prop where
  | execution {subject : Instance} {id processId initiatedBy : String} {bag : Bag}
      {program : Program} {root : Activity}
      (new : subject = Instance.new id processId bag initiatedBy)
      (present : program.definition.root? = some root) :
      Born .execution ⟨subject, some ⟨id, .execution, program, .ofTask (program.run root)⟩⟩
  | missingRoot {subject : Instance} {id processId initiatedBy : String} {bag : Bag}
      {program : Program} {error : ActivityError}
      (new : subject = Instance.new id processId bag initiatedBy) :
      Born .missingRoot ⟨subject, some ⟨id, .missingRoot, program, .ended (.error error)⟩⟩

/-- Something happens to an instance. -/
inductive Step : Situation → Deed → Situation → Prop where
  | suspend {subject : Instance} {run? : Option Run} (active : subject.status = .active) :
      Step ⟨subject, run?⟩ .suspended ⟨{ subject with status := .suspended }, run?⟩
  | resume {subject : Instance} {run? : Option Run} (suspended : subject.status = .suspended) :
      Step ⟨subject, run?⟩ .resumed ⟨{ subject with status := .active }, run?⟩
  | terminate {subject : Instance} {run? : Option Run}
      (open_ : subject.status.isTerminal = false) :
      Step ⟨subject, run?⟩ .terminated ⟨subject.finish .terminated, run?⟩
  /-- Only an instance that has no run is undone. -/
  | compensate {subject : Instance} {id : String} {program : Program}
      (closed : subject.status = .completed ∨ subject.status = .faulted) :
      Step ⟨subject, none⟩ (.began .compensation)
        ⟨{ subject with status := .compensating },
          some ⟨id, .compensation, program, .ofTask program.compensateProcess⟩⟩
  | move {run : Run} {scene nextScene : Scene} {nextThread : Thread} {move : Move}
      (moved : Thread.Step run.program scene run.thread move nextScene nextThread) :
      Step ⟨scene.subject, some run⟩ (.moved move)
        ⟨nextScene.subject, some { run with thread := nextThread }⟩
  | conclude {subject : Instance} {run : Run} {result : Result}
      (ended : run.thread = .ended result) :
      Step ⟨subject, some run⟩ (.concluded run.purpose result)
        ⟨run.purpose.settle result subject, none⟩

end Situation

/-- What becomes of an instance from its start on. -/
inductive Life : List Stage → Situation → Prop where
  | born {purpose : RunPurpose} {situation : Situation} (born : situation.Born purpose) :
      Life [⟨.began purpose, situation⟩] situation
  | step {stages : List Stage} {situation next : Situation} {deed : Deed}
      (prior : Life stages situation) (happened : situation.Step deed next) :
      Life (stages ++ [⟨deed, next⟩]) next

/-- That a move was made which did something. -/
def Stage.Does (what : Move → Prop) (stage : Stage) : Prop :=
  ∃ move, stage.deed = .moved move ∧ what move

/-- A stage that is a move does what the move does. -/
@[simp]
theorem Stage.does_moved_iff {what : Move → Prop} {move : Move} {after : Situation} :
    Stage.Does what ⟨.moved move, after⟩ ↔ what move := by
  simp [Does]

/-- An action leaves the status of an instance alone, unless it terminates the instance. -/
theorem Action.status_perform (subject : Instance) (action : Action) :
    (action.perform subject).subject.status = subject.status ∨
      (action.perform subject).subject.status = .terminated := by
  rcases perform_cases subject action with ⟨_, rfl⟩ | ⟨_, _, rfl⟩ | ⟨_, rfl⟩ | ⟨_, rfl⟩ |
    ⟨_, _, unchanged⟩
  · exact .inl rfl
  · exact .inl rfl
  · exact .inr rfl
  · exact .inl rfl
  · exact .inl (by rw [unchanged])

/-- A move leaves the status of an instance alone, unless it terminates the instance. -/
theorem Move.Acts.status {scene nextScene : Scene} {move : Move}
    (acts : move.Acts scene nextScene) :
    nextScene.subject.status = scene.subject.status ∨
      nextScene.subject.status = .terminated := by
  cases move with
  | performed action reply =>
      obtain ⟨rfl, _⟩ := Prod.mk.inj acts
      exact Action.status_perform scene.subject action
  | entered call =>
      cases acts
      exact .inl rfl
  | left call result =>
      cases acts
      exact .inl rfl
  | silent =>
      cases acts
      exact .inl rfl

namespace RunPurpose

/-- The statuses that an instance can have while a run for a purpose is under way. -/
def Allows : RunPurpose → InstanceStatus → Prop
  | .compensation, status => status = .compensating ∨ status = .terminated
  | _, status => status = .active ∨ status = .suspended ∨ status = .terminated

/-- An instance may be terminated while any run is under way. -/
theorem Allows.terminated (purpose : RunPurpose) : purpose.Allows .terminated := by
  cases purpose <;> simp [Allows]

end RunPurpose

namespace Situation

/-- That the status of an instance goes with the purpose of its run. -/
def Sound (situation : Situation) : Prop :=
  ∀ run, situation.run? = some run → run.purpose.Allows situation.subject.status

/-- The status of an instance that was just started goes with its run. -/
theorem Born.sound {purpose : RunPurpose} {situation : Situation} (born : situation.Born purpose) :
    situation.Sound := by
  rintro run isRun
  cases born with
  | execution new _ =>
      cases isRun
      rw [new]
      exact .inl rfl
  | missingRoot new =>
      cases isRun
      rw [new]
      exact .inl rfl

/-- The status goes with the run whatever happens. -/
theorem Step.sound {situation next : Situation} {deed : Deed} (happened : situation.Step deed next)
    (sound : situation.Sound) : next.Sound := by
  intro run isRun
  cases happened with
  | suspend active =>
      have allowed := sound run isRun
      cases purpose : run.purpose <;> simp_all [RunPurpose.Allows]
  | resume suspended =>
      have allowed := sound run isRun
      cases purpose : run.purpose <;> simp_all [RunPurpose.Allows]
  | terminate => exact RunPurpose.Allows.terminated _
  | compensate =>
      cases isRun
      exact .inl rfl
  | @move own scene _ _ _ moved =>
      cases isRun
      have allowed : own.purpose.Allows scene.subject.status := sound own rfl
      rcases moved.acts.status with same | terminated
      · rw [same]
        exact allowed
      · rw [terminated]
        exact RunPurpose.Allows.terminated _
  | conclude => cases isRun

end Situation

/-- The status of an instance goes with the purpose of its run all its life. -/
theorem Life.sound {stages : List Stage} {situation : Situation} (life : Life stages situation) :
    situation.Sound := by
  induction life with
  | born born => exact born.sound
  | step _ happened inductionHypothesis => exact happened.sound inductionHypothesis

end Orchestration
