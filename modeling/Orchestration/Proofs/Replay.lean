import Orchestration.Proofs.Agenda
import Orchestration.Proofs.Programs
import Orchestration.Proofs.Projection

/-!
# How often a scope is undone

A scope is due to be undone if it has completed and its handler has not begun since, nor is running. A
plan is read once, and its scopes are undone whether or not they are due by then. That goes wrong in
three ways and in no others: the handler is still running, a plan is carried out that had been overtaken
by another, or the handler has begun since the completion and did not come to its mark.
-/

namespace Orchestration

/-- That an activity is the compensation handler of a scope. -/
def Definition.Undoes (definition : Definition) (handler : Activity) (scopeId : String) : Prop :=
  ∃ scope, definition.activity? scopeId = some scope ∧
    scope.compensationHandler = some handler.id

/-- That every scope of a plan has its own handler. -/
def Definition.HasHandlers (definition : Definition) (steps : List CompensationStep) : Prop :=
  ∀ step ∈ steps, ∃ scope, definition.activity? step.scopeId = some scope ∧
    scope.compensationHandler = some step.handlerId

namespace Contract

/-- That scopes are undone by their own handlers. A task may take for granted that plans have them. -/
def byHandlers (definition : Definition) : Contract where
  calls activity role := ∀ scopeId, role = .undoing scopeId → definition.Undoes activity scopeId
  replies action reply :=
    match action, reply with
    | .plan read _, steps => read = definition → definition.HasHandlers steps
    | _, _ => True
  returns _ := True

/-- The contract grants what tasks need, and lets them fail with anything. -/
theorem byHandlers_admits (program : Program) :
    (byHandlers program.definition).Admits program where
  completed := trivial
  failed _ := trivial
  stopped _ := trivial
  exited _ _ := trivial
  undoing target steps planned step present handler found := by
    intro scopeId undoing
    cases undoing
    obtain ⟨scope, isScope, isHandler⟩ := planned rfl step present
    exact ⟨scope, isScope, by rw [isHandler, Definition.id_of_activity? found]⟩

/-- Any activity may be executed as a part. -/
theorem byHandlers_part (definition : Definition) (activity : Activity) :
    (byHandlers definition).calls activity .part := by
  intro scopeId undoing
  cases undoing

/-- What an activity does begins with no plan. -/
theorem byHandlers_body (program : Program) (activity : Activity) :
    (program.body activity).Fresh (byHandlers program.definition) true :=
  program.fresh_body (byHandlers_admits program) activity fun _ _ callee _ =>
    byHandlers_part program.definition callee

/-- The execution of a process undoes scopes by their own handlers. -/
theorem byHandlers_run (program : Program) (root : Activity) :
    (program.run root).Fresh (byHandlers program.definition) false :=
  program.fresh_run (byHandlers_admits program) (byHandlers_part program.definition root)
    fun _ _ callee _ => byHandlers_part program.definition callee

/-- The compensation of a process undoes scopes by their own handlers. -/
theorem byHandlers_compensateProcess (program : Program) :
    program.compensateProcess.Fresh (byHandlers program.definition) false :=
  program.fresh_compensateProcess (byHandlers_admits program) fun _ _ callee _ =>
    byHandlers_part program.definition callee

end Contract

/-- A plan that is read has scopes with their own handlers. -/
theorem Move.Acts.expected_byHandlers {definition : Definition} {scene nextScene : Scene}
    {move : Move} (acts : move.Acts scene nextScene) : move.Expected (.byHandlers definition) := by
  cases move with
  | performed action reply =>
      cases action with
      | plan read target =>
          obtain ⟨_, rfl⟩ := Prod.mk.inj acts
          rintro rfl step planned
          exact (Instance.mem_compensationPlan planned).2
      | _ => trivial
  | _ => trivial

/-- A scope that a move lists has completed. -/
theorem Move.Acts.hasCompleted_of_lists {scopeId : String} {scene nextScene : Scene} {move : Move}
    (acts : move.Acts scene nextScene) (lists : move.Lists scopeId) :
    scene.subject.HasCompleted scopeId := by
  cases move with
  | performed action reply =>
      cases action with
      | plan definition target =>
          obtain ⟨_, rfl⟩ := Prod.mk.inj acts
          obtain ⟨step, planned, rfl⟩ := List.mem_map.mp lists
          exact (Instance.mem_compensationPlan planned).1
      | _ => cases lists
  | _ => exact lists.elim

/-- Settling an instance leaves the statuses of its activities. -/
theorem RunPurpose.activityStatuses_settle (purpose : RunPurpose) (result : Result)
    (subject : Instance) :
    (purpose.settle result subject).activityStatuses = subject.activityStatuses := by
  obtain ⟨_, _, _, settled⟩ := purpose.exists_settle_eq result subject
  rw [settled]

namespace Situation

/-- That something is true of the thread that is under way. -/
def Now (holds : Thread → Prop) (situation : Situation) : Prop :=
  ∃ run, situation.run? = some run ∧ holds run.thread

/-- That a scope is due to be undone: its handler is not running, and the scope has completed with its
handler not having begun, nor the scope been marked, since. -/
def Due (scopeId : String) (stages : List Stage) (situation : Situation) : Prop :=
  ¬ situation.Now (Thread.Runs scopeId) ∧
    Since (Stage.Does (Move.Completes scopeId))
      (fun stage => stage.Does (Move.Begins scopeId) ∨ stage.Does (Move.Marks scopeId)) stages

/-- That a scope was marked as undone, and has not completed since, while a plan was under way in which
it was left to be undone. -/
def Overtaken (scopeId : String) (stages : List Stage) : Prop :=
  Since (fun stage => stage.Does (Move.Marks scopeId) ∧ stage.after.Now (Thread.Lists scopeId))
    (Stage.Does (Move.Completes scopeId)) stages

/-- That the handler of a scope has begun since the scope completed and did not come to its mark: it
failed, or the mark is still to be made. -/
def Unmarked (scopeId : String) (stages : List Stage) (situation : Situation) : Prop :=
  Since (Stage.Does (Move.Begins scopeId)) (Stage.Does (Move.Completes scopeId)) stages ∧
    (situation.Now (Thread.Pends scopeId) ∨
      Since (Stage.Does (Move.Fails scopeId)) (Stage.Does (Move.Completes scopeId)) stages)

/-- What is known of a scope from what has happened. -/
structure Tracks (scopeId : String) (stages : List Stage) (situation : Situation) : Prop where
  obeys : ∀ run, situation.run? = some run →
    run.thread.Obeys (.byHandlers run.program.definition)
  distinct : situation.subject.Distinct
  completed : situation.subject.HasCompleted scopeId →
    Since (Stage.Does (Move.Completes scopeId)) (Stage.Does (Move.Marks scopeId)) stages
  listed : situation.Now (Thread.Lists scopeId) →
    ∃ stage ∈ stages, stage.Does (Move.Completes scopeId)
  overtaken : situation.Now (Thread.Lists scopeId) →
    Since (Stage.Does (Move.Marks scopeId)) (Stage.Does (Move.Completes scopeId)) stages →
      Overtaken scopeId stages
  undoing : Since (Stage.Does (Move.Begins scopeId))
      (fun stage => stage.Does (Move.Marks scopeId) ∨ stage.Does (Move.Fails scopeId)) stages →
    situation.Now (Thread.Undoes scopeId)

end Situation

/-- No move both lets an activity complete and marks it. -/
theorem Stage.Does.not_marks {id : String} (stage : Stage)
    (completes : stage.Does (Move.Completes id)) : ¬ stage.Does (Move.Marks id) := by
  rintro ⟨other, isOther, marks⟩
  obtain ⟨move, isMove, completes⟩ := completes
  cases isMove.symm.trans isOther
  cases other with
  | left => exact marks
  | _ => exact completes

/-- No move both lets an activity complete and begins to undo it. -/
theorem Stage.Does.not_begins {id : String} (stage : Stage)
    (completes : stage.Does (Move.Completes id)) : ¬ stage.Does (Move.Begins id) := by
  rintro ⟨other, isOther, begins⟩
  obtain ⟨move, isMove, completes⟩ := completes
  cases isMove.symm.trans isOther
  cases other with
  | left => exact begins
  | _ => exact completes

namespace Situation

variable {scopeId : String} {stages : List Stage} {situation next : Situation} {deed : Deed}

/-- What is known of a scope once its instance has moved. -/
theorem Tracks.move {run : Run} {scene nextScene : Scene} {nextThread : Thread} {move : Move}
    (tracks : Tracks scopeId stages ⟨scene.subject, some run⟩)
    (moved : Thread.Step run.program scene run.thread move nextScene nextThread) :
    Tracks scopeId
      (stages ++ [⟨.moved move, ⟨nextScene.subject, some { run with thread := nextThread }⟩⟩])
      ⟨nextScene.subject, some { run with thread := nextThread }⟩ := by
  have obeys := tracks.obeys run rfl
  have fits := moved.fits obeys
  -- What is listed now was listed before, or has completed.
  have lists : (Situation.mk nextScene.subject (some { run with thread := nextThread })).Now
      (Thread.Lists scopeId) →
      Now (Thread.Lists scopeId) ⟨scene.subject, some run⟩ ∨ scene.subject.HasCompleted scopeId := by
    rintro ⟨_, isRun, listed⟩
    cases isRun
    rcases moved.lists (fun activity => (Contract.byHandlers_body run.program activity).agenda) obeys
      listed with before | planned
    · exact .inl ⟨run, rfl, before⟩
    · exact .inr (moved.acts.hasCompleted_of_lists planned)
  refine ⟨?obeys, moved.acts.distinct fits tracks.distinct, ?completed, ?listed, ?overtaken, ?undoing⟩
  case obeys =>
    intro _ isRun
    cases isRun
    exact moved.obeys (fun activity _ _ => (Contract.byHandlers_body run.program activity).obeys)
      moved.acts.expected_byHandlers obeys
  case completed =>
    intro hasCompleted
    simp only [Since.concat_iff, Stage.does_moved_iff]
    rcases moved.acts.hasCompleted fits tracks.distinct hasCompleted with completes |
      ⟨before, unmarked⟩
    · exact .inl completes
    · exact .inr ⟨tracks.completed before, unmarked⟩
  case listed =>
    intro listed
    have earlier : ∃ stage ∈ stages, stage.Does (Move.Completes scopeId) := by
      rcases lists listed with before | hasCompleted
      · exact tracks.listed before
      · exact (tracks.completed hasCompleted).exists_mem
    obtain ⟨stage, present, completes⟩ := earlier
    exact ⟨stage, List.mem_append_left _ present, completes⟩
  case overtaken =>
    intro listed since
    simp only [Overtaken, Since.concat_iff, Stage.does_moved_iff] at since ⊢
    rcases since with marks | ⟨since, incomplete⟩
    · exact .inl ⟨marks, listed⟩
    · rcases lists listed with before | hasCompleted
      · exact .inr ⟨tracks.overtaken before since, incomplete⟩
      · exact absurd since ((tracks.completed hasCompleted).asymm Stage.Does.not_marks)
  case undoing =>
    intro since
    simp only [Since.concat_iff, Stage.does_moved_iff] at since
    rcases since with begins | ⟨since, unended⟩
    · exact ⟨_, rfl, moved.undoes_of_begins begins⟩
    · obtain ⟨_, isRun, undoes⟩ := tracks.undoing since
      cases isRun
      rcases moved.undoes obeys undoes with still | ended
      · exact ⟨_, rfl, still⟩
      · exact absurd ended unended

/-- What is known of a scope once something has happened to its instance that is no move. -/
theorem Tracks.rest (tracks : Tracks scopeId stages situation)
    (still : ∀ move, deed ≠ .moved move)
    (same : next.subject.activityStatuses = situation.subject.activityStatuses)
    (obeys : ∀ run, next.run? = some run →
      run.thread.Obeys (.byHandlers run.program.definition))
    (lists : next.Now (Thread.Lists scopeId) → situation.Now (Thread.Lists scopeId))
    (undoes : situation.Now (Thread.Undoes scopeId) → next.Now (Thread.Undoes scopeId)) :
    Tracks scopeId (stages ++ [⟨deed, next⟩]) next := by
  have nothing (what : Move → Prop) : ¬ Stage.Does what ⟨deed, next⟩ := by
    rintro ⟨move, isMove, _⟩
    exact still move isMove
  refine ⟨obeys, ?distinct, ?completed, ?listed, ?overtaken, ?undoing⟩
  case distinct =>
    rw [Instance.Distinct, same]
    exact tracks.distinct
  case completed =>
    intro hasCompleted
    rw [Instance.HasCompleted, same] at hasCompleted
    exact Since.concat_iff.mpr (.inr ⟨tracks.completed hasCompleted, nothing _⟩)
  case listed =>
    intro listed
    obtain ⟨stage, present, completes⟩ := tracks.listed (lists listed)
    exact ⟨stage, List.mem_append_left _ present, completes⟩
  case overtaken =>
    intro listed since
    simp only [Overtaken, Since.concat_iff, nothing, false_or, false_and] at since ⊢
    exact ⟨tracks.overtaken (lists listed) since.1, id⟩
  case undoing =>
    intro since
    simp only [Since.concat_iff, nothing, false_or] at since
    exact undoes (tracks.undoing since.1)

/-- A thread that is about to begin on a task without a plan lists nothing. -/
theorem not_lists_ofTask {contract : Contract} {task : Task} (fresh : task.Fresh contract false) :
    ¬ (Thread.ofTask task).Lists scopeId := by
  simp [Thread.Lists, Thread.ofTask, fresh.agenda]

/-- Nothing has happened to any scope of an instance that was just started. -/
theorem Born.tracks {purpose : RunPurpose} (born : situation.Born purpose) :
    Tracks scopeId [⟨.began purpose, situation⟩] situation := by
  have nothing {what : Move → Prop} {ends : Stage → Prop} :
      ¬ Since (Stage.Does what) ends [⟨.began purpose, situation⟩] := by
    intro since
    obtain ⟨stage, present, _, isMove, _⟩ := since.exists_mem
    rw [List.mem_singleton.mp present] at isMove
    cases isMove
  have unlisted : ¬ situation.Now (Thread.Lists scopeId) := by
    rintro ⟨run, isRun, listed⟩
    cases born with
    | execution =>
        cases isRun
        exact not_lists_ofTask (Contract.byHandlers_run _ _) listed
    | missingRoot =>
        cases isRun
        exact Thread.not_has_ended _ listed
  refine ⟨fun run isRun => ?obeys, ?distinct, fun has => ?completed,
    fun listed => absurd listed unlisted, fun listed => absurd listed unlisted,
    fun since => absurd since nothing⟩
  case obeys =>
    cases born with
    | execution =>
        cases isRun
        exact .ofTask (Contract.byHandlers_run _ _).obeys
    | missingRoot =>
        cases isRun
        exact .ended trivial
  case distinct =>
    cases born with
    | execution new => simp [Instance.Distinct, new, Instance.new]
    | missingRoot new => simp [Instance.Distinct, new, Instance.new]
  case completed =>
    cases born with
    | execution new => simp [Instance.HasCompleted, new, Instance.new] at has
    | missingRoot new => simp [Instance.HasCompleted, new, Instance.new] at has

/-- What is known of a scope goes on with everything that happens. -/
theorem Step.tracks (happened : situation.Step deed next) (tracks : Tracks scopeId stages situation) :
    Tracks scopeId (stages ++ [⟨deed, next⟩]) next := by
  cases happened with
  | move moved => exact tracks.move moved
  | suspend => exact tracks.rest (fun _ => nofun) rfl tracks.obeys id id
  | resume => exact tracks.rest (fun _ => nofun) rfl tracks.obeys id id
  | terminate => exact tracks.rest (fun _ => nofun) rfl tracks.obeys id id
  | @compensate _ _ program =>
      refine tracks.rest (fun _ => nofun) rfl (fun run isRun => ?_) ?_ ?_
      · cases isRun
        exact .ofTask (Contract.byHandlers_compensateProcess program).obeys
      · rintro ⟨_, isRun, listed⟩
        cases isRun
        exact absurd listed (not_lists_ofTask (Contract.byHandlers_compensateProcess program))
      · rintro ⟨_, isRun, _⟩
        cases isRun
  | conclude ended =>
      refine tracks.rest (fun _ => nofun) (RunPurpose.activityStatuses_settle _ _ _)
        (fun _ => nofun) ?_ ?_
      · rintro ⟨_, isRun, _⟩
        cases isRun
      · rintro ⟨_, isRun, undoes⟩
        cases isRun
        rw [ended] at undoes
        exact absurd undoes (Thread.not_has_ended _)

end Situation

/-- What is known of a scope is known all along the life of an instance. -/
theorem Life.tracks {scopeId : String} {stages : List Stage} {situation : Situation}
    (life : Life stages situation) : Situation.Tracks scopeId stages situation := by
  induction life with
  | born born => exact born.tracks
  | step _ happened inductionHypothesis => exact happened.tracks inductionHypothesis

namespace Situation

variable {scopeId : String} {stages : List Stage} {situation : Situation}

/-- A scope that is listed and not due has been overtaken, or its handler is running, or has begun since
the scope completed and not come to its mark. -/
theorem Tracks.of_not_due (tracks : Tracks scopeId stages situation)
    (listed : situation.Now (Thread.Lists scopeId)) (undue : ¬ situation.Due scopeId stages) :
    situation.Now (Thread.Runs scopeId) ∨ Overtaken scopeId stages ∨
      situation.Unmarked scopeId stages := by
  by_cases runs : situation.Now (Thread.Runs scopeId)
  · exact .inl runs
  have unsettled : ¬ Since (Stage.Does (Move.Completes scopeId))
      (fun stage => stage.Does (Move.Begins scopeId) ∨ stage.Does (Move.Marks scopeId)) stages :=
    fun since => undue ⟨runs, since⟩
  rcases Since.or_iff.mp ((Since.or_symm (tracks.listed listed)).resolve_left unsettled) with
    begins | marks
  · rcases Since.or_symm begins.exists_mem with undoing | ended
    · -- Nothing has come of the handler: it is running, or the mark is still to be made.
      obtain ⟨run, isRun, undoes⟩ := tracks.undoing undoing
      rcases undoes.runs_or_pends with runsNow | pends
      · exact absurd ⟨run, isRun, runsNow⟩ runs
      · exact .inr (.inr ⟨begins, .inl ⟨run, isRun, pends⟩⟩)
    · rcases Since.or_iff.mp (begins.trans ended) with marks | fails
      · exact .inr (.inl (tracks.overtaken listed marks))
      · exact .inr (.inr ⟨begins, .inr fails⟩)
  · exact .inr (.inl (tracks.overtaken listed marks))

/-- A scope that is due was not marked since it completed. -/
theorem Due.unmarked (due : situation.Due scopeId stages) :
    Since (Stage.Does (Move.Completes scopeId)) (Stage.Does (Move.Marks scopeId)) stages :=
  due.2.weaken fun _ => .inr

/-- A scope whose handler is running, that was overtaken or that was left without its mark is not due. -/
theorem Due.not_repeated (due : situation.Due scopeId stages) :
    ¬ (situation.Now (Thread.Runs scopeId) ∨ Overtaken scopeId stages ∨
      situation.Unmarked scopeId stages) := by
  rintro (runs | overtaken | ⟨begins, _⟩)
  · exact due.1 runs
  · have marks : Since (Stage.Does (Move.Marks scopeId)) (Stage.Does (Move.Completes scopeId))
        stages := by
      obtain ⟨before, stage, after, placed, marked, incomplete⟩ := overtaken
      exact ⟨before, stage, after, placed, marked.1, incomplete⟩
    exact due.unmarked.asymm Stage.Does.not_marks marks
  · have unbegun : Since (Stage.Does (Move.Completes scopeId)) (Stage.Does (Move.Begins scopeId))
        stages := due.2.weaken fun _ => .inl
    exact unbegun.asymm Stage.Does.not_begins begins

end Situation

open Snapshot (History Steps stagesOf)

/-- A scope is undone by its own handler. Whenever that begins the scope is due to be undone, except in
three cases: the handler is running already, the plan had been overtaken by another, or the handler has
begun since the scope completed and did not come to its mark. In each of these the scope is not due. -/
theorem begins_undue_iff {settings : Settings} {naming : Naming} {now : Timestamp}
    {moments : List Snapshot.Moment} {state next : Snapshot} {id scopeId : String} {call : Call}
    {situation : Situation} (history : History (.new settings naming now) moments state)
    (found : state.situation? id = some situation)
    (transition : Snapshot.Step state (.done id (.moved (.entered call))) next)
    (undoing : call.role = .undoing scopeId) :
    (∃ run, situation.run? = some run ∧ run.program.definition.Undoes call.activity scopeId) ∧
      (¬ situation.Due scopeId (stagesOf id moments) ↔
        situation.Now (Thread.Runs scopeId) ∨
          Situation.Overtaken scopeId (stagesOf id moments) ∨
            situation.Unmarked scopeId (stagesOf id moments)) := by
  have tracks := @Life.tracks scopeId _ _ (history.life found)
  obtain ⟨last, _, happened⟩ := history.exists_step found transition
  cases happened with
  | @move run scene _ _ _ moved =>
      have listed : Situation.Now (Thread.Lists scopeId) ⟨scene.subject, some run⟩ :=
        ⟨run, rfl, moved.lists_of_begins undoing⟩
      refine ⟨⟨run, rfl, moved.fits (tracks.obeys run rfl) scopeId undoing⟩, ?_⟩
      exact ⟨tracks.of_not_due listed, fun repeated due => due.not_repeated repeated⟩

namespace Snapshot

variable {id : String} {moments : List Moment} {move : Move} {after : Snapshot}
  {situation : Situation} {happens ends : Stage → Prop}

/-- A move is one more stage of its own instance. -/
theorem stagesOf_moved (found : after.situation? id = some situation) :
    stagesOf id (moments ++ [⟨.done id (.moved move), after⟩]) =
      stagesOf id moments ++ [⟨.moved move, situation⟩] := by
  simp [stagesOf_concat, Moment.stage?, found]

/-- What a move did holds from then on. -/
theorem since_now (found : after.situation? id = some situation)
    (happened : happens ⟨.moved move, situation⟩) :
    Since happens ends (stagesOf id (moments ++ [⟨.done id (.moved move), after⟩])) := by
  rw [stagesOf_moved found]
  exact Since.concat_iff.mpr (.inl happened)

/-- What a move did not end holds still. -/
theorem since_moved (found : after.situation? id = some situation)
    (unended : ¬ ends ⟨.moved move, situation⟩)
    (since : Since happens ends (stagesOf id moments)) :
    Since happens ends (stagesOf id (moments ++ [⟨.done id (.moved move), after⟩])) := by
  rw [stagesOf_moved found]
  exact Since.concat_iff.mpr (.inr ⟨since, unended⟩)

end Snapshot

namespace OvertakenPlan

/-- Undoes the first scope, by doing nothing. -/
def undoFirst : Activity := { id := "undo_a", kind := .empty }

/-- Undoes the second scope, by undoing the first one. -/
def undoSecond : Activity := { id := "undo_b", kind := .compensateScope, target := some "a" }

/-- The scope that is undone twice. -/
def first : Activity := { id := "a", kind := .scope, compensationHandler := some "undo_a" }

/-- The scope whose handler undoes the first one. -/
def second : Activity := { id := "b", kind := .scope, compensationHandler := some "undo_b" }

/-- Runs one scope after the other. -/
def main : Activity := { id := "main", kind := .sequence, children := ["a", "b"] }

/-- A process the plan of which lists both scopes, while the handler of one undoes the other. -/
def definition : Definition :=
  .ofActivities "p" "P" "main" [main, first, second, undoFirst, undoSecond]

/-- The first scope is marked by a plan within the handler of the second. Then it is its turn in the plan
of the instance. -/
theorem replayed : ∃ moments state situation call occurrence next,
    History (.new .default (.numbered "i-") ⟨0, 0⟩) moments state ∧
      state.situation? "i-1" = some situation ∧ Snapshot.Step state occurrence next ∧
        occurrence = .done "i-1" (.moved (.entered call)) ∧ call.role = .undoing "a" ∧
          Since (Stage.Does (Move.Marks "a")) (Stage.Does (Move.Completes "a"))
            (stagesOf "i-1" moments) := by
  have started := Engine.steps_start .default (.numbered "i-") ⟨0, 0⟩ definition "oracle" rfl rfl rfl
  have completed := Engine.steps_conclude 0 started rfl
  have compensating := completed.step (@Snapshot.Step.compensate _ "i-1" _ [] [] _ rfl rfl)
  obtain ⟨_, moved⟩ := Thread.steps_advance _ 0 7 _ _
  obtain ⟨past, undone⟩ := compensating.trans (Engine.steps_leave [] [] rfl moved)
  have marked := undone.step (@Snapshot.Step.move _ [] [] _ _ _ _ _ rfl rfl .act)
  have left := marked.step (@Snapshot.Step.move _ [] [] _ _ _ _ _ rfl rfl .leave)
  have markedSecond := left.step (@Snapshot.Step.move _ [] [] _ _ _ _ _ rfl rfl .act)
  have announced := markedSecond.step (@Snapshot.Step.move _ [] [] _ _ _ _ _ rfl rfl .act)
  refine ⟨_, _, _, _, _, _, announced, rfl, @Snapshot.Step.move _ [] [] _ _ _ _ _ rfl rfl
    (@Thread.Step.enter _ _ _ ⟨undoFirst, .undoing "a", _⟩), rfl, rfl, ?_⟩
  have incomplete : ¬ undoSecond.id = "a" := by decide
  refine Snapshot.since_moved rfl (fun completes => (Stage.does_moved_iff.mp completes).elim) ?_
  refine Snapshot.since_moved rfl (fun completes => (Stage.does_moved_iff.mp completes).elim) ?_
  refine Snapshot.since_moved rfl
    (fun completes => incomplete (Stage.does_moved_iff.mp completes).1) ?_
  exact Snapshot.since_now rfl (Stage.does_moved_iff.mpr rfl)

end OvertakenPlan

/-- The handler of a scope can begin although the scope was undone already and has not completed
since. -/
theorem exists_undone_again :
    ∃ moments state situation call next,
      History (.new .default (.numbered "i-") ⟨0, 0⟩) moments state ∧
        state.situation? "i-1" = some situation ∧
          Snapshot.Step state (.done "i-1" (.moved (.entered call))) next ∧
            call.role = .undoing "a" ∧ ¬ situation.Due "a" (stagesOf "i-1" moments) := by
  obtain ⟨moments, state, situation, call, _, next, history, found, transition, rfl, undoing, marks⟩ :=
    OvertakenPlan.replayed
  refine ⟨moments, state, situation, call, next, history, found, transition, undoing, ?_⟩
  exact fun due => due.unmarked.asymm Stage.Does.not_marks marks

/-- The plan that the handler of the first scope belongs to was overtaken. -/
theorem exists_plan_overtaken :
    ∃ moments state situation call next,
      History (.new .default (.numbered "i-") ⟨0, 0⟩) moments state ∧
        state.situation? "i-1" = some situation ∧
          Snapshot.Step state (.done "i-1" (.moved (.entered call))) next ∧
            call.role = .undoing "a" ∧
              (situation.Now (Thread.Runs "a") ∨
                Situation.Overtaken "a" (stagesOf "i-1" moments) ∨
                  situation.Unmarked "a" (stagesOf "i-1" moments)) := by
  obtain ⟨moments, state, situation, call, _, next, history, found, transition, rfl, undoing, marks⟩ :=
    OvertakenPlan.replayed
  refine ⟨moments, state, situation, call, next, history, found, transition, undoing, ?_⟩
  refine (begins_undue_iff history found transition undoing).2.mp fun due => ?_
  exact due.unmarked.asymm Stage.Does.not_marks marks

end Orchestration
