import Orchestration.Proofs.Completion
import Orchestration.Proofs.Marks
import Orchestration.Proofs.Notes
import Orchestration.Proofs.Origins

/-!
# The books of an instance

What an instance notes of its activities stays in order whatever runs on it. The status of an activity is
that of executing only as long as an execution of it is under way. So once nothing runs it is that of the
execution that ended last, unless the activity is a scope that has been marked as undone since. No other
scopes are marked than those of a plan, and those are noted and have a handler.
-/

namespace Orchestration

/-- The activity whose execution begins. -/
def Deed.begun? : Deed → Option String
  | .moved (.entered call) => some call.activity.id
  | _ => none

/-- The activities whose executions have begun, one for each execution and in order. -/
def Stage.begunOf (stages : List Stage) : List String :=
  stages.filterMap fun stage => stage.deed.begun?

/-- One more stage adds the execution that begins with it, if one does. -/
theorem Stage.begunOf_concat (stages : List Stage) (stage : Stage) :
    begunOf (stages ++ [stage]) = begunOf stages ++ stage.deed.begun?.toList := by
  cases begun : stage.deed.begun? <;> simp [begunOf, List.filterMap_append, begun]

/-- Settling an instance leaves its log. -/
theorem RunPurpose.log_settle (purpose : RunPurpose) (result : Result) (subject : Instance) :
    (purpose.settle result subject).log = subject.log := by
  obtain ⟨_, _, _, settled⟩ := purpose.exists_settle_eq result subject
  rw [settled]

namespace Situation

variable {definition : Definition} {begun : List String} {situation next : Situation} {deed : Deed}

/-- What is noted of the activities of an instance. -/
def Booked (definition : Definition) (begun : List String) (situation : Situation) : Prop :=
  situation.subject.Booked definition begun fun id => situation.Now (Thread.Executes id)

/-- Nothing executes where there is no run. -/
theorem not_now {holds : Thread → Prop} {subject : Instance} : ¬ Now holds ⟨subject, none⟩ := by
  rintro ⟨_, isRun, _⟩
  cases isRun

/-- What is true of the thread of a run is true now. -/
theorem now_iff {holds : Thread → Prop} {subject : Instance} {run : Run} :
    Now holds ⟨subject, some run⟩ ↔ holds run.thread := by
  simp [Now]

/-- A move notes what it does. Only scopes that are noted already, and have a handler, may be marked. -/
theorem Booked.move {contract : Contract} {run : Run} {scene nextScene : Scene} {nextThread : Thread}
    {move : Move} (booked : Booked definition begun ⟨scene.subject, some run⟩)
    (moved : Thread.Step run.program scene run.thread move nextScene nextThread)
    (obeys : run.thread.Obeys contract)
    (marked : ∀ scopeId, move.Marks scopeId →
      scopeId ∈ scene.subject.keys ∧ definition.Owned scopeId) :
    Booked definition (begun ++ (Deed.moved move).begun?.toList)
      ⟨nextScene.subject, some { run with thread := nextThread }⟩ := by
  unfold Booked at booked ⊢
  simp only [now_iff] at booked ⊢
  have acts := moved.acts
  have fits := moved.fits obeys
  -- A move that neither begins nor ends an execution leaves those under way as they are.
  have unchanged (unentered : ∀ id, ¬ move.Enters id) (unleft : ∀ id, ¬ move.Leaves id)
      (id : String) : nextThread.Executes id ↔ run.thread.Executes id :=
    ⟨fun executes => (moved.of_executes executes).resolve_right (unentered id),
      fun executes => (moved.executes executes).resolve_right (unleft id)⟩
  cases move with
  | performed action reply =>
      have same := unchanged (fun _ => id) fun _ => id
      clear unchanged
      obtain ⟨rfl, _⟩ := Prod.mk.inj acts
      change Instance.Booked definition (begun ++ []) _ _
      rw [List.append_nil]
      by_cases marks : ∃ scopeId, action = .markCompensated scopeId
      · obtain ⟨scopeId, rfl⟩ := marks
        obtain ⟨present, owned⟩ := marked scopeId rfl
        exact booked.mark rfl rfl present owned same
      · refine booked.of_eq ?_ ?_ same
        · exact Action.activityStatuses_perform _ fits fun scopeId isMark => marks ⟨scopeId, isMark⟩
        · refine Action.log_perform _ ?_
          rintro activity result rfl
          rcases fits with ordinary | checks
          · cases ordinary
          · cases checks
  | entered call =>
      cases acts
      refine booked.begin rfl rfl fun other => ⟨fun executes => ?_, ?_⟩
      · rcases moved.of_executes executes with before | enters
        · exact .inr before
        · exact .inl (Eq.symm enters)
      · rintro (rfl | before)
        · exact moved.executes_of_enters rfl
        · exact (moved.executes before).resolve_right id
  | left call result =>
      cases acts
      change Instance.Booked definition (begun ++ []) _ _
      rw [List.append_nil]
      refine booked.close rfl rfl rfl (ActivityStatus.ofResult_ne_executing result)
        (moved.executes_of_leaves rfl) (fun other executes => ?_) fun other different executes => ?_
      · exact (moved.of_executes executes).resolve_right id
      · exact (moved.executes executes).resolve_right (Ne.symm different)
  | silent =>
      have same := unchanged (fun _ => id) fun _ => id
      cases acts
      change Instance.Booked definition (begun ++ []) _ _
      rw [List.append_nil]
      exact booked.of_eq rfl rfl same

/-- Nothing is noted of an instance that was just started. -/
theorem Born.booked {purpose : RunPurpose} (born : situation.Born purpose) :
    situation.Booked definition [] := by
  cases born with
  | execution new =>
      rw [Booked, new]
      refine .new _ _ _ _ fun id => ?_
      rw [now_iff]
      exact Thread.not_executes_ofTask _
  | missingRoot new =>
      rw [Booked, new]
      refine .new _ _ _ _ fun id => ?_
      rw [now_iff]
      exact Thread.not_has_ended _

/-- Where nothing is noted and nothing begins or ends, everything stays as it was. -/
theorem Booked.still (booked : situation.Booked definition begun) (unbegun : deed.begun? = none)
    (statuses : next.subject.activityStatuses = situation.subject.activityStatuses)
    (log : next.subject.log = situation.subject.log)
    (same : ∀ id, next.Now (Thread.Executes id) ↔ situation.Now (Thread.Executes id)) :
    next.Booked definition (begun ++ deed.begun?.toList) := by
  rw [unbegun, Option.toList_none, List.append_nil]
  exact Instance.Booked.of_eq booked statuses log same

/-- The notes are kept by everything that happens. -/
theorem Step.booked (happened : situation.Step deed next) (booked : situation.Booked definition begun)
    (obeys : ∀ run, situation.run? = some run →
      run.thread.Obeys (.byHandlers run.program.definition))
    (marked : ∀ move scopeId, deed = .moved move → move.Marks scopeId →
      scopeId ∈ situation.subject.keys ∧ definition.Owned scopeId) :
    next.Booked definition (begun ++ deed.begun?.toList) := by
  cases happened with
  | move moved =>
      exact booked.move moved (obeys _ rfl) fun scopeId marks => marked _ scopeId rfl marks
  | suspend => exact booked.still rfl rfl rfl fun _ => .rfl
  | resume => exact booked.still rfl rfl rfl fun _ => .rfl
  | terminate => exact booked.still rfl rfl rfl fun _ => .rfl
  | compensate =>
      refine booked.still rfl rfl rfl fun id => ?_
      rw [now_iff]
      exact iff_of_false (Thread.not_executes_ofTask _) not_now
  | conclude ended =>
      refine booked.still rfl (RunPurpose.activityStatuses_settle _ _ _)
        (RunPurpose.log_settle _ _ _) fun id => ?_
      rw [now_iff, ended]
      exact iff_of_false not_now (Thread.not_has_ended _)

end Situation

namespace Contract

/-- That only such scopes are undone. A task may take for granted that plans have no others. -/
def planned (definition : Definition) (scopes : String → Prop) : Contract where
  calls _ role := ∀ scopeId, role = .undoing scopeId → scopes scopeId
  replies action reply :=
    match action, reply with
    | .plan read _, (steps : List CompensationStep) =>
        read = definition → ∀ step ∈ steps, scopes step.scopeId
    | _, _ => True
  returns _ := True

variable {program : Program} {scopes : String → Prop}

/-- The contract grants what tasks need, and lets them fail with anything. -/
theorem planned_admits : (planned program.definition scopes).Admits program where
  completed := trivial
  failed _ := trivial
  stopped _ := trivial
  exited _ _ := trivial
  undoing target steps planned step present handler found := by
    intro scopeId undoing
    cases undoing
    exact planned rfl step present

/-- Any activity may be executed as a part. -/
theorem planned_part (activity : Activity) : (planned program.definition scopes).calls activity .part :=
  nofun

/-- What an activity does inside of an execution undoes scopes of its plans only. -/
theorem planned_body (activity : Activity) :
    (program.body activity).Obeys (planned program.definition scopes) true :=
  (program.fresh_body planned_admits activity fun _ _ callee _ => planned_part callee).obeys

end Contract

/-- The task of a run undoes only scopes that are planned. -/
theorem Program.Serves.obeys_planned {program : Program} {scopes : String → Prop}
    {purpose : RunPurpose} {task : Task} (serves : program.Serves purpose task) :
    task.Obeys (.planned program.definition scopes) false := by
  cases serves with
  | execution =>
      exact (program.fresh_run Contract.planned_admits (Contract.planned_part _)
        fun _ _ callee _ => Contract.planned_part callee).obeys
  | missingRoot => exact .done trivial
  | compensation =>
      exact (program.fresh_compensateProcess Contract.planned_admits
        fun _ _ callee _ => Contract.planned_part callee).obeys

/-- A mark is an action of its own. -/
theorem Move.Marks.eq_performed {scopeId : String} {move : Move} (marks : move.Marks scopeId) :
    move = .performed (.markCompensated scopeId) () := by
  cases move with
  | performed action reply =>
      cases marks
      rfl
  | _ => exact marks.elim

/-- A mark leaves the program and the purpose of the run as they are. -/
theorem Run.Marks.same {moves : List Move} {scopeId : String} {handler : Activity}
    {within : List Record} {outcome : Outcome} {run next : Run}
    (marks : run.Marks moves scopeId handler within outcome next) :
    next.program = run.program ∧ next.purpose = run.purpose := by
  obtain ⟨path, owner, earlier, performs⟩ := marks.marks
  exact performs.same

/-- A scope that is marked was planned. -/
theorem Run.Marks.of_planned {moves : List Move} {scopeId : String} {handler : Activity}
    {within : List Record} {outcome : Outcome} {run next : Run} {scopes : String → Prop}
    (marks : run.Marks moves scopeId handler within outcome next)
    (expected : ∀ move ∈ moves, move.Expected (.planned run.program.definition scopes)) :
    scopes scopeId := by
  obtain ⟨path, owner, earlier, performs⟩ := marks.marks
  obtain ⟨task, records, later, ended?, recorded, _, grows, _⟩ := performs.placed
  have allows := (recorded.unfolds.allows (fun activity _ _ => Contract.planned_body activity)
    recorded.serves.obeys_planned (recorded.expects expected)).1
  have among := grows.among_of_mem (List.mem_of_getLast? performs.isLast) List.mem_concat_self
  exact allows _ _ _ _ among scopeId rfl

/-- A plan that is read has scopes that are noted, and have a handler. -/
theorem Move.Acts.expected_planned {definition : Definition} {scene nextScene : Scene} {move : Move}
    (acts : move.Acts scene nextScene) : move.Expected (.planned definition fun scopeId =>
      scopeId ∈ scene.subject.keys ∧ definition.Owned scopeId) := by
  cases move with
  | performed action reply =>
      cases action with
      | plan read target =>
          obtain ⟨_, rfl⟩ := Prod.mk.inj acts
          rintro rfl step planned
          obtain ⟨completed, _⟩ := Instance.mem_compensationPlan planned
          obtain ⟨scope, found, isScope, handled⟩ := Instance.owns_of_mem_compensationPlan planned
          exact ⟨List.mem_map_of_mem completed, scope, found, isScope, by simp [handled]⟩
      | _ => trivial
  | _ => trivial

/-- What is expected of a plan is expected if there may be more scopes. -/
theorem Move.Expected.planned_mono {definition : Definition} {scopes more : String → Prop}
    {move : Move} (expected : move.Expected (.planned definition scopes))
    (weaker : ∀ scopeId, scopes scopeId → more scopeId) :
    move.Expected (.planned definition more) := by
  cases move with
  | performed action reply =>
      cases action with
      | plan read target =>
          exact fun isOwn step present => weaker _ (expected isOwn step present)
      | _ => trivial
  | _ => trivial

/-- What is noted of the activities of an instance, all of whose runs are of one definition. The plans
that its last run has read have scopes that are noted. -/
theorem Life.booked {stages : List Stage} {situation : Situation} {definition : Definition}
    (life : Life stages situation)
    (of : ∀ stage ∈ stages, ∀ run, stage.after.run? = some run →
      run.program.definition = definition) :
    situation.Booked definition (Stage.begunOf stages) ∧
      ∀ move ∈ Stage.movesOf stages, move.Expected (.planned definition fun scopeId =>
        scopeId ∈ situation.subject.keys ∧ definition.Owned scopeId) := by
  induction life with
  | born born => exact ⟨born.booked, by simp [Stage.movesOf, Deed.extend]⟩
  | @step stages situation next deed prior happened inductionHypothesis =>
      obtain ⟨booked, expected⟩ :=
        inductionHypothesis fun stage present => of stage (List.mem_append_left _ present)
      have marked (move : Move) (scopeId : String) (isMove : deed = .moved move)
          (marks : move.Marks scopeId) :
          scopeId ∈ situation.subject.keys ∧ definition.Owned scopeId := by
        subst isMove
        obtain rfl := marks.eq_performed
        obtain ⟨run, nextRun, _, _, _, _, isNextRun, marks⟩ := prior.marks happened
        obtain rfl : run.program.definition = definition := by
          rw [← marks.same.1]
          exact of _ List.mem_concat_self nextRun isNextRun
        exact marks.of_planned expected
      have nextBooked := happened.booked booked (@Life.tracks "" _ _ prior).obeys marked
      rw [← Stage.begunOf_concat _ ⟨deed, next⟩] at nextBooked
      refine ⟨nextBooked, ?_⟩
      have grows (scopeId : String)
          (holds : scopeId ∈ situation.subject.keys ∧ definition.Owned scopeId) :
          scopeId ∈ next.subject.keys ∧ definition.Owned scopeId := by
        refine ⟨?_, holds.2⟩
        have before : scopeId ∈ Stage.begunOf stages := by
          rw [← List.mem_eraseDups, ← booked.order]
          exact holds.1
        rw [nextBooked.order, List.mem_eraseDups, Stage.begunOf_concat]
        exact List.mem_append_left _ before
      have kept : ∀ move ∈ Stage.movesOf stages, move.Expected (.planned definition fun scopeId =>
          scopeId ∈ next.subject.keys ∧ definition.Owned scopeId) :=
        fun move present => (expected move present).planned_mono grows
      rw [Stage.movesOf_concat]
      intro move present
      rcases Deed.mem_extend present with earlier | isMove
      · exact kept move earlier
      · obtain rfl : deed = .moved move := isMove
        obtain ⟨scene, nextScene, isSubject, _, acts⟩ := happened.acts
        refine acts.expected_planned.planned_mono fun scopeId holds => grows scopeId ?_
        rwa [isSubject] at holds

open Snapshot (History Steps stagesOf)

/-- Whenever nothing runs on an instance, none of its activities is noted as executing. Those that are
noted are those that the log has, in the order in which they first began, and each has the status of its
last entry in the log, or it is a scope with a handler that was marked as undone. -/
theorem noted_of_idle {settings : Settings} {naming : Naming} {now : Timestamp}
    {moments : List Snapshot.Moment} {state : Snapshot} {id : String} {entry : Entry}
    (history : History (.new settings naming now) moments state)
    (found : state.engine.entry? id = some entry) (idle : Run.find? id state.runs = none) :
    (∀ activityId, (activityId, ActivityStatus.executing) ∉ entry.subject.activityStatuses) ∧
      (∀ activityId, activityId ∈ entry.subject.keys ↔
        ∃ logged ∈ entry.subject.log, logged.activityId = activityId) ∧
      entry.subject.keys = (Stage.begunOf (stagesOf id moments)).eraseDups ∧
      ∀ activityId status, (activityId, status) ∈ entry.subject.activityStatuses →
        (∃ last, entry.subject.lastLogged? activityId = some last ∧ status = last.status) ∨
          (status = .compensated ∧ entry.definition.Owned activityId) := by
  have situated : state.situation? id = some ⟨entry.subject, none⟩ := by
    simp [Snapshot.situation?, Engine.instance?, found, idle]
  have known : state.definition? id = some entry.definition := by simp [Snapshot.definition?, found]
  have booked := ((history.life situated).booked (history.definition_eq known)).1
  have still (activityId : String) :
      ¬ Situation.Now (Thread.Executes activityId) ⟨entry.subject, none⟩ := Situation.not_now
  refine ⟨fun activityId present => ?_, fun activityId => ⟨fun present => ?_, ?_⟩, booked.order,
    fun activityId status present => ?_⟩
  · rcases booked.status activityId _ present with ⟨_, executes⟩ | ⟨impossible, _⟩ |
      ⟨last, isLast, same⟩
    · exact still activityId executes
    · cases impossible
    · exact booked.closed last (Instance.mem_log_of_lastLogged? isLast).1 same
  · exact (booked.ended activityId present).resolve_left (still activityId)
  · rintro ⟨logged, present, rfl⟩
    exact booked.logged logged present
  · rcases booked.status activityId status present with ⟨_, executes⟩ | marked | ⟨last, isLast, same⟩
    · exact absurd executes (still activityId)
    · exact .inr marked
    · exact .inl ⟨last, isLast, same.symm⟩

namespace RepeatedScope

/-- Undoes the scope, by doing nothing. -/
def undo : Activity := { id := "undo", kind := .empty }

/-- The scope that is executed twice. -/
def first : Activity := { id := "a", kind := .scope, compensationHandler := some "undo" }

/-- Undoes what has completed. -/
def revert : Activity := { id := "revert", kind := .compensate }

/-- Runs the scope, undoes it and runs it once more. -/
def main : Activity := { id := "main", kind := .sequence, children := ["a", "revert", "a"] }

/-- A process that runs its only scope again after it was undone. -/
def definition : Definition := .ofActivities "p" "P" "main" [main, first, revert, undo]

/-- The scope is undone once more when the instance has completed. -/
theorem undone : ∃ moments state entry,
    History (.new .default (.numbered "i-") ⟨0, 0⟩) moments state ∧
      state.engine.entry? "i-1" = some entry ∧ Run.find? "i-1" state.runs = none ∧
        entry.subject.activityStatuses = [("main", .completed), ("a", .compensated),
          ("revert", .completed), ("undo", .completed)] ∧
        entry.subject.lastLogged? "a" = some ⟨"a", "a", .scope, .completed, none⟩ := by
  have started := Engine.steps_start .default (.numbered "i-") ⟨0, 0⟩ definition "oracle" rfl rfl rfl
  have completed := Engine.steps_conclude 0 started rfl
  have compensating := completed.step (@Snapshot.Step.compensate _ "i-1" _ [] [] _ rfl rfl)
  obtain ⟨moments, compensated⟩ := Engine.steps_conclude 0 compensating rfl
  exact ⟨moments, _, _, compensated, rfl, rfl, rfl, rfl⟩

end RepeatedScope

/-- Of a scope that ran twice, and was undone after each time, the status of having been undone is
noted. The activities have first begun in the order in which they are noted. -/
theorem exists_noted_idle : ∃ moments state entry,
    History (.new .default (.numbered "i-") ⟨0, 0⟩) moments state ∧
      state.engine.entry? "i-1" = some entry ∧ Run.find? "i-1" state.runs = none ∧
        ("a", ActivityStatus.compensated) ∈ entry.subject.activityStatuses ∧
          entry.definition.Owned "a" ∧
            (Stage.begunOf (stagesOf "i-1" moments)).eraseDups = ["main", "a", "revert", "undo"] := by
  obtain ⟨moments, state, entry, history, found, idle, statuses, known⟩ := RepeatedScope.undone
  obtain ⟨_, _, order, noted⟩ := noted_of_idle history found idle
  have present : ("a", ActivityStatus.compensated) ∈ entry.subject.activityStatuses := by
    simp [statuses]
  refine ⟨moments, state, entry, history, found, idle, present, ?_, ?_⟩
  · rcases noted "a" .compensated present with ⟨last, isLast, same⟩ | ⟨_, owned⟩
    · cases known.symm.trans isLast
      cases same
    · exact owned
  · rw [← order, Instance.keys, statuses]
    rfl

end Orchestration
