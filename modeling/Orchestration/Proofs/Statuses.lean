import Orchestration.Proofs.Threads

/-!
# The statuses of activities

An instance keeps one status for each activity that has begun. The status is that of having completed
only as long as the activity has not been marked as undone since it completed.
-/

namespace Orchestration

namespace Move

/-- That an activity completes. -/
def Completes (id : String) : Move → Prop
  | .left call result => call.activity.id = id ∧ result = .ok .completed
  | _ => False

/-- That a scope is marked as undone. -/
def Marks (scopeId : String) : Move → Prop
  | .performed action _ => action = .markCompensated scopeId
  | _ => False

end Move

namespace Instance

/-- That no activity has two statuses. -/
def Distinct (subject : Instance) : Prop := (subject.activityStatuses.map Prod.fst).Nodup

/-- That an activity has the status of having completed. -/
def HasCompleted (id : String) (subject : Instance) : Prop :=
  (id, ActivityStatus.completed) ∈ subject.activityStatuses

/-- Setting a status adds its activity at the end, unless it has one already. -/
theorem keys_putStatus (id : String) (status : ActivityStatus)
    (statuses : List (String × ActivityStatus)) :
    (putStatus id status statuses).map Prod.fst =
      if id ∈ statuses.map Prod.fst then statuses.map Prod.fst
      else statuses.map Prod.fst ++ [id] := by
  induction statuses with
  | nil => simp [putStatus]
  | cons entry rest inductionHypothesis =>
      obtain ⟨first, old⟩ := entry
      by_cases same : first = id
      · simp [putStatus, same]
      · simp only [putStatus, same, if_false, List.map_cons, inductionHypothesis, List.mem_cons,
          Ne.symm same, false_or]
        split <;> simp

/-- Noting a status notes no activity twice. -/
theorem nodup_putStatus (id : String) (status : ActivityStatus)
    {statuses : List (String × ActivityStatus)} (distinct : (statuses.map Prod.fst).Nodup) :
    ((putStatus id status statuses).map Prod.fst).Nodup := by
  rw [keys_putStatus]
  split
  · exact distinct
  · next fresh =>
      refine List.nodup_append.mpr ⟨distinct, by simp, fun key present other isId => ?_⟩
      rintro rfl
      exact fresh (List.mem_singleton.mp isId ▸ present)

/-- Where no activity has two statuses, setting the status of one replaces the old one. -/
theorem mem_putStatus {id key : String} {status found : ActivityStatus}
    {statuses : List (String × ActivityStatus)} (distinct : (statuses.map Prod.fst).Nodup)
    (present : (key, found) ∈ putStatus id status statuses) :
    (key = id ∧ found = status) ∨ (key ≠ id ∧ (key, found) ∈ statuses) := by
  induction statuses with
  | nil => exact .inl (by simpa [putStatus] using present)
  | cons entry rest inductionHypothesis =>
      obtain ⟨first, old⟩ := entry
      obtain ⟨absent, restDistinct⟩ := List.nodup_cons.mp distinct
      by_cases same : first = id
      · subst same
        simp only [putStatus, if_true, List.mem_cons, Prod.mk.injEq] at present
        rcases present with isFirst | inRest
        · exact .inl isFirst
        · refine .inr ⟨?_, List.mem_cons_of_mem _ inRest⟩
          rintro rfl
          exact absent (List.mem_map.mpr ⟨(key, found), inRest, rfl⟩)
      · simp only [putStatus, same, if_false, List.mem_cons, Prod.mk.injEq] at present
        rcases present with ⟨rfl, rfl⟩ | inRest
        · exact .inr ⟨same, List.mem_cons_self⟩
        · rcases inductionHypothesis restDistinct inRest with isId | ⟨different, inOld⟩
          · exact .inl isId
          · exact .inr ⟨different, List.mem_cons_of_mem _ inOld⟩

/-- A plan has completed scopes only, each with its own handler. -/
theorem mem_compensationPlan {definition : Definition} {target : Option String}
    {subject : Instance} {step : CompensationStep}
    (present : step ∈ subject.compensationPlan definition target) :
    subject.HasCompleted step.scopeId ∧ ∃ scope, definition.activity? step.scopeId = some scope ∧
      scope.compensationHandler = some step.handlerId := by
  simp only [compensationPlan, List.mem_reverse, List.mem_filterMap] at present
  obtain ⟨⟨id, status⟩, listed, chosen⟩ := present
  split at chosen
  · rename_i completed
    obtain ⟨activity, found, planned⟩ := Option.bind_eq_some_iff.mp chosen
    have same := Definition.id_of_activity? found
    split at planned
    · obtain ⟨handler, isHandler, rfl⟩ := Option.map_eq_some_iff.mp planned
      rw [HasCompleted, same, ← completed]
      exact ⟨listed, activity, found, isHandler⟩
    · cases planned
  · cases chosen

end Instance

/-- The completed are those with that result. -/
theorem ActivityStatus.ofResult_eq_completed_iff (result : Result) :
    ofResult result = .completed ↔ result = .ok .completed := by
  rcases result with error | outcome
  · simp [ofResult]
  · cases outcome <;> simp [ofResult]

/-- What happens inside of an execution leaves the statuses alone, apart from the marks of scopes. -/
theorem Action.activityStatuses_perform (subject : Instance) {action : Action}
    (within : action.isOrdinary = true ∨ action = .checkHalting)
    (unmarked : ∀ id, action ≠ .markCompensated id) :
    (action.perform subject).subject.activityStatuses = subject.activityStatuses := by
  rcases perform_cases subject action with ⟨_, rfl⟩ | ⟨_, _, rfl⟩ | ⟨_, rfl⟩ | ⟨id, marks⟩ |
    ⟨_, _, unchanged⟩
  · rcases within with ordinary | checks
    · cases ordinary
    · cases checks
  · rcases within with ordinary | checks
    · cases ordinary
    · cases checks
  · rfl
  · exact absurd marks (unmarked id)
  · rw [unchanged]

namespace Move.Acts

variable {contract : Contract} {scene nextScene : Scene} {move : Move}

/-- A move that does not only touch the variables sets one status. -/
theorem activityStatuses (acts : move.Acts scene nextScene) (fits : move.Fits contract) :
    (nextScene.subject.activityStatuses = scene.subject.activityStatuses ∧
        ∀ id, ¬ move.Marks id) ∨
      ∃ id status, nextScene.subject.activityStatuses =
          Instance.putStatus id status scene.subject.activityStatuses ∧
        (status = .completed → move.Completes id) ∧ ∀ other, move.Marks other → other = id := by
  cases move with
  | performed action reply =>
      obtain ⟨rfl, _⟩ := Prod.mk.inj acts
      by_cases marks : ∃ id, action = .markCompensated id
      · obtain ⟨id, rfl⟩ := marks
        refine .inr ⟨id, .compensated, rfl, nofun, fun other isOther => ?_⟩
        cases isOther
        rfl
      · have unmarked : ∀ id, action ≠ .markCompensated id := fun id isMark => marks ⟨id, isMark⟩
        exact .inl ⟨Action.activityStatuses_perform scene.subject fits unmarked, unmarked⟩
  | entered call =>
      cases acts
      exact .inr ⟨call.activity.id, .executing, rfl, nofun, nofun⟩
  | left call result =>
      cases acts
      exact .inr ⟨call.activity.id, .ofResult result, rfl,
        fun completed => ⟨rfl, (ActivityStatus.ofResult_eq_completed_iff result).mp completed⟩, nofun⟩
  | silent =>
      cases acts
      exact .inl ⟨rfl, fun _ => id⟩

/-- A move leaves no activity with two statuses. -/
theorem distinct (acts : move.Acts scene nextScene) (fits : move.Fits contract)
    (distinct : scene.subject.Distinct) : nextScene.subject.Distinct := by
  unfold Instance.Distinct at distinct ⊢
  rcases acts.activityStatuses fits with ⟨same, _⟩ | ⟨id, status, set, _⟩
  · rw [same]
    exact distinct
  · rw [set]
    exact Instance.nodup_putStatus id status distinct

/-- An activity that has the status of having completed has just done so, or had it before and was not
marked. -/
theorem hasCompleted {id : String} (acts : move.Acts scene nextScene) (fits : move.Fits contract)
    (distinct : scene.subject.Distinct) (completed : nextScene.subject.HasCompleted id) :
    move.Completes id ∨ (scene.subject.HasCompleted id ∧ ¬ move.Marks id) := by
  unfold Instance.HasCompleted at completed ⊢
  rcases acts.activityStatuses fits with ⟨same, unmarked⟩ | ⟨other, status, set, completes, marks⟩
  · rw [same] at completed
    exact .inr ⟨completed, unmarked id⟩
  · rw [set] at completed
    rcases Instance.mem_putStatus distinct completed with ⟨rfl, rfl⟩ | ⟨different, old⟩
    · exact .inl (completes rfl)
    · exact .inr ⟨old, fun marked => different (marks id marked)⟩

end Move.Acts

end Orchestration
