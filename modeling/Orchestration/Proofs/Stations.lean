import Orchestration.Proofs.Plans
import Orchestration.Proofs.Statuses

/-!
# The steps of a compensation

The compensation of a process has a step for every scope that is completed and has a handler, the one
that began last first, and one for the handler of the process. What is done of them is an execution of
each handler in order, up to the first that fails or does not exist, and the mark of every scope whose
handler did not fail.
-/

namespace Orchestration

/-- That an activity is a scope that has a handler to undo it. -/
def Activity.Owns (activity : Activity) : Prop :=
  activity.kind = .scope ∧ activity.compensationHandler.isSome = true

instance (activity : Activity) : Decidable activity.Owns :=
  inferInstanceAs (Decidable (_ ∧ _))

/-- That a definition has a scope under an id that has a handler to undo it. -/
def Definition.Owned (definition : Definition) (scopeId : String) : Prop :=
  ∃ scope, definition.activity? scopeId = some scope ∧ scope.Owns

namespace Instance

variable {definition : Definition} {subject : Instance}

/-- The scopes that are completed and have a handler to undo them, in the order of the statuses. -/
def undoable (definition : Definition) (subject : Instance) : List String :=
  (subject.activityStatuses.filter fun entry =>
    entry.2 = .completed && (definition.activity? entry.1).any fun scope => scope.Owns).map Prod.fst

/-- A plan has the scopes that are to be undone, the last one first. -/
theorem scopeIds_compensationPlan (definition : Definition) (subject : Instance) :
    (subject.compensationPlan definition none).map CompensationStep.scopeId =
      (subject.undoable definition).reverse := by
  unfold compensationPlan undoable
  rw [List.map_reverse]
  congr 1
  induction subject.activityStatuses with
  | nil => rfl
  | cons entry rest inductionHypothesis =>
      obtain ⟨id, status⟩ := entry
      by_cases isCompleted : status = .completed
      · cases found : definition.activity? id with
        | none => simpa [isCompleted, found] using inductionHypothesis
        | some scope =>
            have same := Definition.id_of_activity? found
            by_cases isScope : scope.kind = .scope
            · cases declared : scope.compensationHandler <;>
                simpa [isCompleted, found, isScope, declared, Activity.Owns, Activity.matchesTarget,
                  same] using inductionHypothesis
            · simpa [isCompleted, found, isScope, Activity.Owns] using inductionHypothesis
      · simpa [isCompleted] using inductionHypothesis

/-- A plan has scopes with their own handlers. -/
theorem owns_of_mem_compensationPlan {target : Option String} {step : CompensationStep}
    (present : step ∈ subject.compensationPlan definition target) :
    ∃ scope, definition.activity? step.scopeId = some scope ∧ scope.kind = .scope ∧
      scope.compensationHandler = some step.handlerId := by
  simp only [compensationPlan, List.mem_reverse, List.mem_filterMap] at present
  obtain ⟨⟨id, status⟩, _, chosen⟩ := present
  split at chosen
  · obtain ⟨activity, found, planned⟩ := Option.bind_eq_some_iff.mp chosen
    have same := Definition.id_of_activity? found
    split at planned
    · rename_i isScope
      obtain ⟨handler, isHandler, rfl⟩ := Option.map_eq_some_iff.mp planned
      simp only [Bool.and_eq_true, decide_eq_true_eq] at isScope
      exact ⟨activity, same ▸ found, isScope.1, isHandler⟩
    · cases planned
  · cases chosen

/-- The status of having completed is the only one. -/
theorem HasCompleted.activityStatus? {id : String} (completed : subject.HasCompleted id)
    (distinct : subject.Distinct) : subject.activityStatus? id = some .completed := by
  unfold HasCompleted at completed
  unfold Distinct at distinct
  unfold Instance.activityStatus?
  generalize subject.activityStatuses = statuses at completed distinct ⊢
  induction statuses with
  | nil => cases completed
  | cons entry rest inductionHypothesis =>
      obtain ⟨absent, restDistinct⟩ := List.nodup_cons.mp distinct
      rcases List.mem_cons.mp completed with rfl | inRest
      · simp
      · have different : entry.1 ≠ id := by
          rintro rfl
          exact absent (List.mem_map.mpr ⟨_, inRest, rfl⟩)
        simpa [different] using inductionHypothesis inRest restDistinct

/-- No scope is planned twice. -/
theorem nodup_undoable (distinct : subject.Distinct) : (subject.undoable definition).Nodup :=
  distinct.sublist (List.filter_sublist.map Prod.fst)

end Instance

namespace Record

/-- The handler that was executed, what for, and how that ended. -/
def execution? : Record → Option ((String × Role) × Option Result)
  | .executed activity role _ result? => some ((activity.id, role), result?)
  | _ => none

/-- The executions at the top of what was done. -/
def executions (records : List Record) : List ((String × Role) × Option Result) :=
  records.filterMap execution?

/-- Without records there are no executions. -/
@[simp]
theorem executions_nil : executions [] = [] := rfl

/-- An announcement is no execution. -/
@[simp]
theorem executions_announce {event : Event} {records : List Record} :
    executions (.performed (.announce event) () :: records) = executions records := rfl

/-- An execution stands before those behind it, with its result. -/
@[simp]
theorem executions_executed {activity : Activity} {role : Role} {within records : List Record}
    {result? : Option Result} :
    executions (.executed activity role within result? :: records) =
      ((activity.id, role), result?) :: executions records := rfl

/-- A mark is no execution. -/
@[simp]
theorem executions_marks (role : Role) (records : List Record) :
    executions (role.marks ++ records) = executions records := by
  cases role <;> rfl

/-- Marking a scope is not announcing anything. -/
@[simp]
theorem mark_ne_announce (scopeId : String) (event : Event) :
    performed (.markCompensated scopeId) () ≠ performed (.announce event) () := nofun

/-- Marks are equal when their scopes are. -/
@[simp]
theorem mark_eq_mark_iff {scopeId other : String} :
    performed (.markCompensated scopeId) () = performed (.markCompensated other) () ↔
      scopeId = other := by
  constructor
  · rintro ⟨⟩
    rfl
  · rintro rfl
    rfl

end Record

/-- How steps end that were carried out so far, with the executions that were made of them. -/
inductive Definition.Ends (definition : Definition) (carried : List (String × Role)) :
    List (String × Role) → List ((String × Role) × Option Result) → Result → Prop where
  /-- No step is left. -/
  | completed :
      Ends definition carried [] (carried.map fun step => (step, some (.ok .completed)))
        (.ok .completed)
  /-- The handler of the next step does not exist. -/
  | missing {id : String} {role : Role} {left : List (String × Role)}
      (absent : definition.activity? id = none) :
      Ends definition carried ((id, role) :: left)
        (carried.map fun step => (step, some (.ok .completed))) (.error (.childNotFound id))
  /-- The handler of the next step fails. -/
  | failed {id : String} {role : Role} {left : List (String × Role)} {error : ActivityError}
      (present : (definition.activity? id).isSome = true) :
      Ends definition carried ((id, role) :: left)
        (carried.map (fun step => (step, some (.ok .completed))) ++
          [((id, role), some (.error error))])
        (.error error)

/-- One more step was carried out before. -/
theorem Definition.Ends.cons {definition : Definition} {carried left : List (String × Role)}
    {executions : List ((String × Role) × Option Result)} {result : Result}
    (ends : definition.Ends carried left executions result) (step : String × Role) :
    definition.Ends (step :: carried) left ((step, some (.ok .completed)) :: executions) result := by
  cases ends with
  | completed => exact .completed
  | missing absent => exact .missing absent
  | failed present => exact .failed present

namespace Program.Carries

variable {program : Program} {stations : List (String × Role)} {records : List Record}
  {result? : Option Result}

/-- The marks are those of the steps before what is left, and the executions end with them, if no handler
was halted. -/
theorem ends {result : Result} (carries : program.Carries stations records (some result))
    (entire : ∀ handler role within outcome,
      .executed handler role within (some (.ok outcome)) ∈ records → outcome = .completed) :
    ∃ carried left, stations = carried ++ left ∧
      program.definition.Ends carried left (Record.executions records) result ∧
        ∀ scopeId, .performed (.markCompensated scopeId) () ∈ records ↔
          ∃ handlerId, (handlerId, .undoing scopeId) ∈ carried := by
  generalize isResult : some result = result? at carries
  induction carries with
  | finished ends =>
      obtain rfl : result = .ok .completed := by simpa [← isResult] using ends
      exact ⟨[], [], rfl, .completed, by simp⟩
  | @missing id role stations _ absent ends =>
      obtain rfl : result = .error (.childNotFound id) := by simpa [← isResult] using ends
      exact ⟨[], _, rfl, .missing absent, by simp⟩
  | @failed id role stations event handler within error _ found ends =>
      obtain rfl : result = .error error := by simpa [← isResult] using ends
      refine ⟨[], _, rfl, ?_, by simp⟩
      have failed := @Definition.Ends.failed program.definition [] id role stations error
        (by simp [found])
      simpa [Definition.id_of_activity? found] using failed
  | @carried id role stations event handler within records outcome _ found _ inductionHypothesis =>
      obtain ⟨carried, left, rfl, ends, marks⟩ :=
        inductionHypothesis (fun other role within outcome present => entire other role within outcome
          (by simp [present])) isResult
      obtain rfl := entire handler role within outcome (by simp)
      refine ⟨(id, role) :: carried, left, rfl, ?_, ?_⟩
      · simpa [Definition.id_of_activity? found] using ends.cons (id, role)
      · intro scopeId
        cases role with
        | part => simpa [Role.marks] using marks scopeId
        | undoing other =>
            simp [Role.marks, marks scopeId, exists_or]
  | underway => cases isResult

end Program.Carries

namespace Program

variable {program : Program} {plan : List CompensationStep}

/-- The scopes of the steps of a compensation are those of its plan. -/
theorem scopes_stations (program : Program) (plan : List CompensationStep) :
    (program.stations plan).filterMap (fun step => step.2.scope?) =
      plan.map CompensationStep.scopeId := by
  have ofPlan : (plan.map CompensationStep.station).filterMap (fun step => step.2.scope?) =
      plan.map CompensationStep.scopeId := by
    induction plan with
    | nil => rfl
    | cons step plan inductionHypothesis =>
        simpa [CompensationStep.station, Role.scope?] using inductionHypothesis
  unfold stations
  rw [List.filterMap_append, ofPlan]
  cases program.definition.compensationHandler <;> simp [Role.scope?]

/-- A step that undoes a scope is one of the plan. -/
theorem mem_plan_of_mem_stations {handlerId scopeId : String}
    (present : (handlerId, Role.undoing scopeId) ∈ program.stations plan) :
    ⟨scopeId, handlerId⟩ ∈ plan := by
  rcases List.mem_append.mp present with planned | own
  · obtain ⟨step, isStep, same⟩ := List.mem_map.mp planned
    obtain ⟨rfl, isScope⟩ := Prod.mk.inj same
    cases isScope
    exact isStep
  · obtain ⟨_, _, impossible⟩ := List.mem_map.mp own
    cases impossible

/-- No scope is undone by two steps of a plan that has it once. -/
theorem not_mem_left {carried left : List (String × Role)} {handlerId otherId scopeId : String}
    (distinct : (plan.map CompensationStep.scopeId).Nodup)
    (placed : program.stations plan = carried ++ left)
    (isLeft : (handlerId, Role.undoing scopeId) ∈ left) :
    (otherId, Role.undoing scopeId) ∉ carried := by
  intro isCarried
  rw [← program.scopes_stations, placed, List.filterMap_append, List.nodup_append] at distinct
  exact distinct.2.2 scopeId (List.mem_filterMap.mpr ⟨_, isCarried, rfl⟩) scopeId
    (List.mem_filterMap.mpr ⟨_, isLeft, rfl⟩) rfl

end Program

end Orchestration
