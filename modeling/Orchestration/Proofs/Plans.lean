import Orchestration.Proofs.Records

/-!
# How plans are carried out

A plan is carried out step by step: the handler of a step is looked up and executed, and the scope that
it undoes is marked. The first handler that is missing or fails ends the plan. A handler that ended in
any other way counts as having done its work.
-/

namespace Orchestration

/-- What follows the handler of a step: a scope that was undone is marked. -/
def Role.marks : Role → List Record
  | .part => []
  | .undoing scopeId => [.performed (.markCompensated scopeId) ()]

/-- The id of the handler of a step, and what it is called for. -/
def CompensationStep.station (step : CompensationStep) : String × Role :=
  (step.handlerId, .undoing step.scopeId)

/-- Going on twice unless something failed is going on once with both. -/
theorem Task.andThen_andThen (task : Task) (first second : Outcome → Task) :
    (task.andThen first).andThen second =
      task.andThen fun outcome => (first outcome).andThen second := by
  unfold andThen
  rw [bind_bind]
  congr 1
  funext result
  cases result <;> rfl

namespace Program

/-- The steps of the compensation of a process: those of its plan, and then its own handler. -/
def stations (program : Program) (plan : List CompensationStep) : List (String × Role) :=
  plan.map CompensationStep.station ++
    program.definition.compensationHandler.toList.map fun id => (id, .part)

/-- What is done of steps one after another, and what that comes to. -/
inductive Carries (program : Program) : List (String × Role) → List Record → Option Result → Prop where
  /-- No step is left. -/
  | finished {result? : Option Result} (ends : result? = none ∨ result? = some (.ok .completed)) :
      Carries program [] [] result?
  /-- The handler of the next step does not exist. -/
  | missing {id : String} {role : Role} {stations : List (String × Role)} {result? : Option Result}
      (absent : program.definition.activity? id = none)
      (ends : result? = none ∨ result? = some (.error (.childNotFound id))) :
      Carries program ((id, role) :: stations) [] result?
  /-- The handler of the next step fails. -/
  | failed {id : String} {role : Role} {stations : List (String × Role)} {event : Event}
      {handler : Activity} {within : List Record} {error : ActivityError} {result? : Option Result}
      (found : program.definition.activity? id = some handler)
      (ends : result? = none ∨ result? = some (.error error)) :
      Carries program ((id, role) :: stations)
        [.performed (.announce event) (), .executed handler role within (some (.error error))] result?
  /-- The next step is carried out, and others after it. -/
  | carried {id : String} {role : Role} {stations : List (String × Role)} {event : Event}
      {handler : Activity} {within records : List Record} {outcome : Outcome}
      {result? : Option Result} (found : program.definition.activity? id = some handler)
      (continues : Carries program stations records result?) :
      Carries program ((id, role) :: stations)
        (.performed (.announce event) () :: .executed handler role within (some (.ok outcome)) ::
          (role.marks ++ records)) result?
  /-- Of the next step no more has been done yet than so much. -/
  | underway {id : String} {role : Role} {stations : List (String × Role)} {event : Event}
      {handler : Activity} {within records : List Record} {ended? : Option Result}
      (found : program.definition.activity? id = some handler)
      (early : records <+: [.performed (.announce event) (), .executed handler role within ended?]) :
      Carries program ((id, role) :: stations) records none

variable {program : Program} {records : List Record} {result? : Option Result}

/-- That something is done of a step: the handler is announced and executed, or a scope is marked. -/
def IsCarrying : Record → Prop
  | .performed action _ => (∃ event, action = .announce event) ∨
      ∃ scopeId, action = .markCompensated scopeId
  | .executed .. => True
  | .branched _ => False

/-- Nothing is done of steps but to carry them out. -/
theorem Carries.isCarrying {stations : List (String × Role)}
    (carries : program.Carries stations records result?) :
    ∀ record ∈ records, IsCarrying record := by
  induction carries with
  | finished => simp
  | missing => simp
  | failed => simp [IsCarrying]
  | @carried id role stations event handler within records outcome _ _ _ inductionHypothesis =>
      cases role <;> simpa [Role.marks, IsCarrying] using inductionHypothesis
  | @underway id role stations event handler within records ended? _ early =>
      have whole : ∀ record ∈ [Record.performed (.announce event) (),
          .executed handler role within ended?], IsCarrying record := by
        simp [IsCarrying]
      exact fun record present => whole record (early.subset present)

/-- A plan that a task follows begins with its first step, and the rest of it comes after the mark. -/
theorem runPlan_cons_andThen (step : CompensationStep) (steps : List CompensationStep)
    (next : Outcome → Task) :
    (program.runPlan (step :: steps)).andThen next =
      program.lookup step.handlerId fun handler =>
        .announce (.scopeCompensating step.scopeId step.handlerId) <|
          (Task.call handler (.undoing step.scopeId) .done).andThen fun _ =>
            .act (.markCompensated step.scopeId) fun _ => (program.runPlan steps).andThen next := by
  rw [runPlan]
  unfold lookup
  cases program.definition.activity? step.handlerId with
  | none => rfl
  | some handler => exact congrArg (Task.announce _) (Task.andThen_andThen _ _ _)

/-- A plan ends completed unless it fails. -/
theorem runPlan_andThen (steps : List CompensationStep) :
    ((program.runPlan steps).andThen fun _ => .completed) = program.runPlan steps := by
  induction steps with
  | nil => rfl
  | cons step steps inductionHypothesis =>
      rw [runPlan_cons_andThen, inductionHypothesis]
      rfl

/-- What is done of a step and of the task that follows its handler, if that marks what was undone and is
one of more steps then. -/
theorem carries_cons {id : String} {role : Role} {event : Event} {next : Outcome → Task}
    {stations : List (String × Role)}
    (follows : ∀ {outcome records result?}, (next outcome).Unfolds program records result? →
      (records = [] ∧ result? = none) ∨
        ∃ rest, records = role.marks ++ rest ∧ program.Carries stations rest result?)
    (unfolds : (program.lookup id fun handler =>
      .announce event ((Task.call handler role .done).andThen next)).Unfolds program records result?) :
    program.Carries ((id, role) :: stations) records result? := by
  unfold lookup at unfolds
  cases found : program.definition.activity? id with
  | none =>
      rw [found] at unfolds
      obtain ⟨rfl, ends⟩ := unfolds.of_done
      exact .missing found ends
  | some handler =>
      rw [found] at unfolds
      cases unfolds with
      | rest => exact @Carries.underway _ _ _ _ event _ [] _ none found List.nil_prefix
      | act announced =>
          cases announced with
          | rest => exact @Carries.underway _ _ _ _ _ _ [] _ none found (List.prefix_append [_] [_])
          | inside begun => exact .underway found List.prefix_rfl
          | @call _ _ _ within _ result _ ended continues =>
              cases result with
              | error error =>
                  obtain ⟨rfl, ends⟩ := continues.of_done
                  exact .failed found ends
              | ok outcome =>
                  rcases follows continues with ⟨rfl, rfl⟩ | ⟨rest, rfl, carries⟩
                  · exact .underway found List.prefix_rfl
                  · exact .carried found carries

/-- What is done of a plan and of a task that follows it, if that is one of more steps. -/
theorem carries_andThen {next : Task} {more : List (String × Role)}
    (follows : ∀ {records result?}, next.Unfolds program records result? →
      program.Carries more records result?) (steps : List CompensationStep)
    (unfolds : ((program.runPlan steps).andThen fun _ => next).Unfolds program records result?) :
    program.Carries (steps.map CompensationStep.station ++ more) records result? := by
  induction steps generalizing records result? with
  | nil => exact follows unfolds
  | cons step steps inductionHypothesis =>
      rw [runPlan_cons_andThen] at unfolds
      refine carries_cons (fun marks => ?_) unfolds
      cases marks with
      | rest => exact .inl ⟨rfl, rfl⟩
      | act marked => exact .inr ⟨_, rfl, inductionHypothesis marked⟩

/-- Nothing is done without steps. -/
theorem carries_completed (unfolds : Task.completed.Unfolds program records result?) :
    program.Carries [] records result? := by
  obtain ⟨rfl, ends⟩ := unfolds.of_done
  exact .finished ends

/-- What is done of a plan. -/
theorem carries_runPlan (steps : List CompensationStep)
    (unfolds : (program.runPlan steps).Unfolds program records result?) :
    program.Carries (steps.map CompensationStep.station) records result? := by
  rw [← runPlan_andThen] at unfolds
  simpa using carries_andThen carries_completed steps unfolds

/-- What is done to undo the scopes of a target: a plan is read and carried out. -/
theorem carries_compensateScopes {target : Option String}
    (unfolds : (program.compensateScopes target).Unfolds program records result?) :
    (records = [] ∧ result? = none) ∨
      ∃ (plan : List CompensationStep) (rest : List Record),
        records = .performed (.plan program.definition target) plan :: rest ∧
          program.Carries (plan.map CompensationStep.station) rest result? := by
  cases unfolds with
  | rest => exact .inl ⟨rfl, rfl⟩
  | @act _ _ plan rest _ carried => exact .inr ⟨plan, rest, rfl, carries_runPlan plan carried⟩

/-- What is done to undo a process: a plan is read and carried out, and then the handler of the process
is executed. -/
theorem carries_compensateProcess
    (unfolds : program.compensateProcess.Unfolds program records result?) :
    (records = [] ∧ result? = none) ∨
      ∃ (plan : List CompensationStep) (rest : List Record),
        records = .performed (.plan program.definition none) plan :: rest ∧
          program.Carries (program.stations plan) rest result? := by
  cases unfolds with
  | rest => exact .inl ⟨rfl, rfl⟩
  | @act _ _ plan rest _ carried =>
      refine .inr ⟨plan, rest, rfl, carries_andThen (fun {records result?} unfolds => ?_) plan carried⟩
      cases declared : program.definition.compensationHandler with
      | none =>
          rw [declared] at unfolds
          exact carries_completed unfolds
      | some id =>
          rw [declared] at unfolds
          exact carries_cons (fun ends => .inr ⟨_, rfl, carries_completed ends⟩) unfolds

end Program

end Orchestration
