import Mathlib.Logic.Relation
import Orchestration.Proofs.Marks
import Orchestration.Proofs.Nesting
import Orchestration.Proofs.Stations

/-!
# Handlers that undo nothing themselves

A compensation handler is an activity like any other. It may undo scopes itself, end the instance, or
run a scope that would have to be undone in turn, and then one compensation gets in the way of another.
Where no handler leads to any of that, the compensation of a process does what its steps say: only the
process carries out a plan, and it carries out one; scopes are marked by that plan alone; and a handler
that ends without a failure has completed, as long as no checkpoint found the instance halting.
-/

namespace Orchestration

namespace Definition

variable {definition : Definition}

/-- That an id is that of a compensation handler: the one of the process, or one of a scope. -/
inductive IsHandler (definition : Definition) (id : String) : Prop where
  | process (declared : definition.compensationHandler = some id) : IsHandler definition id
  | scope {scopeId : String} {scope : Activity}
      (found : definition.activity? scopeId = some scope) (isScope : scope.kind = .scope)
      (declared : scope.compensationHandler = some id) : IsHandler definition id

/-- That a compensation handler leads to an id through references, or has it. -/
def UnderHandler (definition : Definition) (id : String) : Prop :=
  ∃ handlerId, definition.IsHandler handlerId ∧
    Relation.ReflTransGen definition.Refers handlerId id

/-- That no compensation handler leads to an activity that undoes scopes or ends the instance, or to a
scope that has a handler to undo it. -/
def UndoesPlainly (definition : Definition) : Prop :=
  ∀ id activity, definition.UnderHandler id → definition.activity? id = some activity →
    activity.kind ≠ .compensate ∧ activity.kind ≠ .compensateScope ∧ activity.kind ≠ .exit ∧
      ¬ activity.Owns

/-- That every step of a plan has a compensation handler. -/
def PlansHandlers (definition : Definition) (steps : List CompensationStep) : Prop :=
  ∀ step ∈ steps, definition.IsHandler step.handlerId

/-- A compensation handler leads to itself. -/
theorem IsHandler.under {id : String} (isHandler : definition.IsHandler id) :
    definition.UnderHandler id :=
  ⟨id, isHandler, .refl⟩

/-- What a handler leads to leads on to all that it refers to. -/
theorem UnderHandler.mentioned {id target : String} {activity : Activity}
    (under : definition.UnderHandler id) (found : definition.activity? id = some activity)
    (mentioned : activity.Mentions target) : definition.UnderHandler target := by
  obtain ⟨handlerId, isHandler, path⟩ := under
  exact ⟨handlerId, isHandler, path.tail ⟨activity, found, mentioned⟩⟩

end Definition

namespace Contract

/-- That only what compensation handlers lead to is executed. A task may take for granted that plans
have such handlers. -/
def fromHandlers (definition : Definition) : Contract where
  calls activity _ := ∃ id, definition.UnderHandler id ∧ definition.activity? id = some activity
  replies action reply :=
    match action, reply with
    | .plan read _, steps => read = definition → definition.PlansHandlers steps
    | _, _ => True
  returns _ := True

/-- The contract grants what tasks need, and lets them fail with anything. -/
theorem fromHandlers_admits (program : Program) :
    (fromHandlers program.definition).Admits program where
  completed := trivial
  failed _ := trivial
  stopped _ := trivial
  exited _ _ := trivial
  undoing _ _ planned step present _ found :=
    ⟨step.handlerId, (planned rfl step present).under, found⟩

/-- What a handler leads to executes nothing else. -/
theorem fromHandlers_body {program : Program} {activity : Activity} {role : Role}
    (allowed : (fromHandlers program.definition).calls activity role) :
    (program.body activity).Obeys (fromHandlers program.definition) true := by
  obtain ⟨id, under, found⟩ := allowed
  refine (program.fresh_body (fromHandlers_admits program) activity ?_).obeys
  intro target mentioned callee isCallee
  exact ⟨target, under.mentioned found mentioned, isCallee⟩

/-- The compensation of a process executes only what handlers lead to. -/
theorem fromHandlers_compensateProcess (program : Program) :
    program.compensateProcess.Obeys (fromHandlers program.definition) false := by
  refine (program.fresh_compensateProcess (fromHandlers_admits program) ?_).obeys
  intro id declared callee found
  exact ⟨id, (Definition.IsHandler.process declared).under, found⟩

end Contract

namespace Record

/-- What was done somewhere was done at some level. -/
theorem Among.level {record : Record} {records : List Record} (among : record.Among records)
    (result? : Option Result) :
    ∃ owner inner inner?, Level records result? owner inner inner? ∧ record ∈ inner := by
  induction among generalizing result? with
  | here present => exact ⟨.whole, _, result?, .whole, present⟩
  | inside present _ inductionHypothesis =>
      obtain ⟨owner, inner, inner?, level, isInner⟩ := inductionHypothesis _
      exact ⟨_, inner, inner?, (Level.inside .whole present).nest level, isInner⟩
  | aside forked present _ inductionHypothesis =>
      obtain ⟨owner, inner, inner?, level, isInner⟩ := inductionHypothesis _
      exact ⟨_, inner, inner?, (Level.aside .whole forked present).nest level, isInner⟩

/-- What is cut short has a checkpoint that found the instance halting, or an exit. -/
theorem Stops.exists_among {records : List Record} (stops : Stops records) :
    (performed .checkHalting true).Among records ∨ ∃ id, (performed (.exit id) ()).Among records := by
  induction stops with
  | check => exact .inl (.here List.mem_concat_self)
  | exit => exact .inr ⟨_, .here List.mem_concat_self⟩
  | part _ inductionHypothesis =>
      rcases inductionHypothesis with checked | ⟨id, exited⟩
      · exact .inl (.inside List.mem_concat_self checked)
      · exact .inr ⟨id, .inside List.mem_concat_self exited⟩
  | side present _ _ inductionHypothesis =>
      rcases inductionHypothesis with checked | ⟨id, exited⟩
      · exact .inl (.aside List.mem_concat_self present checked)
      · exact .inr ⟨id, .aside List.mem_concat_self present exited⟩
  | @recovery before within handler fault recovery ended? _ inductionHypothesis =>
      have isLast : executed recovery .part within ended? ∈
          before ++ [.performed (.catchFault handler fault) (.ok ()),
            .executed recovery .part within ended?, .performed .clearFault ()] := by
        simp
      rcases inductionHypothesis with checked | ⟨id, exited⟩
      · exact .inl (.inside isLast checked)
      · exact .inr ⟨id, .inside isLast exited⟩

end Record

/-- The actions of activities that undo scopes or end the instance. -/
def Action.isDrastic : Action → Bool
  | .plan .. => true
  | .markCompensated _ => true
  | .exit _ => true
  | _ => false

namespace ActivityKind

variable {kind : ActivityKind} {action : Action}

/-- Only a few kinds of activities perform drastic actions. -/
theorem of_isDrastic (drastic : action.isDrastic = true) (performs : kind.performs action = true) :
    kind = .compensate ∨ kind = .compensateScope ∨ kind = .exit := by
  cases action with
  | plan => cases kind <;> simp_all [ActivityKind.performs, Action.isPlain]
  | markCompensated => cases kind <;> simp_all [ActivityKind.performs, Action.isPlain]
  | exit => cases kind <;> simp_all [ActivityKind.performs, Action.isPlain]
  | _ => cases drastic

/-- The marks that an execution begins and ends with are made by the thread, and by no activity. -/
theorem isOrdinary_of_performs (performs : kind.performs action = true) :
    action.isOrdinary = true ∨ action = .checkHalting := by
  cases action with
  | start => cases kind <;> cases performs
  | close => cases kind <;> cases performs
  | checkHalting => exact .inr rfl
  | _ => exact .inl rfl

end ActivityKind

/-- What may be performed at a level, activities of some kind perform. -/
theorem Record.Owner.exists_performs {owner : Owner} {action : Action}
    (permitted : owner.permits action = true) :
    ∃ kind : ActivityKind, kind.performs action = true := by
  cases owner with
  | whole =>
      rcases Bool.or_eq_true_iff.mp permitted with scope | compensate
      · exact ⟨.scope, scope⟩
      · exact ⟨.compensate, compensate⟩
  | execution activity role => exact ⟨activity.kind, permitted⟩
  | side =>
      have plainly : action.isPlain = true := permitted
      exact ⟨.empty, by simp [ActivityKind.performs, plainly]⟩

namespace Program

/-- What has been done of the compensation of a process in which handlers undo nothing themselves. -/
structure PlainlyUndone (program : Program) (records : List Record) (result? : Option Result) :
    Prop where
  plain : program.definition.UndoesPlainly
  unfolds : program.compensateProcess.Unfolds program records result?
  executes : (Contract.fromHandlers program.definition).Allows records

namespace PlainlyUndone

variable {program : Program} {records inner within : List Record}
  {result? inner? ended? : Option Result} {owner : Record.Owner} {activity : Activity} {role : Role}
  {action : Action} {reply : action.Reply}

/-- At every level of the compensation, what was done is what its owner does. -/
theorem does (undone : program.PlainlyUndone records result?)
    (level : Record.Level records result? owner inner inner?) :
    owner.Does program program.compensateProcess inner inner? :=
  level.does .compensation undone.unfolds

/-- What is executed is something that a compensation handler leads to. -/
theorem found (undone : program.PlainlyUndone records result?)
    (among : (Record.executed activity role within ended?).Among records) :
    ∃ id, program.definition.UnderHandler id ∧ program.definition.activity? id = some activity :=
  undone.executes activity role within ended? among

/-- No scope that has a handler is executed. -/
theorem ne_of_owns {scopeId : String} {scope : Activity}
    (undone : program.PlainlyUndone records result?)
    (among : (Record.executed activity role within ended?).Among records)
    (isScope : program.definition.activity? scopeId = some scope) (owns : scope.Owns) :
    activity.id ≠ scopeId := by
  rintro rfl
  obtain ⟨id, under, found⟩ := undone.found among
  rw [Definition.id_of_activity? found, found] at isScope
  cases isScope
  exact (undone.plain id activity under found).2.2.2 owns

/-- Drastic actions are performed outside of executions only. -/
theorem whole_of_isDrastic (undone : program.PlainlyUndone records result?)
    (drastic : action.isDrastic = true) (level : Record.Level records result? owner inner inner?)
    (present : .performed action reply ∈ inner) : owner = .whole := by
  have permitted := (undone.does level).permits .compensation present
  cases owner with
  | whole => rfl
  | execution activity role =>
      obtain ⟨id, under, found⟩ := undone.found level.among_of_execution
      obtain ⟨noCompensate, noCompensateScope, noExit, _⟩ := undone.plain id activity under found
      rcases ActivityKind.of_isDrastic drastic permitted with kind | kind | kind
      · exact absurd kind noCompensate
      · exact absurd kind noCompensateScope
      · exact absurd kind noExit
  | side =>
      have plainly : action.isPlain = true := permitted
      have performs : ActivityKind.empty.performs action = true := by
        simp [ActivityKind.performs, plainly]
      rcases ActivityKind.of_isDrastic drastic performs with impossible | impossible | impossible <;>
        cases impossible

/-- What is drastic is done at the top. -/
theorem mem_of_isDrastic (undone : program.PlainlyUndone records result?)
    (drastic : action.isDrastic = true) (among : (Record.performed action reply).Among records) :
    .performed action reply ∈ records := by
  obtain ⟨owner, inner, inner?, level, present⟩ := among.level result?
  obtain rfl := undone.whole_of_isDrastic drastic level present
  cases level with
  | whole => exact present

/-- The instance is not ended by an exit. -/
theorem not_exits (undone : program.PlainlyUndone records result?) (id : String) :
    ¬ (Record.performed (.exit id) ()).Among records := by
  intro among
  have present := undone.mem_of_isDrastic rfl among
  have permitted := (undone.does .whole).permits .compensation present
  cases permitted

/-- One plan is read, before anything else is done. -/
theorem of_plan {definition : Definition} {target : Option String} {steps : List CompensationStep}
    (undone : program.PlainlyUndone records result?)
    (among : (Record.performed (.plan definition target) steps).Among records) :
    definition = program.definition ∧ target = none ∧
      ∃ rest, records = .performed (.plan definition target) steps :: rest ∧
        program.Carries (program.stations steps) rest result? := by
  have present := undone.mem_of_isDrastic rfl among
  rcases carries_compensateProcess undone.unfolds with ⟨rfl, _⟩ | ⟨plan, rest, rfl, carries⟩
  · cases present
  · rcases List.mem_cons.mp present with isFirst | inRest
    · cases isFirst
      exact ⟨rfl, rfl, rest, rfl, carries⟩
    · rcases carries.isCarrying _ inRest with ⟨_, impossible⟩ | ⟨_, impossible⟩
      · cases impossible
      · cases impossible

/-- A handler that did not fail has completed, unless a checkpoint found the instance halting. -/
theorem completed (undone : program.PlainlyUndone records result?) {outcome : Outcome}
    (present : .executed activity role within (some (.ok outcome)) ∈ records)
    (going : ¬ (Record.performed .checkHalting true).Among records) : outcome = .completed := by
  cases outcome with
  | completed => rfl
  | halted =>
      have inside := undone.does (.inside .whole present)
      rcases (inside.stops_of_halted .compensation (by nofun)).exists_among with checked | ⟨id, exited⟩
      · exact absurd (.inside present checked) going
      · exact absurd (.inside present exited) (undone.not_exits id)

end PlainlyUndone

end Program

/-- The scopes of a plan that is read have the handlers of their steps. -/
theorem Move.Acts.expected_fromHandlers {definition : Definition} {scene nextScene : Scene}
    {move : Move} (acts : move.Acts scene nextScene) :
    move.Expected (.fromHandlers definition) := by
  cases move with
  | performed action reply =>
      cases action with
      | plan read target =>
          obtain ⟨_, rfl⟩ := Prod.mk.inj acts
          rintro rfl step planned
          obtain ⟨scope, found, isScope, declared⟩ := Instance.owns_of_mem_compensationPlan planned
          exact .scope found isScope declared
      | _ => trivial
  | _ => trivial

/-- A run of a compensation in which handlers undo nothing themselves has done so much of it. -/
theorem Run.Recorded.plainlyUndone {moves : List Move} {run : Run} {task : Task}
    {records : List Record} (recorded : run.Recorded moves task records)
    (compensates : run.purpose = .compensation) (plain : run.program.definition.UndoesPlainly)
    (acted : ∀ move ∈ moves, ∃ scene nextScene, move.Acts scene nextScene) :
    run.program.PlainlyUndone records run.thread.result? := by
  have serves := recorded.serves
  rw [compensates] at serves
  cases serves
  have expects : (Contract.fromHandlers run.program.definition).Expects records :=
    recorded.expects fun move present => by
      obtain ⟨_, _, acts⟩ := acted move present
      exact acts.expected_fromHandlers
  exact ⟨plain, recorded.unfolds, (recorded.unfolds.allows (fun _ _ => Contract.fromHandlers_body)
    (Contract.fromHandlers_compensateProcess run.program) expects).1⟩

/-- Only an exit changes the status of the instance. -/
theorem Action.status_of_ne_exit (subject : Instance) {action : Action}
    (stays : ∀ id, action ≠ .exit id) : (action.perform subject).subject.status = subject.status := by
  rcases action.perform_cases subject with ⟨activity, rfl⟩ | ⟨activity, result, rfl⟩ | ⟨id, rfl⟩ |
    ⟨id, rfl⟩ | ⟨bag, fault, unchanged⟩
  · rfl
  · rfl
  · exact absurd rfl (stays id)
  · rfl
  · rw [unchanged]

namespace Program.PlainlyUndone

variable {program : Program} {path : List (List Record)} {records later : List Record}
  {result? : Option Result} {move : Move} {scene nextScene : Scene}

/-- What a move performs it may perform where it does, and that is no exit. -/
theorem permitted_of_grows {action : Action} {reply : action.Reply}
    (undone : program.PlainlyUndone later result?)
    (grows : Record.Grows path records (.performed action reply) later) :
    (action.isOrdinary = true ∨ action = .checkHalting) ∧ ∀ id, action ≠ .exit id := by
  obtain ⟨before, owner, ended?, _, level⟩ := grows.level result?
  have permitted := (undone.does level).permits .compensation List.mem_concat_self
  obtain ⟨kind, performs⟩ := Record.Owner.exists_performs permitted
  refine ⟨ActivityKind.isOrdinary_of_performs performs, ?_⟩
  rintro id rfl
  exact undone.not_exits id (level.among (.here List.mem_concat_self))

/-- The plan is read first. -/
theorem records_of_plan {definition : Definition} {target : Option String}
    {steps : List CompensationStep} (undone : program.PlainlyUndone later result?)
    (grows : Record.Grows path records (.performed (.plan definition target) steps) later) :
    records = [] := by
  obtain ⟨before, owner, ended?, _, level⟩ := grows.level result?
  have isWhole := undone.whole_of_isDrastic rfl level
    List.mem_concat_self
  obtain ⟨_, _, rest, isFirst, carries⟩ := undone.of_plan (level.among (.here List.mem_concat_self))
  subst isWhole
  cases level with
  | whole =>
      cases before with
      | nil => exact grows.of_performed nofun
      | cons first before =>
          -- What comes after the first plan is no plan.
          obtain ⟨rfl, rfl⟩ := List.cons.inj isFirst
          rcases carries.isCarrying _ List.mem_concat_self with ⟨_, impossible⟩ | ⟨_, impossible⟩
          · cases impossible
          · cases impossible

/-- Moves leave the status of the instance. -/
theorem status_eq (undone : program.PlainlyUndone later result?)
    (grows : Record.Grows path records move later) (acts : move.Acts scene nextScene) :
    nextScene.subject.status = scene.subject.status := by
  cases move with
  | performed action reply =>
      obtain ⟨rfl, _⟩ := Prod.mk.inj acts
      exact Action.status_of_ne_exit scene.subject (undone.permitted_of_grows grows).2
  | entered call =>
      cases acts
      rfl
  | left call result =>
      cases acts
      rfl
  | silent =>
      cases acts
      rfl

/-- An execution is none of a scope that has a handler, so its marks leave that alone. -/
theorem activityStatus?_of_call {call : Call} {scopeId : String} {subject : Instance}
    (undone : program.PlainlyUndone later result?)
    (grows : Record.Grows path records move later)
    (isCall : move = .entered call ∨ ∃ result, move = .left call result)
    (owned : program.definition.Owned scopeId) (status : ActivityStatus) :
    (subject.setActivityStatus call.activity.id status).activityStatus? scopeId =
      subject.activityStatus? scopeId := by
  obtain ⟨within, ended?, among⟩ := grows.among_executed isCall
  obtain ⟨scope, isScope, owns⟩ := owned
  have different := undone.ne_of_owns among isScope owns
  rw [Instance.activityStatus?_setActivityStatus, if_neg different]

/-- Moves leave the status of a scope that has a handler, unless they mark it. -/
theorem activityStatus?_eq {scopeId : String} (undone : program.PlainlyUndone later result?)
    (grows : Record.Grows path records move later) (acts : move.Acts scene nextScene)
    (owned : program.definition.Owned scopeId)
    (other : move ≠ .performed (.markCompensated scopeId) ()) :
    nextScene.subject.activityStatus? scopeId = scene.subject.activityStatus? scopeId := by
  cases move with
  | performed action reply =>
      obtain ⟨rfl, _⟩ := Prod.mk.inj acts
      by_cases marks : ∃ id, action = .markCompensated id
      · obtain ⟨id, rfl⟩ := marks
        have different : id ≠ scopeId := by
          rintro rfl
          exact other rfl
        have placed := Instance.activityStatus?_setActivityStatus id scopeId .compensated scene.subject
        exact placed.trans (if_neg different)
      · have unmarked : ∀ id, action ≠ .markCompensated id := fun id isMark => marks ⟨id, isMark⟩
        have statuses := Action.activityStatuses_perform scene.subject
          (undone.permitted_of_grows grows).1 unmarked
        simp only [Instance.activityStatus?, statuses]
  | entered call =>
      cases acts
      exact undone.activityStatus?_of_call grows (.inl rfl) owned _
  | left call result =>
      cases acts
      exact undone.activityStatus?_of_call grows (.inr ⟨_, rfl⟩) owned _
  | silent =>
      cases acts
      rfl

end Program.PlainlyUndone

end Orchestration
