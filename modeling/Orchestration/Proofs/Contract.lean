import Orchestration.Execution.Program

/-!
# Contracts of tasks

A contract says which activities a task may call, and what the task may take for granted: the replies to
its actions and the results of its calls. `Task.Obeys` is that a task keeps to a contract wherever its
replies lead. With it come the habits that all tasks of activities share, whatever the contract: a
checkpoint that finds the instance halting ends the task, no branch has a checkpoint of its own, and only
a plan that was read puts scopes on the agenda.
-/

namespace Orchestration

/-- The scope that a call undoes. -/
def Role.scope? : Role → Option String
  | .part => none
  | .undoing scopeId => some scopeId

/-- The actions that a task may perform anywhere: not the checkpoint, which ends a task that finds the
instance halting, and not the marks of an execution, which are the thread's. -/
def Action.isOrdinary : Action → Bool
  | .start _ => false
  | .close _ _ => false
  | .checkHalting => false
  | _ => true

/-- The scopes that a reply lists as to be undone. -/
def Action.listed : (action : Action) → action.Reply → List String
  | .plan _ _, steps => List.map CompensationStep.scopeId steps
  | _, _ => []

/-- How an action ends, by its reply. -/
def Action.result : (action : Action) → action.Reply → Result
  | .checkHalting, (halting : Bool) => if halting then .ok .halted else .ok .completed
  | .exit _, _ => .ok .halted
  | .test _, (reply : Except ActivityError Bool) => reply.map fun _ => .completed
  | .measure _, (reply : Except ActivityError Int) => reply.map fun _ => .completed
  | .write .., (reply : Except ActivityError Unit) => reply.map fun _ => .completed
  | .assign _, (reply : Except ActivityError Unit) => reply.map fun _ => .completed
  | .invoke _, (reply : Except ActivityError Unit) => reply.map fun _ => .completed
  | .receive _, (reply : Except ActivityError Unit) => reply.map fun _ => .completed
  | .catchFault .., (reply : Except ActivityError Unit) => reply.map fun _ => .completed
  | _, _ => .ok .completed

/-- The scopes that a task is going to undo: what is left of the plan that it carries out. A task that
carries out no plan has none. -/
def Task.agenda : Task → List String
  | .act (.announce _) next => (next ()).agenda
  | .act (.markCompensated _) next => (next ()).agenda
  | .call _ role next => role.scope?.toList ++ (next (.ok .completed)).agenda
  | _ => []

/-- What is asked of a task, and what it may take for granted. -/
structure Contract where
  /-- The activities that may be called, and what for. -/
  calls : Activity → Role → Prop
  /-- What an action may reply. -/
  replies : (action : Action) → action.Reply → Prop
  /-- What an execution may end with. -/
  returns : Result → Prop

/-- That a task keeps to a contract. The flag tells whether it is the inside of an execution: only there
may it ask whether to go on. -/
inductive Task.Obeys (contract : Contract) : Bool → Task → Prop where
  | done {inside : Bool} {result : Result} (allowed : contract.returns result) :
      Obeys contract inside (.done result)
  | check {next : Bool → Task} (stops : next true = .halted)
      (halts : contract.replies .checkHalting true → contract.returns (.ok .halted))
      (fresh : (next false).agenda = [])
      (continues : contract.replies .checkHalting false → Obeys contract true (next false)) :
      Obeys contract true (.act .checkHalting next)
  | act {inside : Bool} {action : Action} {next : action.Reply → Task}
      (ordinary : action.isOrdinary = true)
      (shrinks : ∀ reply,
        (next reply).agenda ⊆ (Task.act action next).agenda ++ action.listed reply)
      (continues : ∀ reply, contract.replies action reply → Obeys contract inside (next reply)) :
      Obeys contract inside (.act action next)
  | call {inside : Bool} {activity : Activity} {role : Role} {next : Result → Task}
      (allowed : contract.calls activity role)
      (marks : ∀ scopeId outcome, role = .undoing scopeId →
        ∃ following, next (.ok outcome) = .act (.markCompensated scopeId) following)
      (shrinks : ∀ result, (next result).agenda ⊆ (next (.ok .completed)).agenda)
      (continues : ∀ result, contract.returns result → Obeys contract inside (next result)) :
      Obeys contract inside (.call activity role next)
  | wait {inside : Bool} {duration : Duration} {next : Task} (fresh : next.agenda = [])
      (continues : Obeys contract inside next) : Obeys contract inside (.wait duration next)
  | fork {inside : Bool} {branches : List Task} {join : List Result → Task}
      (freshBranches : ∀ branch ∈ branches, branch.agenda = [])
      (begins : ∀ branch ∈ branches, Obeys contract false branch)
      (freshJoin : ∀ results, (join results).agenda = [])
      (continues : ∀ results, (∀ result ∈ results, contract.returns result) →
        Obeys contract inside (join results)) :
      Obeys contract inside (.fork branches join)

namespace Task

variable {contract : Contract} {inside : Bool}

/-- What follows a task without a plan of its own adds nothing to the agenda. -/
theorem agenda_bind {next : Result → Task} (fresh : ∀ result, (next result).agenda = [])
    (task : Task) : (task.bind next).agenda = task.agenda := by
  induction task using Task.rec (motive_2 := fun _ => True) with
  | done result => simpa [agenda] using fresh result
  | act action continuation inductionHypothesis =>
      cases action <;> first | rfl | exact inductionHypothesis ()
  | call activity role continuation inductionHypothesis =>
      simp only [bind, agenda, inductionHypothesis]
  | wait => rfl
  | fork => rfl
  | nil => trivial
  | cons => trivial

/-- Two tasks that keep to a contract keep to it one after the other, if the second stops where a
checkpoint of the first did. -/
theorem Obeys.bind {task : Task} {next : Result → Task} (obeys : task.Obeys contract inside)
    (stops : inside = true → next (.ok .halted) = .halted)
    (fresh : ∀ result, (next result).agenda = [])
    (continues : ∀ result, contract.returns result → (next result).Obeys contract inside) :
    (task.bind next).Obeys contract inside := by
  induction obeys with
  | done allowed => exact continues _ allowed
  | @check continuation stopped halts freshThen _ inductionHypothesis =>
      refine .check ?_ halts ?_ fun reply => inductionHypothesis reply stops continues
      · rw [stopped]
        exact stops rfl
      · rw [agenda_bind fresh, freshThen]
  | @act inside action continuation ordinary shrinks _ inductionHypothesis =>
      refine .act ordinary (fun reply => ?_) fun reply allowed =>
        inductionHypothesis reply allowed stops continues
      have unchanged := agenda_bind fresh (.act action continuation)
      simp only [Task.bind] at unchanged
      rw [agenda_bind fresh, unchanged]
      exact shrinks reply
  | @call inside activity role continuation allowed marks shrinks _ inductionHypothesis =>
      refine .call allowed (fun scopeId outcome undoing => ?_) (fun result => ?_)
        fun result returned => inductionHypothesis result returned stops continues
      · obtain ⟨following, marked⟩ := marks scopeId outcome undoing
        exact ⟨_, by rw [marked]; rfl⟩
      · rw [agenda_bind fresh, agenda_bind fresh]
        exact shrinks result
  | wait freshThen _ inductionHypothesis =>
      refine .wait ?_ (inductionHypothesis stops continues)
      rw [agenda_bind fresh, freshThen]
  | fork freshBranches begins freshJoin _ _ inductionHypothesis =>
      refine .fork freshBranches begins (fun results => ?_) fun results returned =>
        inductionHypothesis results returned stops continues
      rw [agenda_bind fresh, freshJoin results]

/-- A task that is done returns what the contract allows. -/
theorem Obeys.returned {result : Result} (obeys : (Task.done result).Obeys contract inside) :
    contract.returns result := by
  cases obeys with
  | done allowed => exact allowed

/-- A task that waits carries out no plan after that. -/
theorem Obeys.waited {duration : Duration} {next : Task}
    (obeys : (Task.wait duration next).Obeys contract inside) :
    next.agenda = [] ∧ next.Obeys contract inside := by
  cases obeys with
  | wait fresh continues => exact ⟨fresh, continues⟩

/-- A task that forks has branches that keep to the contract, and keeps to it when they do. -/
theorem Obeys.forked {branches : List Task} {join : List Result → Task}
    (obeys : (Task.fork branches join).Obeys contract inside) :
    (∀ branch ∈ branches, branch.agenda = [] ∧ branch.Obeys contract false) ∧
      ∀ results, (join results).agenda = [] ∧
        ((∀ result ∈ results, contract.returns result) →
          (join results).Obeys contract inside) := by
  cases obeys with
  | fork freshBranches begins freshJoin continues =>
      exact ⟨fun branch present => ⟨freshBranches branch present, begins branch present⟩,
        fun results => ⟨freshJoin results, continues results⟩⟩

/-- A task that keeps to a contract keeps to it after every expected reply. -/
theorem Obeys.reply {action : Action} {next : action.Reply → Task} {reply : action.Reply}
    (obeys : (Task.act action next).Obeys contract inside)
    (expected : contract.replies action reply) : (next reply).Obeys contract inside := by
  cases obeys with
  | check stops halts _ continues =>
      change Bool at reply
      cases reply with
      | true =>
          rw [stops]
          exact .done (halts expected)
      | false => exact continues expected
  | act _ _ continues => exact continues reply expected

/-- A reply puts nothing on the agenda but what it lists. -/
theorem Obeys.agenda_reply {action : Action} {next : action.Reply → Task}
    (obeys : (Task.act action next).Obeys contract inside) (reply : action.Reply) :
    (next reply).agenda ⊆ (Task.act action next).agenda ++ action.listed reply := by
  cases obeys with
  | check stops _ fresh _ =>
      change Bool at reply
      cases reply with
      | true =>
          rw [stops]
          exact List.nil_subset _
      | false =>
          rw [fresh]
          exact List.nil_subset _
  | act _ shrinks _ => exact shrinks reply

/-- A task that keeps to a contract and carries out no plan yet. -/
structure Fresh (contract : Contract) (inside : Bool) (task : Task) : Prop where
  obeys : task.Obeys contract inside
  agenda : task.agenda = []

namespace Fresh

/-- A task that is done from the beginning carries out no plan. -/
theorem done {result : Result} (allowed : contract.returns result) :
    (Task.done result).Fresh contract inside :=
  ⟨.done allowed, rfl⟩

/-- A task goes on after an action that lists nothing. -/
theorem act {action : Action} {next : action.Reply → Task} (ordinary : action.isOrdinary = true)
    (silent : (Task.act action next).agenda = [])
    (fresh : ∀ reply, (next reply).agenda = [])
    (continues : ∀ reply, contract.replies action reply → (next reply).Obeys contract inside) :
    (Task.act action next).Fresh contract inside := by
  refine ⟨.act ordinary (fun reply => ?_) continues, silent⟩
  rw [fresh reply]
  exact List.nil_subset _

/-- A task goes on after an event. -/
theorem announce {event : Event} {next : Task} (fresh : next.Fresh contract inside) :
    (Task.announce event next).Fresh contract inside :=
  act rfl fresh.agenda (fun _ => fresh.agenda) fun _ _ => fresh.obeys

/-- A part of an activity is called, and the task goes on with its result. -/
theorem call {activity : Activity} {next : Result → Task} (allowed : contract.calls activity .part)
    (fresh : ∀ result, (next result).agenda = [])
    (continues : ∀ result, contract.returns result → (next result).Obeys contract inside) :
    (Task.call activity .part next).Fresh contract inside := by
  refine ⟨.call allowed (by simp) (fun result => ?_) continues, fresh _⟩
  rw [fresh result]
  exact List.nil_subset _

/-- A part of an activity is called, and the task ends as it does. -/
theorem callOnly {activity : Activity} (allowed : contract.calls activity .part) :
    (Task.call activity .part .done).Fresh contract inside :=
  call allowed (fun _ => rfl) fun _ returned => .done returned

/-- A task that begins with a wait carries out no plan. -/
theorem wait {duration : Duration} {next : Task} (fresh : next.Fresh contract inside) :
    (Task.wait duration next).Fresh contract inside :=
  ⟨.wait fresh.agenda fresh.obeys, rfl⟩

/-- Fresh branches are forked, and their results are merged. -/
theorem fork {branches : List Task} {join : List Result → Task}
    (begins : ∀ branch ∈ branches, branch.Fresh contract false)
    (fresh : ∀ results, (join results).agenda = [])
    (continues : ∀ results, (∀ result ∈ results, contract.returns result) →
      (join results).Obeys contract inside) :
    (Task.fork branches join).Fresh contract inside :=
  ⟨.fork (fun branch present => (begins branch present).agenda)
    (fun branch present => (begins branch present).obeys) fresh continues, rfl⟩

/-- Tasks one after another keep to the contract when both do, inside an execution only if a halt is passed on.
-/
theorem bind {task : Task} {next : Result → Task} (fresh : task.Fresh contract inside)
    (stops : inside = true → next (.ok .halted) = .halted)
    (freshNext : ∀ result, (next result).agenda = [])
    (continues : ∀ result, contract.returns result → (next result).Obeys contract inside) :
    (task.bind next).Fresh contract inside :=
  ⟨fresh.obeys.bind stops freshNext continues, by rw [agenda_bind freshNext, fresh.agenda]⟩

end Fresh

end Task

end Orchestration
