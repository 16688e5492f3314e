import Orchestration.Definition.Reference
import Orchestration.Proofs.Contract

/-!
# The tasks of activities keep to contracts

A contract that closes under what every kind of activity does is kept by the tasks of all activities, of
whole processes and of their compensation. The only activities that they call are those that they refer
to and the handlers of the plans that they read.
-/

namespace Orchestration

/-- What a contract has to grant for the tasks of a program to keep to it. -/
structure Contract.Supports (contract : Contract) (program : Program) : Prop where
  completed : contract.returns (.ok .completed)
  /-- A task may fail with anything but that an activity is missing. -/
  failed : ∀ error, (∀ missing, error ≠ .childNotFound missing) → contract.returns (.error error)
  /-- A task may fail as its actions do. -/
  replied : ∀ (action : Action) (reply : action.Reply) (error : ActivityError),
    contract.replies action reply → action.result reply = .error error →
      contract.returns (.error error)
  stopped : contract.replies .checkHalting true → contract.returns (.ok .halted)
  exited : ∀ id, contract.replies (.exit id) () → contract.returns (.ok .halted)
  undoing : ∀ (target : Option String) (steps : List CompensationStep),
    contract.replies (.plan program.definition target) steps → ∀ step ∈ steps,
      (∀ handler, program.definition.activity? step.handlerId = some handler →
        contract.calls handler (.undoing step.scopeId)) ∧
      (program.definition.activity? step.handlerId = none →
        contract.returns (.error (.childNotFound step.handlerId)))

/-- That the activity under an id may be called as a part. -/
def Contract.Grants (contract : Contract) (program : Program) (id : String) : Prop :=
  ∀ callee, program.definition.activity? id = some callee → contract.calls callee .part

/-- That a task may look an id up: it may call the activity under it, or fail because there is none. -/
structure Contract.Covers (contract : Contract) (program : Program) (id : String) : Prop where
  grants : contract.Grants program id
  missing : program.definition.activity? id = none → contract.returns (.error (.childNotFound id))

/-- What a contract has to grant that lets tasks fail with anything. -/
structure Contract.Admits (contract : Contract) (program : Program) : Prop where
  completed : contract.returns (.ok .completed)
  failed : ∀ error, contract.returns (.error error)
  stopped : contract.replies .checkHalting true → contract.returns (.ok .halted)
  exited : ∀ id, contract.replies (.exit id) () → contract.returns (.ok .halted)
  undoing : ∀ (target : Option String) (steps : List CompensationStep),
    contract.replies (.plan program.definition target) steps → ∀ step ∈ steps,
      ∀ handler, program.definition.activity? step.handlerId = some handler →
        contract.calls handler (.undoing step.scopeId)

namespace Contract.Admits

variable {contract : Contract} {program : Program}

/-- A contract that lets tasks fail with anything grants what tasks need. -/
theorem supports (admits : contract.Admits program) : contract.Supports program where
  completed := admits.completed
  failed error _ := admits.failed error
  replied _ _ error _ _ := admits.failed error
  stopped := admits.stopped
  exited := admits.exited
  undoing target steps planned step present :=
    ⟨admits.undoing target steps planned step present, fun _ => admits.failed _⟩

/-- Where tasks may fail with anything, an id is covered as soon as its activity may be called. -/
theorem covers (admits : contract.Admits program) {id : String}
    (granted : contract.Grants program id) : contract.Covers program id :=
  ⟨granted, fun _ => admits.failed _⟩

end Contract.Admits

/-- That an activity has an id in one of its references. -/
def Activity.Mentions (activity : Activity) (id : String) : Prop :=
  ∃ reference ∈ activity.references, reference.2 = id

/-- The merge of results is one of them, unless it is that all completed. -/
theorem Result.merge_mem (results : List Result) :
    Result.merge results = .ok .completed ∨ Result.merge results ∈ results := by
  induction results with
  | nil => exact .inl rfl
  | cons result results inductionHypothesis =>
      rcases result with error | outcome
      · exact .inr (by simp [Result.merge])
      · cases outcome with
        | completed =>
            rcases inductionHypothesis with all | one
            · exact .inl all
            · exact .inr (List.mem_cons_of_mem _ one)
        | halted =>
            refine .inr ?_
            cases merged : Result.merge results with
            | ok outcome => simp [Result.merge, merged, Except.map]
            | error error =>
                have failed : Result.merge results ∈ results := by
                  rcases inductionHypothesis with all | one
                  · rw [merged] at all
                    cases all
                  · exact one
                rw [merged] at failed
                simpa [Result.merge, merged, Except.map] using failed

namespace Activity

variable {activity : Activity} {id : String}

/-- An activity mentions its children. -/
theorem mentions_child (child : id ∈ activity.children) : activity.Mentions id :=
  ⟨(.children, id), by simp [references, child], rfl⟩

/-- An activity mentions its alternative. -/
theorem mentions_elseActivity (alternative : activity.elseActivity = some id) :
    activity.Mentions id :=
  ⟨(.elseActivity, id), by simp [references, alternative], rfl⟩

/-- An activity mentions the handler that undoes it. -/
theorem mentions_compensationHandler (handled : activity.compensationHandler = some id) :
    activity.Mentions id :=
  ⟨(.compensationHandler, id), by simp [references, handled], rfl⟩

/-- An activity mentions its recoveries. -/
theorem mentions_faultHandler {handler : FaultHandler} (present : handler ∈ activity.faultHandlers) :
    activity.Mentions handler.activity := by
  refine ⟨(.faultHandlers, handler.activity), ?_, rfl⟩
  simp only [references, List.mem_append, List.mem_map]
  exact .inl (.inr ⟨handler, present, rfl⟩)

/-- An activity mentions the branches of its events. -/
theorem mentions_eventHandler {branch : EventHandler} (present : branch ∈ activity.eventHandlers) :
    activity.Mentions branch.activity := by
  refine ⟨(.eventHandlers, branch.activity), ?_, rfl⟩
  simp only [references, List.mem_append, List.mem_map]
  exact .inr ⟨branch, present, rfl⟩

end Activity

/-- The handler of a fault is one of the handlers. -/
theorem FaultHandler.mem_of_resolve? {handlers : List FaultHandler} {name : String}
    {handler : FaultHandler} (found : resolve? handlers name = some handler) :
    handler ∈ handlers := by
  simp only [resolve?, Option.or_eq_some_iff] at found
  rcases found with named | ⟨_, wildcard⟩
  · exact List.mem_of_find?_eq_some named
  · exact List.mem_of_find?_eq_some wildcard

/-- A failure that was put in other words. -/
theorem ActivityError.of_mapError {α ε : Type} {computed : Except ε α} {words : ε → ActivityError}
    {error : ActivityError} (failed : computed.mapError words = .error error) :
    ∃ reason, words reason = error := by
  cases computed with
  | ok value => cases failed
  | error reason => exact ⟨reason, Except.error.inj failed⟩

namespace Program

variable {contract : Contract} {program : Program} {inside : Bool}

/-- To complete at once keeps to every contract that supports the program. -/
theorem fresh_completed (supports : contract.Supports program) :
    Task.completed.Fresh contract inside :=
  .done supports.completed

/-- A task may fail with anything but that an activity is missing. -/
theorem fresh_failed (supports : contract.Supports program) (error : ActivityError)
    (other : ∀ missing, error ≠ .childNotFound missing) : (Task.failed error).Fresh contract inside :=
  .done (supports.failed error other)

/-- A task fails as the contract lets it, or goes on with a value. -/
theorem fresh_ofExcept {α : Type} {next : α → Task} (computed : Except ActivityError α)
    (fails : ∀ error, computed = .error error → contract.returns (.error error))
    (continues : ∀ value, computed = .ok value → (next value).Fresh contract inside) :
    (Task.ofExcept computed next).Fresh contract inside := by
  cases computed with
  | ok value => exact continues value rfl
  | error error => exact .done (fails error rfl)

/-- A task that fails or goes on carries out no plan, where what goes on carries out none. -/
theorem agenda_ofExcept {α : Type} {next : α → Task} (computed : Except ActivityError α)
    (fresh : ∀ value, (next value).agenda = []) : (Task.ofExcept computed next).agenda = [] := by
  cases computed with
  | ok value => exact fresh value
  | error error => rfl

/-- A task goes on with what an action computed. -/
theorem fresh_compute {α : Type} {next : α → Task} (supports : contract.Supports program)
    (action : Action) (computed : action.Reply → Except ActivityError α)
    (ordinary : action.isOrdinary = true)
    (silent : ∀ next, (Task.act action next).agenda = [])
    (ends : ∀ reply, action.result reply = (computed reply).map fun _ => .completed)
    (continues : ∀ value, (next value).Fresh contract inside) :
    (Task.act action fun reply => .ofExcept (computed reply) next).Fresh contract inside := by
  refine .act ordinary (silent _)
    (fun reply => agenda_ofExcept _ fun value => (continues value).agenda) fun reply replied => ?_
  have fresh : (Task.ofExcept (computed reply) next).Fresh contract inside := by
    refine fresh_ofExcept _ (fun error failed => ?_) fun value _ => continues value
    exact supports.replied action reply error replied (by rw [ends, failed]; rfl)
  exact fresh.obeys

/-- A task that looks an id up fails as the contract lets it, or goes on with the activity. -/
theorem fresh_lookup {id : String} {next : Activity → Task}
    (missing : program.definition.activity? id = none → contract.returns (.error (.childNotFound id)))
    (continues : ∀ activity, program.definition.activity? id = some activity →
      (next activity).Fresh contract inside) :
    (program.lookup id next).Fresh contract inside := by
  unfold lookup
  cases found : program.definition.activity? id with
  | none => exact .done (missing found)
  | some activity => exact continues activity found

/-- A task that looks an activity up and ends as it does. -/
theorem fresh_callById {id : String} (covered : contract.Covers program id) :
    (program.lookup id fun target => .call target .part .done).Fresh contract inside :=
  fresh_lookup covered.missing fun target found => .callOnly (covered.grants target found)

/-- Tasks in a row keep to a contract where each of them does. -/
theorem fresh_whenCompleted {task next : Task} (fresh : task.Fresh contract inside)
    (freshNext : next.Fresh contract inside) :
    (task.whenCompleted next).Fresh contract inside := by
  refine .bind fresh (fun _ => rfl) (fun result => ?_) fun result returned => ?_
  · rcases result with error | outcome
    · rfl
    · cases outcome with
      | completed => exact freshNext.agenda
      | halted => rfl
  · rcases result with error | outcome
    · exact .done returned
    · cases outcome with
      | completed => exact freshNext.obeys
      | halted => exact .done returned

/-- A sequence calls its children, and stops at a checkpoint. -/
theorem fresh_runSequence (supports : contract.Supports program) (children : List String)
    (covered : ∀ child ∈ children, contract.Covers program child) :
    (program.runSequence children).Fresh contract true := by
  induction children with
  | nil => exact fresh_completed supports
  | cons child children inductionHypothesis =>
      have rest : (program.lookup child fun activity =>
          (Task.call activity .part .done).whenCompleted (program.runSequence children)).Fresh
          contract true :=
        fresh_lookup (covered child (by simp)).missing fun activity found =>
          fresh_whenCompleted (.callOnly ((covered child (by simp)).grants activity found))
            (inductionHypothesis fun other present => covered other (by simp [present]))
      exact ⟨.check rfl supports.stopped rest.agenda fun _ => rest.obeys, rfl⟩

/-- The look-up of several ids gives the activity of each. -/
theorem lookupAll_eq_ok_iff {ids : List String} {branches : List Activity} :
    program.lookupAll ids = .ok branches ↔
      ids.map program.definition.activity? = branches.map some := by
  induction ids generalizing branches with
  | nil => cases branches <;> simp [lookupAll]
  | cons id ids inductionHypothesis =>
      cases branches with
      | nil =>
          cases present : program.definition.activity? id <;>
            cases rest : program.lookupAll ids <;> simp [lookupAll, present, rest, Except.map]
      | cons first others =>
          have further := @inductionHypothesis others
          cases present : program.definition.activity? id with
          | none => simp [lookupAll, present]
          | some activity =>
              cases rest : program.lookupAll ids <;>
                simp [lookupAll, present, ← further, rest, Except.map]

/-- The look-up of several ids fails for the first that has no activity. -/
theorem lookupAll_eq_error_iff {ids : List String} {error : ActivityError} :
    program.lookupAll ids = .error error ↔ ∃ before id after, ids = before ++ id :: after ∧
      (∀ earlier ∈ before, program.definition.activity? earlier ≠ none) ∧
        program.definition.activity? id = none ∧ error = .childNotFound id := by
  constructor
  · intro failed
    induction ids with
    | nil => cases failed
    | cons id ids inductionHypothesis =>
        cases present : program.definition.activity? id with
        | none =>
            simp only [lookupAll, present, Except.error.injEq] at failed
            exact ⟨[], id, ids, rfl, by simp, present, failed.symm⟩
        | some activity =>
            cases rest : program.lookupAll ids with
            | ok others => simp [lookupAll, present, rest, Except.map] at failed
            | error other =>
                simp only [lookupAll, present, rest, Except.map, Except.error.injEq] at failed
                obtain ⟨before, missing, after, rfl, resolved, absent, same⟩ :=
                  inductionHypothesis (failed ▸ rest)
                refine ⟨id :: before, missing, after, rfl, ?_, absent, same⟩
                exact List.forall_mem_cons.mpr ⟨by simp [present], resolved⟩
  · rintro ⟨before, id, after, rfl, resolved, absent, rfl⟩
    induction before with
    | nil => simp [lookupAll, absent]
    | cons first before inductionHypothesis =>
        obtain ⟨isFirst, others⟩ := List.forall_mem_cons.mp resolved
        obtain ⟨activity, present⟩ := Option.ne_none_iff_exists'.mp isFirst
        rw [List.cons_append, lookupAll, present]
        simp only [inductionHypothesis others, Except.map]

/-- Activities that were looked up are those under the ids. -/
theorem mem_of_lookupAll {ids : List String} {branches : List Activity}
    (found : program.lookupAll ids = .ok branches) :
    ∀ branch ∈ branches, ∃ id ∈ ids, program.definition.activity? id = some branch := by
  intro branch isBranch
  have isFound : some branch ∈ ids.map program.definition.activity? := by
    rw [lookupAll_eq_ok_iff.mp found]
    exact List.mem_map_of_mem isBranch
  exact List.mem_map.mp isFound

/-- Looking ids up fails only for one that has no activity. -/
theorem of_lookupAll_error {ids : List String} {error : ActivityError}
    (failed : program.lookupAll ids = .error error) :
    ∃ id ∈ ids, program.definition.activity? id = none ∧ error = .childNotFound id := by
  obtain ⟨before, id, after, rfl, _, absent, same⟩ := lookupAll_eq_error_iff.mp failed
  exact ⟨id, List.mem_append_cons_self, absent, same⟩

/-- Results that were allowed one by one are allowed together. -/
theorem obeys_merge (supports : contract.Supports program) {results : List Result}
    (returned : ∀ result ∈ results, contract.returns result) :
    (Task.done (Result.merge results)).Obeys contract inside := by
  rcases Result.merge_mem results with all | one
  · rw [all]
    exact .done supports.completed
  · exact .done (returned _ one)

/-- A flow calls its children. -/
theorem fresh_runFlow (supports : contract.Supports program) (children : List String)
    (covered : ∀ child ∈ children, contract.Covers program child) :
    (program.runFlow children).Fresh contract inside := by
  refine fresh_ofExcept _ (fun error failed => ?_) fun branches found => ?_
  · obtain ⟨id, isChild, absent, rfl⟩ := of_lookupAll_error failed
    exact (covered id isChild).missing absent
  refine .fork (fun task present => ?_) (fun _ => rfl) fun _ returned => obeys_merge supports returned
  obtain ⟨branch, isBranch, rfl⟩ := List.mem_map.mp present
  obtain ⟨id, isChild, branchFound⟩ := mem_of_lookupAll found branch isBranch
  exact .callOnly ((covered id isChild).grants branch branchFound)

/-- A condition is tested before a task goes on, and fails as a test may. -/
theorem fresh_testCondition {activity : Activity} {next : Bool → Task}
    (supports : contract.Supports program) (continues : ∀ holds, (next holds).Fresh contract inside) :
    (testCondition activity next).Fresh contract inside := by
  unfold testCondition
  cases activity.condition with
  | none => exact fresh_failed supports _ nofun
  | some condition =>
      exact fresh_compute supports (.test condition) id rfl (fun _ => rfl) (fun _ => rfl) continues

/-- A choice calls one of its two sides. -/
theorem fresh_runChoice {activity : Activity} (supports : contract.Supports program)
    (covered : ∀ id, activity.Mentions id → contract.Covers program id) :
    (program.runChoice activity).Fresh contract inside := by
  refine fresh_testCondition supports fun holds => ?_
  cases chosen : (if holds then activity.children.head? else activity.elseActivity) with
  | none => exact fresh_completed supports
  | some id =>
      refine fresh_callById (covered id ?_)
      cases holds with
      | true => exact Activity.mentions_child (List.mem_of_head? chosen)
      | false => exact Activity.mentions_elseActivity chosen

/-- Giving up is a failure that is no missing activity. -/
theorem fresh_hitIterationCap (supports : contract.Supports program) (activity : Activity) :
    (program.hitIterationCap activity).Fresh contract inside :=
  .announce (fresh_failed supports _ nofun)

/-- A loop that tests first runs its children as a sequence. -/
theorem fresh_runWhile {activity : Activity} (supports : contract.Supports program)
    (covered : ∀ id, activity.Mentions id → contract.Covers program id) (remaining : Nat) :
    (program.runWhile activity remaining).Fresh contract true := by
  induction remaining with
  | zero =>
      refine fresh_testCondition supports fun holds => ?_
      cases holds with
      | true => exact fresh_hitIterationCap supports activity
      | false => exact fresh_completed supports
  | succ remaining inductionHypothesis =>
      refine fresh_testCondition supports fun holds => ?_
      cases holds with
      | true =>
          exact fresh_whenCompleted
            (fresh_runSequence supports _ fun _ child => covered _ (Activity.mentions_child child))
            inductionHypothesis
      | false => exact fresh_completed supports

/-- A loop that tests last runs its children as a sequence. -/
theorem fresh_runRepeatUntil {activity : Activity} (supports : contract.Supports program)
    (covered : ∀ id, activity.Mentions id → contract.Covers program id) (remaining : Nat) :
    (program.runRepeatUntil activity remaining).Fresh contract true := by
  induction remaining with
  | zero => exact fresh_hitIterationCap supports activity
  | succ remaining inductionHypothesis =>
      refine fresh_whenCompleted
        (fresh_runSequence supports _ fun _ child => covered _ (Activity.mentions_child child))
        (fresh_testCondition supports fun holds => ?_)
      cases holds with
      | true => exact fresh_completed supports
      | false => exact inductionHypothesis

/-- A bound is measured before a task goes on, and fails as a measurement may. -/
theorem fresh_measureBound {activity : Activity} {bound : Option LoopBound} {field : String}
    {next : Int → Task} (supports : contract.Supports program)
    (continues : ∀ value, (next value).Fresh contract inside) :
    (measureBound activity bound field next).Fresh contract inside := by
  unfold measureBound
  rcases bound with _ | ⟨value⟩ | ⟨text⟩
  · exact fresh_failed supports _ nofun
  · exact continues value
  · exact fresh_compute supports (.measure text) id rfl (fun _ => rfl) (fun _ => rfl) continues

/-- A counter is written before a task goes on, and fails as a write may. -/
theorem fresh_writeCounter {counter : String} {index : Int} {next : Task}
    (supports : contract.Supports program) (fresh : next.Fresh contract inside) :
    (writeCounter counter index next).Fresh contract inside :=
  fresh_compute supports (.write counter (.integer index)) id rfl (fun _ => rfl) (fun _ => rfl)
    fun _ => fresh

/-- Runs one after another are sequences behind checkpoints. -/
theorem fresh_runIterations (supports : contract.Supports program) (counter : String)
    (children : List String) (covered : ∀ child ∈ children, contract.Covers program child)
    (count : Nat) (index : Int) :
    (program.runIterations counter children count index).Fresh contract true := by
  induction count generalizing index with
  | zero => exact fresh_completed supports
  | succ count inductionHypothesis =>
      have rest : (writeCounter counter index <|
          (program.runSequence children).whenCompleted
            (program.runIterations counter children count (index + 1))).Fresh contract true :=
        fresh_writeCounter supports
          (fresh_whenCompleted (fresh_runSequence supports children covered)
            (inductionHypothesis (index + 1)))
      exact ⟨.check rfl supports.stopped rest.agenda fun _ => rest.obeys, rfl⟩

/-- Runs side by side are flows, which have no checkpoint. -/
theorem fresh_runIterationsInParallel (supports : contract.Supports program) (counter : String)
    (children : List String) (covered : ∀ child ∈ children, contract.Covers program child)
    (count : Nat) (start : Int) :
    (program.runIterationsInParallel counter children count start).Fresh contract inside := by
  refine .fork (fun task present => ?_) (fun _ => rfl) fun _ returned => obeys_merge supports returned
  obtain ⟨offset, _, rfl⟩ := List.mem_map.mp present
  exact fresh_writeCounter supports (fresh_runFlow supports children covered)

/-- A counted loop does either. -/
theorem fresh_runForEach {activity : Activity} (supports : contract.Supports program)
    (covered : ∀ id, activity.Mentions id → contract.Covers program id) :
    (program.runForEach activity).Fresh contract true := by
  have coveredChildren : ∀ child ∈ activity.children, contract.Covers program child :=
    fun child present => covered child (Activity.mentions_child present)
  unfold runForEach
  cases activity.counterVariable with
  | none => exact fresh_failed supports _ nofun
  | some counter =>
      refine fresh_measureBound supports fun start => fresh_measureBound supports fun finish => ?_
      dsimp only
      split
      · exact fresh_hitIterationCap supports activity
      · split
        · exact fresh_runIterationsInParallel supports counter _ coveredChildren _ start
        · exact fresh_runIterations supports counter _ coveredChildren _ start

/-- A pick calls the branch of its first event. -/
theorem fresh_runPick {activity : Activity} (supports : contract.Supports program)
    (covered : ∀ id, activity.Mentions id → contract.Covers program id) :
    (program.runPick activity).Fresh contract inside := by
  unfold runPick
  cases handlers : activity.eventHandlers with
  | nil => exact fresh_completed supports
  | cons branch others =>
      refine .announce (fresh_callById (covered _ ?_))
      exact Activity.mentions_eventHandler (by simp [handlers])

/-- The length of a wait that cannot be told has nothing to do with other activities. -/
theorem of_requestedWait_error {activity : Activity} {error : ActivityError}
    (failed : program.requestedWait activity = .error error) (missing : String) :
    error ≠ .childNotFound missing := by
  rintro rfl
  unfold requestedWait at failed
  split at failed
  · obtain ⟨_, impossible⟩ := ActivityError.of_mapError failed
    cases impossible
  · cases failed
  · cases failed

/-- A wait calls nothing. -/
theorem fresh_runWait (supports : contract.Supports program) (activity : Activity) :
    (program.runWait activity).Fresh contract inside :=
  fresh_ofExcept _ (fun _ failed => supports.failed _ (of_requestedWait_error failed)) fun _ _ =>
    .announce (.wait (fresh_completed supports))

/-- Throwing fails with a fault, which is no missing activity. -/
theorem fresh_runThrow (supports : contract.Supports program) (activity : Activity) :
    (runThrow activity).Fresh contract inside := by
  unfold runThrow
  cases activity.faultVariable with
  | none => exact fresh_failed supports _ nofun
  | some path =>
      exact .act rfl rfl (fun _ => rfl) fun _ _ => .done (supports.failed _ nofun)

/-- Throwing again fails with the fault at hand, or because there is none. -/
theorem fresh_runRethrow (supports : contract.Supports program) :
    runRethrow.Fresh contract inside := by
  refine .act rfl rfl (fun current => ?_) fun current _ => ?_
  · change Option Fault at current
    cases current <;> rfl
  · change Option Fault at current
    cases current with
    | none => exact .done (supports.failed _ nofun)
    | some fault => exact .done (supports.failed _ nofun)

/-- A recovery calls the activity of its handler. -/
theorem fresh_recover (supports : contract.Supports program) {handler : FaultHandler} {fault : Fault}
    (covered : contract.Covers program handler.activity) :
    (program.recover handler fault).Fresh contract inside := by
  refine fresh_lookup covered.missing fun recovery found => ?_
  refine fresh_compute supports (.catchFault handler fault) id rfl (fun _ => rfl) (fun _ => rfl)
    fun _ => ?_
  have forgets (outcome : Outcome) (returned : contract.returns (.ok outcome)) :
      (Task.act .clearFault fun _ => .done (.ok outcome)).Fresh contract inside :=
    .act rfl rfl (fun _ => rfl) fun _ _ => .done returned
  refine .call (covered.grants recovery found) (fun result => ?_) fun result returned => ?_
  · cases result <;> rfl
  · cases result with
    | error error => exact .done returned
    | ok outcome => exact (forgets outcome returned).obeys

/-- A recovery carries out no plan of its own. -/
theorem agenda_recover (program : Program) (handler : FaultHandler) (fault : Fault) :
    (program.recover handler fault).agenda = [] := by
  unfold recover lookup
  cases program.definition.activity? handler.activity <;> rfl

/-- A task under handlers does what it does by itself, and one of them recovers. -/
theorem fresh_withHandlers {task : Task} {handlers : List FaultHandler}
    {caught : Fault → FaultHandler → Event} (supports : contract.Supports program)
    (fresh : task.Fresh contract inside)
    (covered : ∀ handler ∈ handlers, contract.Covers program handler.activity) :
    (program.withHandlers task handlers caught).Fresh contract inside := by
  refine .bind fresh (fun _ => rfl) (fun result => ?_) fun result returned => ?_
  · cases result with
    | ok outcome => rfl
    | error error =>
        dsimp only
        split
        · exact agenda_recover program _ _
        · rfl
  · cases result with
    | ok outcome => exact .done returned
    | error error =>
        dsimp only
        split
        · rename_i handler found
          have present := FaultHandler.mem_of_resolve? found
          exact (Task.Fresh.announce (fresh_recover supports (covered handler present))).obeys
        · exact .done returned

/-- A scope is a sequence under handlers. -/
theorem fresh_runScope {activity : Activity} (supports : contract.Supports program)
    (covered : ∀ id, activity.Mentions id → contract.Covers program id) :
    (program.runScope activity).Fresh contract true :=
  fresh_withHandlers supports
    (fresh_runSequence supports _ fun _ child => covered _ (Activity.mentions_child child))
    fun _ handler => covered _ (Activity.mentions_faultHandler handler)

/-- A plan puts nothing on the agenda but its own scopes. -/
theorem agenda_runPlan (program : Program) (steps : List CompensationStep) :
    (program.runPlan steps).agenda ⊆ steps.map CompensationStep.scopeId := by
  induction steps with
  | nil => exact List.nil_subset _
  | cons step steps inductionHypothesis =>
      unfold runPlan lookup
      cases program.definition.activity? step.handlerId with
      | none => exact List.nil_subset _
      | some handler => exact List.cons_subset_cons _ inductionHypothesis

/-- A plan whose handlers may be called can be carried out. -/
theorem obeys_runPlan (supports : contract.Supports program) (steps : List CompensationStep)
    (covered : ∀ step ∈ steps,
      (∀ handler, program.definition.activity? step.handlerId = some handler →
        contract.calls handler (.undoing step.scopeId)) ∧
      (program.definition.activity? step.handlerId = none →
        contract.returns (.error (.childNotFound step.handlerId)))) :
    (program.runPlan steps).Obeys contract inside := by
  induction steps with
  | nil => exact .done supports.completed
  | cons step steps inductionHypothesis =>
      have obeys := inductionHypothesis fun other present => covered other (by simp [present])
      unfold runPlan lookup
      cases found : program.definition.activity? step.handlerId with
      | none => exact .done ((covered step (by simp)).2 found)
      | some handler =>
          have marked : (Task.act (.markCompensated step.scopeId) fun _ =>
              program.runPlan steps).Obeys contract inside :=
            .act rfl (fun _ => List.subset_append_left _ _) fun _ _ => obeys
          have called : ((Task.call handler (.undoing step.scopeId) .done).andThen fun _ =>
              .act (.markCompensated step.scopeId) fun _ => program.runPlan steps).Obeys
              contract inside := by
            refine .call ((covered step (by simp)).1 handler found) ?_ (fun result => ?_)
              fun result returned => ?_
            · intro scopeId outcome undoing
              cases undoing
              exact ⟨_, rfl⟩
            · cases result with
              | ok outcome => exact List.Subset.refl _
              | error error => exact List.nil_subset _
            · cases result with
              | ok outcome => exact marked
              | error error => exact .done returned
          exact .act rfl (fun _ => List.subset_append_left _ _) fun _ _ => called

/-- Undoing scopes calls the handlers of a plan. -/
theorem fresh_compensateScopes (supports : contract.Supports program) (target : Option String) :
    (program.compensateScopes target).Fresh contract inside := by
  refine ⟨.act rfl (fun steps => ?_) fun steps allowed => ?_, rfl⟩
  · exact List.subset_append_of_subset_right _ (agenda_runPlan program steps)
  · exact obeys_runPlan supports steps (supports.undoing target steps allowed)

/-- What an activity does keeps to every contract that lets it look up what it refers to. -/
theorem fresh_body_of_covers (supports : contract.Supports program) (activity : Activity)
    (covered : ∀ id, activity.Mentions id → contract.Covers program id) :
    (program.body activity).Fresh contract true := by
  have coveredChildren : ∀ child ∈ activity.children, contract.Covers program child :=
    fun child present => covered child (Activity.mentions_child present)
  unfold body
  cases activity.kind with
  | sequence => exact fresh_runSequence supports _ coveredChildren
  | flow => exact fresh_runFlow supports _ coveredChildren
  | choice => exact fresh_runChoice supports covered
  | whileLoop => exact fresh_runWhile supports covered _
  | repeatUntil => exact fresh_runRepeatUntil supports covered _
  | forEach => exact fresh_runForEach supports covered
  | pick => exact fresh_runPick supports covered
  | invoke =>
      exact fresh_compute supports _ _ rfl (fun _ => rfl) (fun _ => rfl) fun _ =>
        fresh_completed supports
  | receive =>
      exact fresh_compute supports _ _ rfl (fun _ => rfl) (fun _ => rfl) fun _ =>
        fresh_completed supports
  | reply =>
      exact fresh_compute supports _ _ rfl (fun _ => rfl) (fun _ => rfl) fun _ =>
        fresh_completed supports
  | assign =>
      exact fresh_compute supports _ _ rfl (fun _ => rfl) (fun _ => rfl) fun _ =>
        fresh_completed supports
  | wait => exact fresh_runWait supports activity
  | throw => exact fresh_runThrow supports activity
  | rethrow => exact fresh_runRethrow supports
  | scope => exact fresh_runScope supports covered
  | compensate => exact fresh_compensateScopes supports _
  | compensateScope => exact fresh_compensateScopes supports _
  | empty => exact fresh_completed supports
  | validate => exact fresh_completed supports
  | exit =>
      exact .act rfl rfl (fun _ => rfl) fun _ replied => .done (supports.exited _ replied)
  | unsupported => exact fresh_failed supports _ nofun

/-- The execution of a root keeps to every contract that allows the root and the fault handlers of the
process. -/
theorem fresh_run_of_covers (supports : contract.Supports program) {root : Activity}
    (allowed : contract.calls root .part)
    (covered : ∀ handler ∈ program.definition.faultHandlers,
      contract.Covers program handler.activity) :
    (program.run root).Fresh contract inside :=
  fresh_withHandlers supports (.callOnly allowed) covered

/-- Outside of executions nothing stops a task from going on with a second one. -/
theorem fresh_andThen {task : Task} {next : Outcome → Task}
    (fresh : task.Fresh contract false)
    (freshNext : ∀ outcome, (next outcome).Fresh contract false) :
    (task.andThen next).Fresh contract false := by
  refine .bind fresh (fun outside => ?_) (fun result => ?_) fun result returned => ?_
  · cases outside
  · cases result with
    | ok outcome => exact (freshNext outcome).agenda
    | error error => rfl
  · cases result with
    | ok outcome => exact (freshNext outcome).obeys
    | error error => exact .done returned

/-- The compensation of a process keeps to every contract that allows its compensation handler. -/
theorem fresh_compensateProcess_of_covers (supports : contract.Supports program)
    (covered : ∀ id, program.definition.compensationHandler = some id →
      contract.Covers program id) :
    program.compensateProcess.Fresh contract false := by
  refine fresh_andThen (fresh_compensateScopes supports none) fun _ => ?_
  cases handler : program.definition.compensationHandler with
  | none => exact fresh_completed supports
  | some id =>
      refine fresh_lookup (covered id handler).missing fun callee found => .announce ?_
      exact fresh_andThen (.callOnly ((covered id handler).grants callee found)) fun _ =>
        fresh_completed supports

section Admits

variable (admits : contract.Admits program)

include admits

/-- What an activity does keeps to every contract that lets it call what it refers to. -/
theorem fresh_body (activity : Activity)
    (granted : ∀ id, activity.Mentions id → contract.Grants program id) :
    (program.body activity).Fresh contract true :=
  fresh_body_of_covers admits.supports activity fun id mentions => admits.covers (granted id mentions)

/-- The execution of a root keeps to every contract that allows the root and the fault handlers of the
process. -/
theorem fresh_run {root : Activity} (allowed : contract.calls root .part)
    (granted : ∀ handler ∈ program.definition.faultHandlers,
      contract.Grants program handler.activity) :
    (program.run root).Fresh contract inside :=
  fresh_run_of_covers admits.supports allowed fun handler present =>
    admits.covers (granted handler present)

/-- The compensation of a process keeps to every contract that allows its compensation handler. -/
theorem fresh_compensateProcess
    (granted : ∀ id, program.definition.compensationHandler = some id →
      contract.Grants program id) : program.compensateProcess.Fresh contract false :=
  fresh_compensateProcess_of_covers admits.supports fun id isHandler =>
    admits.covers (granted id isHandler)

end Admits

end Program

end Orchestration
