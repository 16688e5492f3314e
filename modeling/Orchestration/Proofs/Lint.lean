import Orchestration.Proofs.Marks
import Orchestration.Proofs.Origins

/-!
# What is missing is listed beforehand

Whoever looks up an activity takes its id from a reference: of the activity that it executes, of the
definition itself, or, when scopes are undone, of a scope in the plan. So an id under which something is
found missing is the target of a reference that leads nowhere, and `Definition.danglingReferences` has
listed it before anything runs.

A task cannot make up the failure of a look-up either: actions fail with what went wrong in an expression
or a path. `Contract.linted` puts this together, and every task keeps to it.
-/

namespace Orchestration

namespace Definition

variable {definition : Definition}

/-- That an id is the target of a reference that leads nowhere. -/
def Dangles (definition : Definition) (missing : String) : Prop :=
  ∃ reference ∈ definition.danglingReferences, reference.target = missing

/-- A reference of the definition that leads nowhere dangles. -/
theorem dangles_of_references {field : ReferenceField} {id : String}
    (present : (field, id) ∈ definition.references) (absent : definition.activity? id = none) :
    definition.Dangles id := by
  refine ⟨⟨none, field, id⟩, ?_, rfl⟩
  simp only [danglingReferences, allReferences, List.mem_filter, List.mem_append, List.mem_map]
  exact ⟨.inl ⟨_, present, rfl⟩, by simp [absent]⟩

/-- A reference of an activity that leads nowhere dangles. -/
theorem dangles_of_mentions {activity : Activity} {id : String}
    (present : activity ∈ definition.activities) (mentions : activity.Mentions id)
    (absent : definition.activity? id = none) : definition.Dangles id := by
  obtain ⟨⟨field, target⟩, isReference, rfl⟩ := mentions
  refine ⟨⟨some activity.id, field, target⟩, ?_, rfl⟩
  simp only [danglingReferences, allReferences, List.mem_filter, List.mem_append, List.mem_flatMap,
    List.mem_map]
  exact ⟨.inr ⟨activity, present, _, isReference, rfl⟩, by simp [absent]⟩

/-- A root that does not exist is listed. -/
theorem dangles_root (absent : definition.root? = none) :
    definition.Dangles definition.rootActivityId :=
  dangles_of_references List.mem_cons_self absent

/-- The recovery activity of a handler of the process dangles when it is missing. -/
theorem dangles_faultHandler {handler : FaultHandler}
    (present : handler ∈ definition.faultHandlers)
    (absent : definition.activity? handler.activity = none) :
    definition.Dangles handler.activity := by
  have isReference : (.faultHandlers, handler.activity) ∈ definition.references := by
    simp only [references, List.mem_cons, List.mem_append, List.mem_map]
    exact .inr (.inl ⟨handler, present, rfl⟩)
  exact dangles_of_references isReference absent

/-- The compensation handler of the process dangles when it is missing. -/
theorem dangles_compensationHandler {id : String} (handled : definition.compensationHandler = some id)
    (absent : definition.activity? id = none) : definition.Dangles id := by
  have isReference : (.compensationHandler, id) ∈ definition.references := by
    simp [references, handled]
  exact dangles_of_references isReference absent

end Definition

/-- That a failure is about an expression or a path. -/
def ActivityError.isEvaluation : ActivityError → Bool
  | .expression _ => true
  | .path _ => true
  | _ => false

/-- Writing a path fails for the path only. -/
theorem Bag.isEvaluation_assignPath {path : String} {value : Value} {bag : Bag}
    {error : ActivityError} (failed : bag.assignPath path value = .error error) :
    error.isEvaluation = true := by
  obtain ⟨reason, rfl⟩ := ActivityError.of_mapError failed
  rfl

/-- Copies fail for expressions and paths only. -/
theorem Bag.isEvaluation_assignAll {copies : List Copy} {bag : Bag} {error : ActivityError}
    (failed : (assignAll copies bag).2 = .error error) : error.isEvaluation = true := by
  induction copies generalizing bag with
  | nil => cases failed
  | cons copy copies inductionHypothesis =>
      unfold assignAll at failed
      split at failed
      · rename_i reason resolved
        cases failed
        unfold CopySource.resolve at resolved
        split at resolved
        · cases resolved
        · cases resolved
        · obtain ⟨_, rfl⟩ := ActivityError.of_mapError resolved
          rfl
      · split at failed
        · rename_i assigned
          cases failed
          exact isEvaluation_assignPath assigned
        · exact inductionHypothesis failed

/-- Writing a variable of an instance fails for the path only. -/
theorem Instance.isEvaluation_writeVariable {path : String} {value : Value} {subject : Instance}
    {error : ActivityError} (failed : (subject.writeVariable path value).2 = .error error) :
    error.isEvaluation = true := by
  unfold writeVariable at failed
  split at failed
  · cases failed
  · rename_i assigned
    cases failed
    exact Bag.isEvaluation_assignPath assigned

/-- What goes wrong in an action is about an expression or a path. -/
theorem Action.isEvaluation_perform {subject : Instance} {action : Action} {error : ActivityError}
    (failed : action.result (action.perform subject).reply = .error error) :
    error.isEvaluation = true := by
  have of_map {α : Type} {computed : Except ActivityError α}
      (failed : (computed.map fun _ => Outcome.completed) = .error error) :
      computed = .error error := by
    cases computed with
    | ok value => cases failed
    | error other => simpa [Except.map] using failed
  cases action with
  | checkHalting =>
      cases halting : subject.status.isHalting <;> simp [result, perform, halting] at failed
  | test condition =>
      obtain ⟨_, rfl⟩ := ActivityError.of_mapError (of_map failed)
      rfl
  | measure expression =>
      have failed := of_map failed
      simp only [perform] at failed
      split at failed
      · cases failed
        rfl
      · split at failed <;> cases failed
        rfl
  | write path value => exact Instance.isEvaluation_writeVariable (of_map failed)
  | assign copies => exact Bag.isEvaluation_assignAll (of_map failed)
  | invoke activity =>
      have failed := of_map failed
      simp only [perform] at failed
      split at failed
      · exact Instance.isEvaluation_writeVariable failed
      · cases failed
  | receive activity =>
      have failed := of_map failed
      simp only [perform] at failed
      split at failed
      · cases failed
      · split at failed
        · cases failed
        · exact Instance.isEvaluation_writeVariable failed
  | catchFault handler fault =>
      have failed := of_map failed
      simp only [perform] at failed
      split at failed <;> cases failed
      rfl
  | _ => cases failed

namespace Contract

/-- That only activities of the definition are called, and that none is found missing but under an id that
dangles. A task may take for granted that no action finds an activity missing, and that the scopes of plans
have the handlers of their steps. -/
def linted (definition : Definition) : Contract where
  calls activity _ := activity ∈ definition.activities
  replies action reply :=
    (∀ missing, action.result reply ≠ .error (.childNotFound missing)) ∧
      (byHandlers definition).replies action reply
  returns result := ∀ missing, result = .error (.childNotFound missing) → definition.Dangles missing

variable {program : Program}

/-- The contract grants what tasks need, though they miss only what dangles. -/
theorem linted_supports (program : Program) : (linted program.definition).Supports program where
  completed := nofun
  failed error other missing same := absurd (Except.error.inj same) (other missing)
  replied action reply error replied failed missing same := by
    cases same
    exact absurd failed (replied.1 missing)
  stopped _ := nofun
  exited _ _ := nofun
  undoing target steps planned step present := by
    obtain ⟨scope, found, isHandler⟩ := planned.2 rfl step present
    have mentioned := Activity.mentions_compensationHandler isHandler
    refine ⟨fun handler found => List.mem_of_find?_eq_some found, fun absent missing same => ?_⟩
    cases same
    exact Definition.dangles_of_mentions (List.mem_of_find?_eq_some found) mentioned absent

/-- An id may be looked up that dangles if it leads nowhere. -/
theorem linted_covers {id : String}
    (dangles : program.definition.activity? id = none → program.definition.Dangles id) :
    (linted program.definition).Covers program id where
  grants callee found := List.mem_of_find?_eq_some found
  missing absent missing same := by
    cases same
    exact dangles absent

/-- An activity of the definition may look up what it mentions. -/
theorem linted_mentions {activity : Activity} (present : activity ∈ program.definition.activities)
    (id : String) (mentions : activity.Mentions id) : (linted program.definition).Covers program id :=
  linted_covers (Definition.dangles_of_mentions present mentions)

/-- What an activity does inside of an execution keeps to the contract. -/
theorem linted_body (activity : Activity) (role : Role)
    (present : (linted program.definition).calls activity role) :
    (program.body activity).Obeys (linted program.definition) true :=
  (Program.fresh_body_of_covers (linted_supports program) activity (linted_mentions present)).obeys

/-- The children of an activity that is executed one after another keep to the contract. -/
theorem linted_children {activity : Activity} (present : activity ∈ program.definition.activities) :
    (program.runSequence activity.children).Obeys (linted program.definition) true :=
  (Program.fresh_runSequence (linted_supports program) activity.children fun child isChild =>
    linted_mentions present child (Activity.mentions_child isChild)).obeys

end Contract

/-- The task of a run finds nothing missing but what dangles, unless it fails with that from the
beginning. -/
theorem Program.Serves.obeys_linted {program : Program} {purpose : RunPurpose} {task : Task}
    (serves : program.Serves purpose task)
    (raised : ∀ missing, task ≠ .done (.error (.childNotFound missing))) :
    task.Obeys (.linted program.definition) false := by
  cases serves with
  | execution present =>
      refine (fresh_run_of_covers (Contract.linted_supports program)
        (List.mem_of_find?_eq_some present) fun handler isHandler => ?_).obeys
      exact Contract.linted_covers (Definition.dangles_faultHandler isHandler)
  | missingRoot =>
      refine .done fun missing same => ?_
      cases same
      exact absurd rfl (raised missing)
  | compensation =>
      refine (fresh_compensateProcess_of_covers (Contract.linted_supports program)
        fun id isHandler => ?_).obeys
      exact Contract.linted_covers (Definition.dangles_compensationHandler isHandler)

/-- No action finds an activity missing, and the scopes of a plan have the handlers of their steps. -/
theorem Move.Acts.expected_linted {definition : Definition} {scene nextScene : Scene} {move : Move}
    (acts : move.Acts scene nextScene) : move.Expected (.linted definition) := by
  have planned : move.Expected (.byHandlers definition) := acts.expected_byHandlers
  cases move with
  | performed action reply =>
      refine ⟨fun missing failed => ?_, planned⟩
      obtain ⟨_, rfl⟩ := Prod.mk.inj acts
      cases Action.isEvaluation_perform failed
  | _ => trivial

section Levels

variable {contract : Contract} {program : Program} {task : Task} {records : List Record}
  {result? : Option Result} {inside : Bool}

/-- The branches of a task that keeps to a contract keep to it. -/
theorem Task.Unfolds.obeys_side {sides : List (List Record × Option Result)}
    {side : List Record × Option Result}
    (bodies : ∀ activity role, contract.calls activity role →
      (program.body activity).Obeys contract true)
    (unfolds : task.Unfolds program records result?) (obeys : task.Obeys contract inside)
    (expects : contract.Expects records) (forked : .branched sides ∈ records)
    (present : side ∈ sides) :
    ∃ branch : Task, branch.Obeys contract false ∧ branch.Unfolds program side.1 side.2 := by
  induction unfolds generalizing inside with
  | rest => cases forked
  | done => cases forked
  | act _ inductionHypothesis =>
      have replied := expects _ _ (.here List.mem_cons_self)
      exact inductionHypothesis (obeys.reply replied) expects.rest (by simpa using forked)
  | inside => simp at forked
  | call ended _ _ inductionHypothesis =>
      cases obeys with
      | call allowed _ _ continues =>
          have returned :=
            (ended.allows bodies (bodies _ _ allowed) (expects.inside List.mem_cons_self)).2 _ rfl
          exact inductionHypothesis (continues _ returned) expects.rest (by simpa using forked)
  | wait _ inductionHypothesis => exact inductionHypothesis obeys.waited.2 expects forked
  | aside paired unfold =>
      obtain rfl : sides = _ := by simpa using forked
      obtain ⟨index, branch, isSide, isBranch⟩ := exists_getElem?_of_mem paired present
      exact ⟨branch, (obeys.forked.1 _ (List.mem_of_getElem? isBranch)).2,
        unfold index _ side isBranch isSide⟩
  | @fork branches join others results _ _ paired ended unfold _ _ inductionHypothesis =>
      have aside (other : List Record × Option Result) (isSide : other ∈ others) :
          ∃ branch : Task, branch.Obeys contract false ∧ branch.Unfolds program other.1 other.2 := by
        obtain ⟨index, branch, atIndex, isBranch⟩ := exists_getElem?_of_mem paired isSide
        exact ⟨branch, (obeys.forked.1 _ (List.mem_of_getElem? isBranch)).2,
          unfold index _ other isBranch atIndex⟩
      rcases List.mem_cons.mp forked with same | inRest
      · cases same
        exact aside side present
      · -- The branches returned what is allowed, and so what follows keeps to the contract.
        have returned : ∀ result ∈ results, contract.returns result := by
          intro result isResult
          obtain ⟨other, isSide, same⟩ := Record.exists_side_of_result ended isResult
          obtain ⟨branch, branchObeys, branchUnfolds⟩ := aside other isSide
          exact (branchUnfolds.allows bodies branchObeys
            (expects.aside List.mem_cons_self isSide)).2 result same
        exact inductionHypothesis ((obeys.forked.2 results).2 returned) expects.rest inRest

/-- What is expected of the actions that are performed is expected of those of every level. -/
theorem Record.Level.expects {owner : Record.Owner} {inner : List Record} {inner? : Option Result}
    (level : Record.Level records result? owner inner inner?) (expects : contract.Expects records) :
    contract.Expects inner :=
  fun action reply among => expects action reply (level.among among)

/-- At every level of what is done of a task that keeps to a contract, so much has been done of a task
that keeps to it. -/
theorem Record.Level.obeys {owner : Record.Owner} {inner : List Record} {inner? : Option Result}
    (level : Record.Level records result? owner inner inner?)
    (bodies : ∀ activity role, contract.calls activity role →
      (program.body activity).Obeys contract true)
    (unfolds : task.Unfolds program records result?) (obeys : task.Obeys contract inside)
    (expects : contract.Expects records) :
    ∃ (within : Bool) (part : Task), part.Obeys contract within ∧
      part.Unfolds program inner inner? := by
  induction level with
  | whole => exact ⟨inside, task, obeys, unfolds⟩
  | inside outer present inductionHypothesis =>
      obtain ⟨_, part, partObeys, partUnfolds⟩ := inductionHypothesis
      have allows := (partUnfolds.allows bodies partObeys (outer.expects expects)).1
      exact ⟨true, _, bodies _ _ (allows _ _ _ _ (.here present)), partUnfolds.executed present⟩
  | aside outer forked present inductionHypothesis =>
      obtain ⟨_, part, partObeys, partUnfolds⟩ := inductionHypothesis
      obtain ⟨branch, branchObeys, branchUnfolds⟩ :=
        partUnfolds.obeys_side bodies partObeys (outer.expects expects) forked present
      exact ⟨false, branch, branchObeys, branchUnfolds⟩

/-- What is done at every level of it ends as the contract allows. -/
theorem Record.Level.returns {owner : Record.Owner} {inner : List Record} {inner? : Option Result}
    (level : Record.Level records result? owner inner inner?)
    (bodies : ∀ activity role, contract.calls activity role →
      (program.body activity).Obeys contract true)
    (unfolds : task.Unfolds program records result?) (obeys : task.Obeys contract inside)
    (expects : contract.Expects records) : ∀ result, inner? = some result → contract.returns result := by
  obtain ⟨_, part, partObeys, partUnfolds⟩ := level.obeys bodies unfolds obeys expects
  exact (partUnfolds.allows bodies partObeys (level.expects expects)).2

end Levels

/-- That a failure is raised at a level of what was done: what was done there ended with it, or the
children of a scope did, whether or not the scope has a handler for it. -/
def Record.Owner.Raises (program : Program) (owner : Owner) (level : List Record)
    (result? : Option Result) (error : ActivityError) : Prop :=
  result? = some (.error error) ∨
    ∃ scope role first rest, owner = .execution scope role ∧ scope.kind = .scope ∧
      level = first ++ rest ∧
        (program.runSequence scope.children).Unfolds program first (some (.error error))

/-- That a run which has made some moves misses an activity: that is raised at some level of what it has
done, or the process has no root to begin with. -/
inductive Run.Misses (moves : List Move) (run : Run) : String → Prop where
  | raised {task : Task} {records level : List Record} {owner : Record.Owner}
      {result? : Option Result} {missing : String} (recorded : run.Recorded moves task records)
      (isLevel : Record.Level records run.thread.result? owner level result?)
      (raises : owner.Raises run.program level result? (.childNotFound missing)) :
      Misses moves run missing
  | root (purpose : run.purpose = .missingRoot) : Misses moves run run.program.definition.rootActivityId

/-- The task of a run does not consist in a failed look-up, if what has no root ends with its fault. -/
theorem Run.Recorded.ne_missing {moves : List Move} {run : Run} {task : Task} {records : List Record}
    {fault : Fault} (recorded : run.Recorded moves task records)
    (rootless : run.purpose = .missingRoot → run.thread = .ended (.error (.raised fault)))
    (missing : String) : task ≠ .done (.error (.childNotFound missing)) := by
  rintro rfl
  have unfolds := recorded.unfolds
  generalize isPurpose : run.purpose = purpose at rootless
  have serves := recorded.serves
  rw [isPurpose] at serves
  generalize isTask : Task.done (.error (.childNotFound missing)) = task at serves
  cases serves with
  | execution => cases isTask
  | missingRoot =>
      rw [rootless rfl] at unfolds
      cases unfolds.of_ended.2
  | compensation => cases isTask

/-- What a run finds missing dangles in its definition. -/
theorem Run.Recorded.dangles {moves : List Move} {run : Run} {task : Task} {records level : List Record}
    {owner : Record.Owner} {result? : Option Result} {missing : String}
    (recorded : run.Recorded moves task records)
    (acted : ∀ move ∈ moves, ∃ scene nextScene, move.Acts scene nextScene)
    (raised : ∀ missing, task ≠ .done (.error (.childNotFound missing)))
    (isLevel : Record.Level records run.thread.result? owner level result?)
    (raises : owner.Raises run.program level result? (.childNotFound missing)) :
    run.program.definition.Dangles missing := by
  have obeys := recorded.serves.obeys_linted raised
  have expects : (Contract.linted run.program.definition).Expects records :=
    recorded.expects fun move present => by
      obtain ⟨_, _, acts⟩ := acted move present
      exact acts.expected_linted
  rcases raises with ended | ⟨scope, role, first, rest, rfl, isScope, rfl, children⟩
  · exact isLevel.returns Contract.linted_body recorded.unfolds obeys expects _ ended missing rfl
  · -- The scope is an activity of the definition, and what its children did was done at its level.
    have called := (recorded.unfolds.allows Contract.linted_body obeys expects).1 _ _ _ _
      isLevel.among_of_execution
    exact (children.allows Contract.linted_body (Contract.linted_children called)
      fun action reply among => expects action reply
        (isLevel.among (Record.among_append_iff.mpr (.inl among)))).2 _ rfl missing rfl

open Snapshot (History stagesOf)

/-- Whatever a run on an instance misses, at any level of what it does, is the target of a dangling
reference of the definition that the instance was started from, and so is a missing root, which is what
the run then reports. So no run on an instance of a definition without dangling references misses
anything. -/
theorem lint_complete {settings : Settings} {naming : Naming} {now : Timestamp}
    {moments : List Snapshot.Moment} {state : Snapshot} {id : String} {entry : Entry} {run : Run}
    (history : History (.new settings naming now) moments state)
    (found : state.engine.entry? id = some entry) (isRun : Run.find? id state.runs = some run) :
    (∃ task records, run.Recorded (Stage.movesOf (stagesOf id moments)) task records) ∧
      (run.purpose = .missingRoot →
        run.thread = .ended (.error (.raised (Engine.missingRootFault entry.definition)))) ∧
      (∀ missing, run.Misses (Stage.movesOf (stagesOf id moments)) missing →
        ∃ reference ∈ entry.definition.danglingReferences, reference.target = missing) ∧
      (entry.definition.danglingReferences = [] →
        ∀ missing, ¬ run.Misses (Stage.movesOf (stagesOf id moments)) missing) := by
  have situated : state.situation? id = some ⟨entry.subject, some run⟩ := by
    simp [Snapshot.situation?, Engine.instance?, found, isRun]
  have life := history.life situated
  obtain ⟨present, rfl⟩ := Snapshot.mem_runs_of_run? situated rfl
  obtain ⟨known, rootless⟩ := history.original run present
  have own : entry.definition = run.program.definition := by
    simpa [Snapshot.definition?, found] using known
  rw [own]
  have dangles (missing : String)
      (misses : run.Misses (Stage.movesOf (stagesOf run.instanceId moments)) missing) :
      run.program.definition.Dangles missing := by
    cases misses with
    | raised recorded isLevel raises =>
        exact recorded.dangles life.acts
          (recorded.ne_missing fun purpose => (rootless purpose).2) isLevel raises
    | root purpose => exact Definition.dangles_root (rootless purpose).1
  refine ⟨life.hasRecord run rfl, fun purpose => (rootless purpose).2, dangles, ?_⟩
  intro clean missing misses
  obtain ⟨reference, listed, _⟩ := dangles missing misses
  rw [clean] at listed
  cases listed

namespace GhostChild

/-- Has a child that does not exist, and a handler for every fault. -/
def main : Activity :=
  { id := "main", kind := .scope, children := ["ghost"], faultHandlers := [⟨"*", none, "calm"⟩] }

/-- Recovers from the missing child. -/
def calm : Activity := { id := "calm", kind := .empty }

/-- A process in which nothing fails that is not taken. -/
def definition : Definition := .ofActivities "p" "P" "main" [main, calm]

/-- The program of the process. -/
def program : Program := ⟨definition, .default, ⟨0, 0⟩⟩

/-- The instance when its execution begins. -/
def subject : Instance := .new "i-1" "p" [] "oracle"

/-- The run of the execution. -/
def run : Run := ⟨"i-1", .execution, program, .ofTask (program.run main)⟩

/-- What has been done when the child is missed. -/
def records : List Record := [.executed main .part [.performed .checkHalting false] none]

/-- The child has been missed, and its scope has still to send that to its handler. -/
theorem kept (events : Array Event) : ∃ scene thread,
    Thread.Kept program ⟨subject, events⟩ (program.run main) scene thread records ∧
      thread.Follows program (program.run main) records := by
  have kept := @Thread.Kept.refl program ⟨subject, events⟩ (program.run main)
  have kept := @Thread.Kept.enter _ _ _ _ _ [] _ _ _ _ kept
  have kept := @Thread.Kept.act _ _ _ _ _ [_] _ _ _ kept
  exact ⟨_, _, kept, .inside (.act .ready) (@Thread.Under.ready _ [] _)⟩

/-- A run misses the child. -/
theorem misses : ∃ moments state entry run,
    History (.new .default (.numbered "i-") ⟨0, 0⟩) moments state ∧
      state.engine.entry? "i-1" = some entry ∧ entry.definition = definition ∧
        Run.find? "i-1" state.runs = some run ∧
          run.Misses (Stage.movesOf (stagesOf "i-1" moments)) "ghost" := by
  obtain ⟨first, engine, prior, fresh, present⟩ :=
    @History.exists_started program main (.numbered "i-") "oracle" rfl rfl
  obtain ⟨scene, thread, kept, follows⟩ := kept engine.journal
  obtain ⟨moments, history, keeps, present⟩ :=
    @Thread.Kept.history _ _ _ _ _ run _ _ _ _ _ kept rfl prior fresh present
  obtain ⟨entry, found, _⟩ := Engine.scene?_eq_some_iff.mp present
  have known := (history.original _ List.mem_cons_self).definition
  have own : entry.definition = run.program.definition := by
    simpa [Snapshot.definition?, Engine.entry?, found] using known
  have raises : (Record.Owner.execution main .part).Raises program [.performed .checkHalting false] none
      (.childNotFound "ghost") :=
    .inr ⟨main, .part, _, [], rfl, rfl, (List.append_nil _).symm, .act .done⟩
  exact ⟨moments, _, entry, { run with thread := thread }, history, found, own, rfl,
    .raised ⟨.execution rfl, keeps, follows⟩ (.inside .whole List.mem_cons_self) raises⟩

end GhostChild

/-- A child that a run misses is listed, although its scope recovers from that. -/
theorem exists_missing_listed : ∃ moments state run,
    History (.new .default (.numbered "i-") ⟨0, 0⟩) moments state ∧
      Run.find? "i-1" state.runs = some run ∧
        run.Misses (Stage.movesOf (stagesOf "i-1" moments)) "ghost" ∧
          ∃ reference ∈ GhostChild.definition.danglingReferences, reference.target = "ghost" := by
  obtain ⟨moments, state, entry, run, history, found, own, isRun, misses⟩ := GhostChild.misses
  obtain ⟨_, _, listed, _⟩ := lint_complete history found isRun
  have dangles := listed "ghost" misses
  rw [own] at dangles
  exact ⟨moments, state, run, history, isRun, misses, dangles⟩

end Orchestration
