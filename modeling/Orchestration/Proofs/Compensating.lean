import Orchestration.Proofs.Undoing

/-!
# How a process is compensated

Where handlers undo nothing themselves, and nobody does anything to the instance in the meantime, the
compensation of a process is what its steps say: the handlers of all scopes that were completed, the one
that began last first, and then the handler of the process. The first step that fails is the last. How
far the steps came can be told from the statuses afterwards.
-/

namespace Orchestration

/-- What is known of an instance that was like another before its compensation began, when the run that
compensates it has made some moves. -/
structure Situation.Undoing (program : Program) (before : Instance) (moves : List Move)
    (situation : Situation) : Prop where
  underWay : ∃ run, situation.run? = some run ∧ run.purpose = .compensation ∧ run.program = program
  status : situation.subject.status = .compensating
  going : .performed .checkHalting true ∉ moves
  unread : (∀ definition target steps, .performed (.plan definition target) steps ∉ moves) →
    situation.subject.activityStatuses = before.activityStatuses
  planned : ∀ definition target steps, .performed (.plan definition target) steps ∈ moves →
    steps = before.compensationPlan definition target
  marked : ∀ scopeId, program.definition.Owned scopeId →
    .performed (.markCompensated scopeId) () ∈ moves →
      situation.subject.activityStatus? scopeId = some .compensated
  unmarked : ∀ scopeId, program.definition.Owned scopeId →
    .performed (.markCompensated scopeId) () ∉ moves →
      situation.subject.activityStatus? scopeId = before.activityStatus? scopeId

namespace Situation.Undoing

variable {program : Program} {before : Instance} {moves : List Move} {stages : List Stage}
  {situation next : Situation} {move : Move}

/-- It is so when the compensation begins. -/
theorem begins (run : Run) (compensates : run.purpose = .compensation)
    (subject : Instance) :
    Undoing run.program subject [] ⟨{ subject with status := .compensating }, some run⟩ where
  underWay := ⟨run, rfl, compensates, rfl⟩
  status := rfl
  going := List.not_mem_nil
  unread _ := rfl
  planned _ _ _ impossible := nomatch impossible
  marked _ _ impossible := nomatch impossible
  unmarked _ _ _ := rfl

/-- It stays so with every move. -/
theorem step (plain : program.definition.UndoesPlainly) (life : Life stages situation)
    (undoing : Undoing program before (Stage.movesOf stages) situation)
    (happened : situation.Step (.moved move) next) :
    Undoing program before (Stage.movesOf stages ++ [move]) next := by
  obtain ⟨scene, nextScene, isSubject, isNext, acts⟩ := happened.acts
  obtain ⟨run, nextRun, task, records, later, path, isRun, isNextRun, ⟨sameProgram, samePurpose⟩,
    recorded, nextRecorded, grows⟩ := life.grows happened
  obtain ⟨known, isKnown, compensates, rfl⟩ := undoing.underWay
  cases isKnown.symm.trans isRun
  have acted := (life.step happened).acts
  rw [Stage.movesOf_concat] at acted
  have undone := nextRecorded.plainlyUndone (samePurpose.trans compensates)
    (by rw [sameProgram]; exact plain) acted
  rw [sameProgram] at undone
  have statusKept := undone.status_eq grows acts
  rw [isSubject, isNext] at statusKept
  have scopeKept {scopeId : String} (owned : run.program.definition.Owned scopeId) :=
    undone.activityStatus?_eq grows acts owned
  rw [isSubject, isNext] at scopeKept
  refine ⟨⟨nextRun, isNextRun, samePurpose.trans compensates, sameProgram⟩,
    statusKept.trans undoing.status, ?going, ?unread, ?planned, ?marked, ?unmarked⟩
  case going =>
    intro checked
    rcases List.mem_append.mp checked with earlier | isLast
    · exact undoing.going earlier
    · cases List.mem_singleton.mp isLast
      have halting : scene.subject.status.isHalting = true := (Prod.mk.inj acts).2
      rw [isSubject, undoing.status] at halting
      cases halting
  case unread =>
    intro noPlan
    have nothing : later = [] := by
      rcases Program.carries_compensateProcess undone.unfolds with ⟨nothing, _⟩ | ⟨plan, rest, rfl, _⟩
      · exact nothing
      · have read := nextRecorded.keeps.among_performed_iff.mp (.here List.mem_cons_self)
        exact absurd read (noPlan _ _ _)
    subst nothing
    obtain ⟨_, rfl⟩ := grows.of_nil
    cases acts
    rw [← isNext, isSubject]
    exact undoing.unread fun definition target steps earlier =>
      noPlan definition target steps (List.mem_append_left _ earlier)
  case planned =>
    intro definition target steps read
    rcases List.mem_append.mp read with earlier | isLast
    · exact undoing.planned definition target steps earlier
    · cases List.mem_singleton.mp isLast
      obtain rfl := undone.records_of_plan grows
      have unread := undoing.unread fun definition target steps earlier =>
        nomatch recorded.keeps.of_nil _ earlier
      have planned : scene.subject.compensationPlan definition target = steps := (Prod.mk.inj acts).2
      rw [← planned, isSubject, Instance.compensationPlan, Instance.compensationPlan, unread]
  case marked =>
    intro scopeId owned marks
    by_cases isMark : move = .performed (.markCompensated scopeId) ()
    · subst isMark
      exact happened.compensated
    · rw [scopeKept owned isMark]
      rcases List.mem_append.mp marks with earlier | isLast
      · exact undoing.marked scopeId owned earlier
      · exact absurd (List.mem_singleton.mp isLast).symm isMark
  case unmarked =>
    intro scopeId owned unmarked
    have isOther : move ≠ .performed (.markCompensated scopeId) () := by
      rintro rfl
      exact unmarked List.mem_concat_self
    rw [scopeKept owned isOther]
    exact undoing.unmarked scopeId owned fun earlier => unmarked (List.mem_append_left _ earlier)

end Situation.Undoing

open Snapshot (History stagesOf)

namespace Snapshot

variable {settings : Settings} {naming : Naming} {now : Timestamp}

/-- That nobody does anything to an instance but the run that is under way. -/
def Undisturbed (id : String) (moments : List Moment) : Prop :=
  ∀ moment ∈ moments, ∀ deed, moment.occurrence = .done id deed → ∃ move, deed = .moved move

/-- That a state has an instance whose compensation has come so far. -/
def Undoing (id : String) (program : Program) (before : Instance) (moments : List Moment)
    (state : Snapshot) : Prop :=
  ∃ situation, state.situation? id = some situation ∧
    situation.Undoing program before (Stage.movesOf (stagesOf id moments))

/-- The compensation of an instance goes on as long as nobody does anything else to it. -/
theorem History.undoing {id : String} {program : Program} {before : Instance}
    {earlier during : List Moment} {start state : Snapshot}
    (plain : program.definition.UndoesPlainly)
    (prior : History (.new settings naming now) earlier start) (later : History start during state)
    (undisturbed : Undisturbed id during) (undoing : Undoing id program before earlier start) :
    Undoing id program before (earlier ++ during) state := by
  induction later with
  | refl => simpa using undoing
  | @step during occurrence middle next rest transition inductionHypothesis =>
      have history := prior.trans rest
      obtain ⟨situation, found, known⟩ := inductionHypothesis fun moment present =>
        undisturbed moment (List.mem_append_left _ present)
      have evolves := history.evolves transition id
      rw [found] at evolves
      generalize isNext : next.situation? id = after at evolves
      rw [Undoing, ← List.append_assoc, history.movesOf_concat transition]
      cases evolves with
      | elsewhere other =>
          rw [Occurrence.extend_of_other other]
          exact ⟨situation, isNext, known⟩
      | step happened =>
          obtain ⟨move, rfl⟩ := undisturbed _ List.mem_concat_self _ rfl
          simp only [Occurrence.extend, if_true, Deed.extend]
          exact ⟨_, isNext, known.step plain (history.life found) happened⟩

end Snapshot

/-- The run that a compensation begins with. -/
def Run.ofCompensation (id : String) (program : Program) : Run :=
  ⟨id, .compensation, program, .ofTask program.compensateProcess⟩

/-- What a compensation that begins adds to a history. -/
def Snapshot.Moment.ofCompensation (id : String) (after : Snapshot) : Moment :=
  ⟨.done id (.began .compensation), after⟩

section

variable {settings : Settings} {naming : Naming} {now : Timestamp} {moments : List Snapshot.Moment}
  {state : Snapshot} {id : String} {entry : Entry}

end

/-- What the compensation of an instance leaves when it has ended with a result after executions. -/
structure Instance.Settled (definition : Definition) (steps : List (String × Role))
    (executions : List ((String × Role) × Option Result)) (result : Result) (subject : Instance) :
    Prop where
  /-- The scopes of the steps that were carried out are compensated, and the others still completed. -/
  steps : ∃ carried left, steps = carried ++ left ∧ definition.Ends carried left executions result ∧
    (∀ handlerId scopeId, (handlerId, .undoing scopeId) ∈ carried →
      subject.activityStatus? scopeId = some .compensated) ∧
    ∀ handlerId scopeId, (handlerId, .undoing scopeId) ∈ left →
      subject.activityStatus? scopeId = some .completed
  succeeded : ∀ outcome, result = .ok outcome → subject.status = .compensated
  failed : ∀ error, result = .error error → subject.status = .faulted ∧
    ∃ fault, subject.fault = some fault ∧ fault.name = "CompensationFault" ∧
      fault.data = some error.toFault.toValue

namespace Situation.Undoing

variable {before : Instance} {stages : List Stage} {situation next : Situation} {run : Run}
  {records : List Record}

/-- What is left when the compensation is concluded. -/
theorem settled (undoing : Undoing run.program before (Stage.movesOf stages) situation)
    (distinct : before.Distinct) (undone : run.program.PlainlyUndone records run.thread.result?)
    (keeps : Record.Keeps (Stage.movesOf stages) records) {result : Result}
    (ended : run.thread = .ended result) :
    (RunPurpose.compensation.settle result situation.subject).Settled run.program.definition
      (run.program.stations (before.compensationPlan run.program.definition none))
      (Record.executions records) result := by
  rw [ended] at undone
  rcases Program.carries_compensateProcess undone.unfolds with ⟨_, impossible⟩ |
    ⟨plan, rest, rfl, carries⟩
  · cases impossible
  · obtain rfl := undoing.planned _ _ _ (keeps.among_performed_iff.mp (.here List.mem_cons_self))
    have going : ¬ (Record.performed .checkHalting true).Among (_ :: rest) := fun checked =>
      undoing.going (keeps.among_performed_iff.mp checked)
    obtain ⟨carried, left, placed, ends, marks⟩ := carries.ends
      fun handler role within outcome present =>
        undone.completed (List.mem_cons_of_mem _ present) going
    have kept (scopeId : String) : (RunPurpose.compensation.settle result
        situation.subject).activityStatus? scopeId = situation.subject.activityStatus? scopeId := by
      rw [Instance.activityStatus?, RunPurpose.activityStatuses_settle, Instance.activityStatus?]
    have ofStep {handlerId scopeId : String}
        (isStep : (handlerId, .undoing scopeId) ∈ carried ++ left) :
        run.program.definition.Owned scopeId ∧ before.HasCompleted scopeId := by
      rw [← placed] at isStep
      have planned := Program.mem_plan_of_mem_stations isStep
      obtain ⟨scope, found, isScope, declared⟩ := Instance.owns_of_mem_compensationPlan planned
      have owns : scope.Owns := ⟨isScope, by rw [declared]; rfl⟩
      exact ⟨⟨scope, found, owns⟩, (Instance.mem_compensationPlan planned).1⟩
    refine ⟨⟨carried, left, placed, ends, ?_, ?_⟩, ?_, ?_⟩
    · intro handlerId scopeId isCarried
      have marked := (marks scopeId).mpr ⟨handlerId, isCarried⟩
      rw [kept]
      exact undoing.marked scopeId (ofStep (List.mem_append_left _ isCarried)).1
        (keeps.among_performed_iff.mp (.here (List.mem_cons_of_mem _ marked)))
    · intro handlerId scopeId isLeft
      obtain ⟨owned, completed⟩ := ofStep (List.mem_append_right _ isLeft)
      rw [kept, ← completed.activityStatus? distinct]
      refine undoing.unmarked scopeId owned fun marked => ?_
      have isMark := undone.mem_of_isDrastic rfl
        (keeps.among_performed_iff.mpr marked)
      have inRest : .performed (.markCompensated scopeId) () ∈ rest := by
        rcases List.mem_cons.mp isMark with impossible | inRest
        · cases impossible
        · exact inRest
      obtain ⟨otherId, isCarried⟩ := (marks scopeId).mp inRest
      have planDistinct :
          ((before.compensationPlan run.program.definition none).map
            CompensationStep.scopeId).Nodup := by
        rw [Instance.scopeIds_compensationPlan]
        exact List.nodup_reverse.mpr (Instance.nodup_undoable distinct)
      exact Program.not_mem_left planDistinct placed isLeft isCarried
    · rintro outcome rfl
      rfl
    · rintro error rfl
      exact ⟨rfl, _, rfl, rfl, rfl⟩

end Situation.Undoing

/-- That the compensation of an instance can move, or be concluded. -/
def Snapshot.Continues (id : String) (state : Snapshot) : Prop :=
  ∃ deed next, Step state (.done id deed) next ∧
    ((∃ move, deed = .moved move) ∨ ∃ result, deed = .concluded .compensation result)

namespace TwoScopes

/-- Undoes whatever it is to undo. -/
def undo : Activity := { id := "undo", kind := .empty }

/-- The scope that begins first. -/
def first : Activity := { id := "a", kind := .scope, compensationHandler := some "undo" }

/-- The scope that begins last. -/
def second : Activity := { id := "b", kind := .scope, compensationHandler := some "undo" }

/-- Runs the scopes. -/
def main : Activity := { id := "main", kind := .sequence, children := ["a", "b"] }

/-- A process with two scopes. They have handlers, and so does the process. -/
def definition : Definition :=
  { Definition.ofActivities "p" "P" "main" [main, first, second, undo] with
    compensationHandler := some "undo" }

/-- The program of the process. -/
def program : Program := ⟨definition, .default, ⟨0, 0⟩⟩

/-- The instance when it has completed. -/
def subject : Instance :=
  { Instance.new "i-1" "p" [] "oracle" with
    status := .completed
    activityStatuses := [("main", .completed), ("a", .completed), ("b", .completed)]
    log := #[⟨"a", "a", .scope, .completed, none⟩, ⟨"b", "b", .scope, .completed, none⟩,
      ⟨"main", "main", .sequence, .completed, none⟩]
    finished := true }

/-- Scopes and process share one handler. -/
theorem eq_of_isHandler {id : String} (isHandler : definition.IsHandler id) : id = "undo" := by
  cases isHandler with
  | process declared => exact (Option.some.inj declared).symm
  | @scope scopeId scope found isScope declared =>
      have present : scope ∈ definition.activities := List.mem_of_find?_eq_some found
      have known : scope ∈ [main, first, second, undo] := present
      simp only [List.mem_cons, List.not_mem_nil, or_false] at known
      rcases known with rfl | rfl | rfl | rfl
      · cases isScope
      · exact (Option.some.inj declared).symm
      · exact (Option.some.inj declared).symm
      · cases isScope

/-- The only handler refers to nothing. -/
theorem plain : definition.UndoesPlainly := by
  rintro id activity ⟨handlerId, isHandler, path⟩ found
  obtain rfl := eq_of_isHandler isHandler
  rcases path.cases_head with rfl | ⟨target, ⟨source, isSource, reference, present, _⟩, _⟩
  · obtain rfl : undo = activity := Option.some.inj found
    refine ⟨nofun, nofun, nofun, ?_⟩
    rintro ⟨impossible, _⟩
    cases impossible
  · obtain rfl : undo = source := Option.some.inj isSource
    cases present

/-- The process is deployed and executed, and its compensation is accepted. -/
theorem completed : ∃ moments state engine events,
    History (.new .default (.numbered "i-") ⟨0, 0⟩) moments state ∧ state.runs = [] ∧
      state.engine.entry? "i-1" = some ⟨definition, subject⟩ ∧
        state.engine.program definition = program ∧
          state.engine.compensate "i-1" = .ok (engine, .ofCompensation "i-1" program) ∧
            engine.scene? "i-1" = some ⟨{ subject with status := .compensating }, events⟩ := by
  have started := Engine.steps_start .default (.numbered "i-") ⟨0, 0⟩ definition "oracle" rfl rfl rfl
  obtain ⟨moments, completed⟩ := Engine.steps_conclude 0 started rfl
  exact ⟨moments, _, _, _, completed, rfl, rfl, rfl, rfl, rfl⟩

/-- The thread of the compensation comes to its end. -/
theorem undone (events : Array Event) : ∃ moves nextScene,
    Thread.Steps program ⟨{ subject with status := .compensating }, events⟩
      (.ofTask program.compensateProcess) moves nextScene (.ended (.ok .completed)) := by
  obtain ⟨moves, moved⟩ := Thread.steps_advance program 0 30
    ⟨{ subject with status := .compensating }, events⟩ (.ofTask program.compensateProcess)
  exact ⟨moves, _, moved⟩

end TwoScopes

end Orchestration
