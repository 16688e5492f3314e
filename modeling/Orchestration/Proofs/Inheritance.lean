import Orchestration.Proofs.Stopping

/-!
# Who inherits a halt

An activity that is halted hands this up: whoever has called it halts too, or fails, because another branch
failed. Only a failure can be recovered from, and a halt that gave way to a failure is lost with it. So an
activity inside of which a call was halted does not complete, unless there was such a recovery on the way.

A handler that undoes a scope is not a part of this. Whoever carries out a plan looks at failures only.
-/

namespace Orchestration

/-- Results that are merged complete only if all of them did. -/
theorem Result.completed_of_merge {results : List Result} (completed : merge results = .ok .completed) :
    ∀ result ∈ results, result = .ok .completed := by
  intro result present
  rcases result with error | outcome
  · have unfailed := exists_merge_eq_ok_iff.mp ⟨_, completed⟩
    exact absurd rfl (unfailed _ present error)
  · cases outcome with
    | completed => rfl
    | halted =>
        have unfailed := exists_merge_eq_ok_iff.mp ⟨_, completed⟩
        cases completed.symm.trans (merge_eq_halted_iff.mpr ⟨present, unfailed⟩)

namespace Record

/-- That a call was halted somewhere in what was done, other than in undoing a scope. -/
inductive HasHalted : List Record → Prop where
  | here {records within : List Record} {activity : Activity}
      (present : .executed activity .part within (some (.ok .halted)) ∈ records) : HasHalted records
  | inside {records within : List Record} {activity : Activity} {ended? : Option Result}
      (present : .executed activity .part within ended? ∈ records) (halted : HasHalted within) :
      HasHalted records
  | aside {records : List Record} {sides : List (List Record × Option Result)}
      {side : List Record × Option Result} (forked : .branched sides ∈ records)
      (present : side ∈ sides) (halted : HasHalted side.1) : HasHalted records

/-- That a failure was recovered from entirely: it was caught, and the recovery activity completed. -/
def IsRecovery (error : ActivityError) (records : List Record) : Prop :=
  ∃ event handler recovery within, records = [.performed (.announce event) (),
    .performed (.catchFault handler error.toFault) (.ok ()),
    .executed recovery .part within (some (.ok .completed)), .performed .clearFault ()]

/-- That a call was halted somewhere in what was done, other than in undoing a scope, and that no failure
that the halt gave way to was recovered from on the way up from there. -/
inductive HaltStands : List Record → Prop where
  | here {records within : List Record} {activity : Activity}
      (present : .executed activity .part within (some (.ok .halted)) ∈ records) : HaltStands records
  | inside {before within after : List Record} {activity : Activity} {ended? : Option Result}
      (stands : HaltStands within)
      (unrecovered : ∀ error, ended? = some (.error error) → ¬ IsRecovery error after) :
      HaltStands (before ++ .executed activity .part within ended? :: after)
  | aside {before after : List Record} {sides : List (List Record × Option Result)}
      {side : List Record × Option Result} (present : side ∈ sides) (stands : HaltStands side.1)
      (unrecovered : ∀ error, (Record.branched sides).result? = some (.error error) →
        ¬ IsRecovery error after) : HaltStands (before ++ .branched sides :: after)

/-- A halt that stands is one. -/
theorem HaltStands.hasHalted {records : List Record} (stands : HaltStands records) :
    HasHalted records := by
  induction stands with
  | here present => exact .here present
  | inside _ _ inductionHypothesis => exact .inside List.mem_append_cons_self inductionHypothesis
  | aside present _ _ inductionHypothesis =>
      exact .aside List.mem_append_cons_self present inductionHypothesis

/-- More that is done takes nothing back. -/
theorem HasHalted.append {records : List Record} (halted : HasHalted records) (more : List Record) :
    HasHalted (records ++ more) := by
  cases halted with
  | here present => exact .here (List.mem_append_left _ present)
  | inside present halted => exact .inside (List.mem_append_left _ present) halted
  | aside forked present halted => exact .aside (List.mem_append_left _ forked) present halted

/-- Each of branches that have all ended has a result, and completed if they completed together. -/
theorem branched_side {sides : List (List Record × Option Result)}
    {side : List Record × Option Result} {ended : Result}
    (known : (Record.branched sides).result? = some ended) (present : side ∈ sides) :
    ∃ own, side.2 = some own ∧ (ended = .ok .completed → own = .ok .completed) := by
  obtain ⟨results, allEnded, merged⟩ := result?_branched_iff.mp known
  obtain ⟨own, isOwn, same⟩ := exists_result_of_side allEnded present
  refine ⟨own, same, fun completed => ?_⟩
  subst completed
  exact Result.completed_of_merge merged own isOwn

end Record

namespace Program

variable {program : Program} {handlers : List FaultHandler} {before after : List Record}
  {part : Record} {result ended : Result}

/-- What is done about a failure completes only by recovering from it entirely. -/
theorem Routes.isRecovery {error : ActivityError} {records : List Record}
    (routes : program.Routes handlers error records (some (.ok .completed))) :
    Record.IsRecovery error records := by
  cases routes with
  | passed _ ends => simp at ends
  | missing _ _ ends => simp at ends
  | unbound _ _ ends => simp at ends
  | relapsed _ _ ends => simp at ends
  | recovered _ _ ends =>
      obtain rfl : Outcome.completed = _ := by simpa using ends
      exact ⟨_, _, _, _, rfl⟩

/-- A part that did not complete keeps what it is a part of from completing, unless it failed and its
failure was recovered from. -/
theorem Handled.of_incomplete
    (handled : program.Handled handlers (before ++ part :: after) (some result))
    (isPart : part.IsPart) (stops : part.result? = some ended) (incomplete : ended ≠ .ok .completed) :
    result ≠ .ok .completed ∨ ∃ error, ended = .error error ∧ Record.IsRecovery error after := by
  obtain ⟨task, permitted, orderly, _, handles⟩ := handled
  rcases handles with ⟨unfolds, _⟩ | ⟨first, rest, error, placed, unfolds, routes⟩
  · have same := ((orderly.ordered unfolds).of_incomplete stops incomplete).2
    obtain rfl : result = ended := by simpa using same
    exact .inl incomplete
  rcases (orderly.ordered unfolds).of_incomplete_append placed stops incomplete with
    inRest | ⟨rfl, rfl, rfl⟩
  · refine .inl ?_
    rwa [routes.of_part inRest isPart stops]
  -- The part is what failed, and what follows is what was done about that.
  by_cases completed : result = .ok .completed
  · subst completed
    exact .inr ⟨error, rfl, routes.isRecovery⟩
  · exact .inl completed

end Program

namespace Record.Owner.Does

variable {program : Program} {task : Task} {purpose : RunPurpose} {owner : Owner}
  {level : List Record} {result : Result}

/-- Where a halt stands nothing completes. -/
theorem incomplete_of_haltStands (stands : HaltStands level) (serves : program.Serves purpose task)
    (executes : owner = .whole → purpose = .execution)
    (does : owner.Does program task level (some result)) : result ≠ .ok .completed := by
  induction stands generalizing owner result with
  | here present =>
      obtain ⟨before, after, rfl⟩ := List.append_of_mem present
      refine ((does.handled serves executes).of_incomplete trivial rfl nofun).resolve_right ?_
      rintro ⟨error, impossible, _⟩
      cases impossible
  | inside _ unrecovered inductionHypothesis =>
      have handled := does.handled serves executes
      obtain ⟨ended, known⟩ := handled.ended_of_mem List.mem_append_cons_self trivial
      obtain rfl : _ = some ended := known
      have incomplete := inductionHypothesis (by nofun) (does.inside List.mem_append_cons_self)
      refine (handled.of_incomplete trivial rfl incomplete).resolve_right ?_
      rintro ⟨error, rfl, recovered⟩
      exact unrecovered error rfl recovered
  | aside present _ unrecovered inductionHypothesis =>
      have handled := does.handled serves executes
      obtain ⟨ended, known⟩ := handled.ended_of_mem List.mem_append_cons_self trivial
      obtain ⟨own, isOwn, completes⟩ := branched_side known present
      have aside := does.aside serves List.mem_append_cons_self present
      rw [isOwn] at aside
      have incomplete := inductionHypothesis (by nofun) aside
      refine (handled.of_incomplete trivial known (mt completes incomplete)).resolve_right ?_
      rintro ⟨error, rfl, recovered⟩
      exact unrecovered error known recovered

end Record.Owner.Does

/-- That a run which has made some moves ends an execution next, and what was done inside of that. -/
structure Run.Leaves (moves : List Move) (call : Call) (within : List Record) (result : Result)
    (run next : Run) : Prop where
  same : next.program = run.program ∧ next.purpose = run.purpose
  placed : ∃ path before task records later owner ended?, path.getLast? = some before ∧
    run.Recorded moves task records ∧ next.Recorded (moves ++ [.left call result]) task later ∧
    Record.Grows path records (.left call result) later ∧
    Record.Level later next.thread.result? owner
      (before ++ [.executed call.activity call.role within (some result)]) ended?

/-- What was done inside of an execution that ends was done of its activity. -/
theorem Run.Leaves.does {moves : List Move} {call : Call} {within : List Record} {result : Result}
    {run next : Run} (leaves : run.Leaves moves call within result next) :
    ∃ task, run.program.Serves run.purpose task ∧
      (Record.Owner.execution call.activity call.role).Does run.program task within (some result) := by
  obtain ⟨_, _, task, _, _, _, _, _, _, recorded, _, isLevel⟩ := leaves.placed
  have does := (isLevel.does recorded.serves recorded.unfolds).inside List.mem_concat_self
  refine ⟨task, ?_, ?_⟩
  · rw [← leaves.same.1, ← leaves.same.2]
    exact recorded.serves
  · rwa [leaves.same.1] at does

/-- An execution that ends stands at its place in what its run has done. -/
theorem Life.leaves {stages : List Stage} {situation next : Situation} {call : Call}
    {result : Result} (life : Life stages situation)
    (happened : situation.Step (.moved (.left call result)) next) :
    ∃ run nextRun within, situation.run? = some run ∧ next.run? = some nextRun ∧
      run.Leaves (Stage.movesOf stages) call within result nextRun := by
  obtain ⟨run, nextRun, task, records, later, path, isRun, isNextRun, same, recorded, nextRecorded,
    grows⟩ := life.grows happened
  obtain ⟨before, record, owner, ended?, isLast, ⟨within, rfl⟩, isLevel⟩ :=
    grows.place nextRun.thread.result? nofun
  exact ⟨run, nextRun, within, isRun, isNextRun, same, path, before, task, records, later, owner,
    ended?, isLast, recorded, nextRecorded, grows, isLevel⟩

/-- That an instance gets one more entry in its log, for an activity that ended in a status. -/
def Instance.Logs (activity : Activity) (status : ActivityStatus) (subject next : Instance) : Prop :=
  ∃ entry, next.log = subject.log.push entry ∧ entry.activityId = activity.id ∧ entry.status = status

/-- An execution that ends is logged with how it did. -/
theorem Situation.Step.logs {situation next : Situation} {call : Call} {result : Result}
    (happened : situation.Step (.moved (.left call result)) next) :
    situation.subject.Logs call.activity (.ofResult result) next.subject := by
  obtain ⟨scene, nextScene, isSubject, isNext, acts⟩ := happened.acts
  rw [← isSubject, ← isNext, ← acts]
  exact ⟨_, rfl, rfl, rfl⟩

open Snapshot (History Steps stagesOf)

/-- An execution that ends is logged with how it did, and stands at its place in what its run has done. -/
theorem Snapshot.History.left {settings : Settings} {naming : Naming} {now : Timestamp}
    {moments : List Moment} {state next : Snapshot} {id : String} {call : Call} {result : Result}
    (history : History (.new settings naming now) moments state)
    (transition : Step state (.done id (.moved (.left call result))) next) :
    ∃ situation last, state.situation? id = some situation ∧ next.situation? id = some last ∧
      situation.subject.Logs call.activity (.ofResult result) last.subject ∧
        ∃ run nextRun within, situation.run? = some run ∧ last.run? = some nextRun ∧
          run.Leaves (Stage.movesOf (stagesOf id moments)) call within result nextRun := by
  obtain ⟨situation, last, isSituation, isLast, happened⟩ := history.exists_step_of_moved transition
  exact ⟨situation, last, isSituation, isLast, happened.logs,
    (history.life isSituation).leaves happened⟩

/-- An execution inside of which a call was halted, other than in undoing a scope, ends halted or with a
failure, and is logged so, unless it or a scope on the way to the call recovered from a failure that the
halt gave way to. -/
theorem halt_inherited {settings : Settings} {naming : Naming} {now : Timestamp}
    {moments : List Snapshot.Moment} {state next : Snapshot} {id : String} {call : Call}
    {result : Result} (history : History (.new settings naming now) moments state)
    (transition : Snapshot.Step state (.done id (.moved (.left call result))) next) :
    ∃ situation last, state.situation? id = some situation ∧ next.situation? id = some last ∧
      (∃ run nextRun within, situation.run? = some run ∧ last.run? = some nextRun ∧
        run.Leaves (Stage.movesOf (stagesOf id moments)) call within result nextRun) ∧
      ∀ run nextRun within, situation.run? = some run →
        run.Leaves (Stage.movesOf (stagesOf id moments)) call within result nextRun →
          Record.HaltStands within →
            (result = .ok .halted ∧
              situation.subject.Logs call.activity .interrupted last.subject) ∨
            ∃ error, result = .error error ∧
              situation.subject.Logs call.activity .faulted last.subject := by
  obtain ⟨situation, last, isSituation, isLast, logs, placed⟩ := history.left transition
  refine ⟨situation, last, isSituation, isLast, placed, ?_⟩
  intro run nextRun within _ leaves stands
  obtain ⟨task, serves, does⟩ := leaves.does
  have incomplete := does.incomplete_of_haltStands stands serves (by nofun)
  rcases result with error | outcome
  · exact .inr ⟨error, rfl, logs⟩
  · cases outcome with
    | completed => exact absurd rfl incomplete
    | halted => exact .inl ⟨rfl, logs⟩

namespace LostHalt

/-- Ends the instance. -/
def leave : Activity := { id := "leave", kind := .exit }

/-- Fails. -/
def broken : Activity := { id := "broken", kind := .throw, faultName := some "Broken" }

/-- Does both at once. -/
def both : Activity := { id := "both", kind := .flow, children := ["leave", "broken"] }

/-- Takes every fault. -/
def calm : Activity := { id := "calm", kind := .empty }

/-- Recovers from whatever fails. -/
def main : Activity :=
  { id := "main", kind := .scope, children := ["both"], faultHandlers := [⟨"*", none, "calm"⟩] }

/-- A process that is ended in one branch while the other one fails, and recovers from that. -/
def definition : Definition := .ofActivities "p" "P" "main" [main, both, leave, broken, calm]

/-- The program of the process. -/
def program : Program := ⟨definition, .default, ⟨0, 0⟩⟩

/-- What is done in both branches. -/
def sides : List (List Record × Option Result) :=
  [([.executed leave .part [.performed (.exit "leave") ()] (some (.ok .halted))],
      some (.ok .halted)),
    ([.executed broken .part [] (some (.error (.raised (Program.thrownFault broken none))))],
      some (.error (.raised (Program.thrownFault broken none))))]

/-- The exit does nothing but end the instance, and halts. -/
theorem of_leave {within : List Record} {result : Result}
    (unfolds : (program.body leave).Unfolds program within (some result)) :
    within = [.performed (.exit "leave") ()] ∧ result = .ok .halted := by
  change Task.Unfolds program (.act (.exit "leave") fun _ => .halted) within (some result) at unfolds
  cases unfolds with
  | act continues =>
      obtain ⟨rfl, rfl⟩ := continues.of_ended
      exact ⟨rfl, rfl⟩

/-- The throw does nothing but fail. -/
theorem of_broken {within : List Record} {result : Result}
    (unfolds : (program.body broken).Unfolds program within (some result)) :
    within = [] ∧ result = .error (.raised (Program.thrownFault broken none)) := by
  exact unfolds.of_ended

/-- The halt of one branch gives way to the failure of the other. -/
theorem of_both {within : List Record} {result : Result}
    (unfolds : (program.body both).Unfolds program within (some result)) :
    within = [.branched sides] ∧
      result = .error (.raised (Program.thrownFault broken none)) := by
  change Task.Unfolds program (.fork [.call leave .part .done, .call broken .part .done]
    fun results => .done (Result.merge results)) within (some result) at unfolds
  cases unfolds with
  | @fork _ _ pair results _ _ paired ended unfold continues =>
      match pair, paired, results, ended with
      | [(first, _), (second, _)], _, [firstResult, secondResult], ended =>
        obtain ⟨rfl, rfl⟩ : _ = some firstResult ∧ _ = some secondResult := by simpa using ended
        obtain ⟨_, rfl, leaves⟩ := Task.Unfolds.of_callOnly (unfold 0 _ _ rfl rfl)
        obtain ⟨_, rfl, fails⟩ := Task.Unfolds.of_callOnly (unfold 1 _ _ rfl rfl)
        obtain ⟨rfl, rfl⟩ := of_leave leaves
        obtain ⟨rfl, rfl⟩ := of_broken fails
        obtain ⟨rfl, rfl⟩ := continues.of_ended
        exact ⟨rfl, rfl⟩

/-- Nothing was done about the failure in the flow itself, and so the halt stands there. -/
theorem haltStands : Record.HaltStands [.branched sides] := by
  refine @Record.HaltStands.aside [] [] sides _ List.mem_cons_self (.here List.mem_cons_self) ?_
  rintro error _ ⟨_, _, _, _, impossible⟩
  cases impossible

/-- The only child runs unless the checkpoint before it stops the scope. -/
theorem of_children {records : List Record} {result : Result}
    (unfolds : (program.runSequence main.children).Unfolds program records (some result)) :
    result = .ok .halted ∨ Record.HasHalted records := by
  cases unfolds with
  | @act _ _ halting _ _ continues =>
      cases halting with
      | true => exact .inl continues.of_ended.2
      | false =>
          change Task.Unfolds program
            ((Task.call both .part .done).whenCompleted .completed) _ _ at continues
          cases continues with
          | call ended _ =>
              obtain ⟨rfl, rfl⟩ := of_both ended
              exact .inr (.inside (List.mem_cons_of_mem _ List.mem_cons_self) haltStands.hasHalted)

/-- If the scope completes, then only after its child was halted and failed. -/
theorem of_main {within : List Record}
    (unfolds : (program.body main).Unfolds program within (some (.ok .completed))) :
    Record.HasHalted within := by
  rcases Program.handles_body rfl unfolds with ⟨children, _⟩ | ⟨first, rest, error, rfl, children, _⟩
  · exact (of_children children).resolve_left nofun
  · exact ((of_children children).resolve_left nofun).append rest

/-- The instance when its execution begins. -/
def subject : Instance := .new "i-1" "p" [] "oracle"

/-- The run of the execution. -/
def run : Run := ⟨"i-1", .execution, program, .ofTask (program.run main)⟩

/-- The branches end, one halted and the other with a failure. -/
theorem steps_both (events : Array Event) : ∃ moves scene call calls,
    Thread.Steps program ⟨subject, events⟩ run.thread moves scene (.ready (call :: calls)
      (.done (.error (.raised (Program.thrownFault broken none))))) ∧
        call.activity = both ∧ call.role = .part := by
  obtain ⟨_, forked⟩ := Thread.steps_advance program 0 4 ⟨subject, events⟩ run.thread
  obtain ⟨_, ended⟩ := Thread.steps_advanceAll (Thread.steps_advance program 0 4) _ _ [] _ _
  have joined := (forked.trans ended).step (@Thread.Step.join _ _ _ _ _ [_, _] rfl)
  exact ⟨_, _, _, _, joined, rfl, rfl⟩

/-- The recovery has completed, and so has the scope. -/
theorem steps_main (events : Array Event) : ∃ moves scene call calls,
    Thread.Steps program ⟨subject, events⟩ run.thread moves scene
      (.ready (call :: calls) (.done (.ok .completed))) ∧
        call.activity = main ∧ call.role = .part := by
  obtain ⟨_, steps⟩ := Thread.steps_advance program 0 11 ⟨subject, events⟩ run.thread
  exact ⟨_, _, _, _, steps, rfl, rfl⟩

/-- The process is deployed, and its execution begins. -/
theorem started : ∃ moments engine events,
    History (.new .default (.numbered "i-") ⟨0, 0⟩) moments ⟨engine, [run]⟩ ∧
      engine.scene? "i-1" = some ⟨subject, events⟩ := by
  obtain ⟨moments, started⟩ :=
    Engine.steps_start .default (.numbered "i-") ⟨0, 0⟩ definition "oracle" rfl rfl rfl
  exact ⟨moments, _, _, started, rfl⟩

/-- An execution that the run comes to the end of ends in a history. -/
theorem left {activity : Activity} {result : Result}
    (ends : ∀ events, ∃ moves scene call calls,
      Thread.Steps program ⟨subject, events⟩ run.thread moves scene
        (.ready (call :: calls) (.done result)) ∧ call.activity = activity ∧ call.role = .part) :
    ∃ moments state call next, History (.new .default (.numbered "i-") ⟨0, 0⟩) moments state ∧
      Snapshot.Step state (.done "i-1" (.moved (.left call result))) next ∧
        call.activity = activity ∧
          ∀ own, Run.find? "i-1" state.runs = some own → own.program = program := by
  obtain ⟨first, engine, events, prior, present⟩ := started
  obtain ⟨moves, scene, call, calls, steps, isActivity, _⟩ := ends events
  obtain ⟨later, moved, _⟩ := @Engine.history_leave _ run _ _ _ _ [] [] present steps
  have found := Engine.scene?_leave present steps.id_eq
  refine ⟨_, _, call, _, prior.trans moved,
    @Snapshot.Step.move _ [] [] { run with thread := .ready (call :: calls) (.done result) } _ _ _ _
      rfl found .leave, isActivity, ?_⟩
  rintro own isOwn
  obtain rfl : _ = own := Option.some.inj isOwn
  rfl

end LostHalt

/-- An activity can complete although a call inside of it was halted. -/
theorem exists_halt_lost : ∃ moments state next call situation last,
    History (.new .default (.numbered "i-") ⟨0, 0⟩) moments state ∧
      Snapshot.Step state (.done "i-1" (.moved (.left call (.ok .completed)))) next ∧
        call.activity = LostHalt.main ∧
          state.situation? "i-1" = some situation ∧ next.situation? "i-1" = some last ∧
          situation.subject.Logs LostHalt.main .completed last.subject ∧
            ∃ run nextRun within, situation.run? = some run ∧
              run.Leaves (Stage.movesOf (stagesOf "i-1" moments)) call within (.ok .completed)
                nextRun ∧ Record.HasHalted within := by
  obtain ⟨moments, state, call, next, history, transition, isMain, own⟩ :=
    LostHalt.left LostHalt.steps_main
  obtain ⟨situation, last, isSituation, isLast, logs, run, nextRun, within, isRun, _, leaves⟩ :=
    history.left transition
  obtain ⟨_, _, does⟩ := leaves.does
  rw [own run ((Snapshot.run?_of_situation? isSituation).trans isRun), isMain] at does
  exact ⟨moments, state, next, call, situation, last, history, transition, isMain, isSituation,
    isLast, isMain ▸ logs, run, nextRun, within, isRun, leaves, LostHalt.of_main does⟩

/-- An activity inside of which a call was halted is logged as faulted, if another branch failed. -/
theorem exists_halt_inherited : ∃ moments state next call situation last,
    History (.new .default (.numbered "i-") ⟨0, 0⟩) moments state ∧
      Snapshot.Step state (.done "i-1" (.moved (.left call
        (.error (.raised (Program.thrownFault LostHalt.broken none)))))) next ∧
        state.situation? "i-1" = some situation ∧ next.situation? "i-1" = some last ∧
          situation.subject.Logs LostHalt.both .faulted last.subject := by
  obtain ⟨moments, state, call, next, history, transition, isBoth, own⟩ :=
    LostHalt.left LostHalt.steps_both
  obtain ⟨situation, last, isSituation, isLast, ⟨run, nextRun, within, isRun, _, leaves⟩, inherits⟩ :=
    halt_inherited history transition
  obtain ⟨_, _, does⟩ := leaves.does
  rw [own run ((Snapshot.run?_of_situation? isSituation).trans isRun), isBoth] at does
  obtain ⟨rfl, _⟩ := LostHalt.of_both does
  refine ⟨moments, state, next, call, situation, last, history, transition, isSituation, isLast, ?_⟩
  rcases inherits run nextRun _ isRun leaves LostHalt.haltStands with
    ⟨impossible, _⟩ | ⟨_, _, logs⟩
  · cases impossible
  · exact isBoth ▸ logs

end Orchestration
