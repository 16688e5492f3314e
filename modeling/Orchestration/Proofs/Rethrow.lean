import Orchestration.Proofs.Handling

/-!
# What is thrown again

The handlers of an instance share one place for the fault that is being handled. A handler that catches
a fault puts it there, whatever handlers are running, and a handler that ends without a failure clears
the place, whatever was there before. So a rethrow finds the fault of the handler that it is inside of
exactly if no other handler has caught another fault or ended since.
-/

namespace Orchestration

namespace Move

/-- That a handler catches a fault. -/
def Catches (fault : Fault) : Move → Prop
  | .performed (.catchFault _ caught) (reply : Except ActivityError Unit) =>
      reply = .ok () ∧ caught = fault
  | _ => False

/-- That a handler catches some fault, or ends. -/
def Touches : Move → Prop
  | .performed (.catchFault ..) (reply : Except ActivityError Unit) => reply = .ok ()
  | .performed .clearFault _ => True
  | _ => False

end Move

/-- Writing a variable keeps the fault that is being handled. -/
theorem Instance.fault_writeVariable (path : String) (value : Value) (subject : Instance) :
    (subject.writeVariable path value).1.fault = subject.fault := by
  unfold writeVariable
  split <;> rfl

/-- Only handlers change the fault that is being handled. -/
theorem Action.fault_perform (subject : Instance) (action : Action)
    (untouched : ¬ (Move.performed action (action.perform subject).reply).Touches) :
    (action.perform subject).subject.fault = subject.fault := by
  cases action with
  | write path value => exact Instance.fault_writeVariable path value subject
  | invoke activity =>
      simp only [perform]
      split <;> simp [Instance.fault_writeVariable]
  | receive activity =>
      simp only [perform]
      split
      · rfl
      · split
        · rfl
        · exact Instance.fault_writeVariable _ _ subject
  | catchFault handler fault =>
      cases bound : handler.bind fault subject.bag with
      | error error => simp only [perform, bound]
      | ok bag => exact absurd (by simp only [Move.Touches, perform, bound]) untouched
  | clearFault => exact absurd trivial untouched
  | _ => rfl

/-- To catch a certain fault is to catch some fault. -/
theorem Move.Catches.touches {move : Move} {fault : Fault} (catches : move.Catches fault) :
    move.Touches := by
  cases move with
  | performed action reply =>
      cases action with
      | catchFault => exact catches.1
      | _ => exact catches.elim
  | _ => exact catches.elim

/-- What a move leaves as the fault that is being handled: what it catches, or nothing if a handler ends,
or what was there. -/
theorem Move.Acts.fault_eq_iff {scene nextScene : Scene} {move : Move} {fault : Fault}
    (acts : move.Acts scene nextScene) :
    nextScene.subject.fault = some fault ↔
      move.Catches fault ∨ (scene.subject.fault = some fault ∧ ¬ move.Touches) := by
  cases move with
  | performed action reply =>
      obtain ⟨rfl, rfl⟩ := Prod.mk.inj acts
      change (action.perform scene.subject).subject.fault = some fault ↔
        (Move.performed action (action.perform scene.subject).reply).Catches fault ∨
          (scene.subject.fault = some fault ∧
            ¬ (Move.performed action (action.perform scene.subject).reply).Touches)
      by_cases touched : (Move.performed action (action.perform scene.subject).reply).Touches
      · cases action with
        | catchFault handler caught =>
            have bound : (Action.perform scene.subject (.catchFault handler caught)).reply = .ok () :=
              touched
            have leaves : (Action.perform scene.subject (.catchFault handler caught)).subject.fault =
                some caught := by
              simp only [Action.perform] at bound ⊢
              split at bound
              · cases bound
              · rfl
            simp [Catches, Touches, bound, leaves]
        | clearFault => simp [Catches, Touches, Action.perform]
        | _ => exact touched.elim
      · have uncaught : ¬ (Move.performed action (action.perform scene.subject).reply).Catches fault :=
          fun catches => touched catches.touches
        simp [Action.fault_perform scene.subject action touched, touched, uncaught]
  | entered call =>
      cases acts
      simp [Catches, Touches, Scene.perform, Action.perform, Instance.setActivityStatus]
  | left call result =>
      cases acts
      simp [Catches, Touches, Scene.perform, Action.perform, Instance.setActivityStatus]
  | silent =>
      cases acts
      simp [Catches, Touches]

namespace Situation

/-- That the fault being handled is the one that was caught last, unless a handler has ended since. Of a
run that has neither caught a fault nor ended a handler nothing is said. -/
def HandlesLast (moves : List Move) (situation : Situation) : Prop :=
  situation.run?.isSome → (∃ move ∈ moves, move.Touches) → ∀ fault,
    situation.subject.fault = some fault ↔ Since (Move.Catches fault) Move.Touches moves

/-- The fault being handled stays the one caught last, whatever happens. -/
theorem Step.handlesLast {situation next : Situation} {deed : Deed} {moves : List Move}
    (happened : situation.Step deed next) (handles : situation.HandlesLast moves) :
    next.HandlesLast (deed.extend moves) := by
  cases happened with
  | suspend => exact handles
  | resume => exact handles
  | terminate => exact handles
  | compensate =>
      rintro _ ⟨move, impossible, _⟩
      cases impossible
  | conclude => nofun
  | @move run scene nextScene nextThread move moved =>
      rintro _ ⟨other, present, touches⟩ fault
      rw [moved.acts.fault_eq_iff, Deed.extend, Since.concat_iff]
      by_cases touched : move.Touches
      · simp [touched]
      · rcases List.mem_append.mp present with earlier | isLast
        · rw [handles rfl ⟨other, earlier, touches⟩]
        · cases List.mem_singleton.mp isLast
          exact absurd touches touched

end Situation

/-- The fault being handled is the one caught last, all along the life of an instance. -/
theorem Life.handlesLast {stages : List Stage} {situation : Situation}
    (life : Life stages situation) : situation.HandlesLast (Stage.movesOf stages) := by
  induction life with
  | born =>
      rintro _ ⟨move, impossible, _⟩
      cases impossible
  | step _ happened inductionHypothesis =>
      rw [Stage.movesOf_concat]
      exact happened.handlesLast inductionHypothesis

namespace Record

/-- The fault that was caught last before a place, if the recovery of that is what follows. -/
def caught? (before : List Record) : Option Fault :=
  match before.getLast? with
  | some (.performed (.catchFault _ fault) (reply : Except ActivityError Unit)) =>
      if reply.isOk then some fault else none
  | _ => none

/-- The fault that the innermost handler caught whose recovery a place is inside of. -/
def handled? (path : List (List Record)) : Option Fault :=
  (path.filterMap caught?).getLast?

/-- A fault that is seen to have been caught was caught by a handler. -/
theorem of_caught? {before : List Record} {fault : Fault} (caught : caught? before = some fault) :
    ∃ handler, .performed (.catchFault handler fault) (.ok ()) ∈ before := by
  unfold caught? at caught
  split at caught
  · rename_i handler present reply isLast
    split at caught
    · rename_i isOk
      cases caught
      obtain ⟨⟨⟩, rfl⟩ : ∃ nothing, reply = .ok nothing := by
        cases reply with
        | ok nothing => exact ⟨nothing, rfl⟩
        | error => cases isOk
      exact ⟨handler, List.mem_of_getLast? isLast⟩
    · cases caught
  · cases caught

/-- A fault that is handled at a place was caught by a move that came to the tree. -/
theorem Keeps.exists_touches {moves : List Move} {records later : List Record} {move : Move}
    {path : List (List Record)} {fault : Fault} (kept : Keeps moves records)
    (grows : Grows path records move later) (handled : handled? path = some fault) :
    ∃ move ∈ moves, move.Touches := by
  obtain ⟨before, onPath, caught⟩ := List.mem_filterMap.mp (List.mem_of_getLast? handled)
  obtain ⟨handler, present⟩ := of_caught? caught
  exact ⟨_, kept.among_performed_iff.mp (grows.among_of_mem onPath present), rfl⟩

end Record

/-- What a rethrow fails with that read a fault, or read that there is none. -/
def ActivityError.rethrown : Option Fault → ActivityError
  | some fault => .raised fault
  | none => .nothingToRethrow

/-- A rethrow fails with a fault when it has read it. -/
theorem ActivityError.rethrown_eq_raised_iff {current : Option Fault} {fault : Fault} :
    rethrown current = .raised fault ↔ current = some fault := by
  cases current <;> simp [rethrown]

/-- A rethrow reads the current fault, once, and fails with it. -/
theorem Program.unfolds_rethrow {program : Program} {activity : Activity} {before : List Record}
    {reply : Option Fault} {result? : Option Result} (rethrows : activity.kind = .rethrow)
    (unfolds : (program.body activity).Unfolds program (before ++ [.performed .currentFault reply])
      result?) :
    before = [] ∧ (result? = none ∨ result? = some (.error (.rethrown reply))) := by
  unfold body at unfolds
  rw [rethrows] at unfolds
  generalize isWhole : before ++ [Record.performed .currentFault reply] = whole at unfolds
  cases unfolds with
  | rest => simp at isWhole
  | @act _ _ current records _ continues =>
      change Option Fault at current
      have ended : records = [] ∧
          (result? = none ∨ result? = some (.error (.rethrown current))) := by
        cases current <;> exact continues.of_done
      obtain ⟨rfl, ends⟩ := ended
      obtain ⟨isFirst, isLast⟩ := @List.append_inj' _ _ _ [] [_] isWhole rfl
      cases isLast
      exact ⟨isFirst, ends⟩

/-- Only a rethrow reads the current fault. -/
theorem Record.Owner.of_permits_currentFault {owner : Owner}
    (permitted : owner.permits .currentFault = true) :
    ∃ activity role, owner = .execution activity role ∧ activity.kind = .rethrow := by
  cases owner with
  | whole => cases permitted
  | execution activity role =>
      refine ⟨activity, role, rfl, ?_⟩
      cases kind : activity.kind with
      | rethrow => rfl
      | _ => simp [permits, ActivityKind.performs, Action.isPlain, kind] at permitted
  | side => cases permitted

/-- That a run which has made some moves reads the current fault next, inside of the execution of a
rethrow. The path has what was done before, at each level down to that execution. -/
structure Run.Rethrows (moves : List Move) (path : List (List Record)) (rethrow : Activity)
    (reply : Option Fault) (run next : Run) : Prop where
  rethrows : rethrow.kind = .rethrow
  reads : ∃ role, run.Performs moves path (.execution rethrow role) [] .currentFault reply next

/-- A move that reads the current fault reads what is there, inside of a rethrow. -/
theorem Life.rethrows {stages : List Stage} {situation next : Situation} {reply : Option Fault}
    (life : Life stages situation)
    (happened : situation.Step (.moved (.performed .currentFault reply)) next) :
    reply = situation.subject.fault ∧ ∃ run nextRun path rethrow, situation.run? = some run ∧
      next.run? = some nextRun ∧
        run.Rethrows (Stage.movesOf stages) path rethrow reply nextRun := by
  obtain ⟨effect, run, nextRun, path, owner, before, isRun, isNextRun, performs⟩ :=
    life.performs happened
  refine ⟨effect.1.symm, run, nextRun, path, ?_⟩
  obtain ⟨task, ended?, serves, does⟩ := performs.does
  obtain ⟨rethrow, role, rfl, rethrows⟩ :=
    Record.Owner.of_permits_currentFault (does.permits serves List.mem_concat_self)
  obtain ⟨rfl, _⟩ := Program.unfolds_rethrow rethrows does
  exact ⟨rethrow, isRun, isNextRun, rethrows, role, performs⟩

/-- A fault that is handled at the place of a rethrow is the current one exactly if it was caught and
nothing has changed that since. -/
theorem Life.fault_eq_iff {stages : List Stage} {situation : Situation} {run nextRun : Run}
    {path : List (List Record)} {rethrow : Activity} {reply : Option Fault} {caught : Fault}
    (life : Life stages situation) (isRun : situation.run? = some run)
    (rethrows : run.Rethrows (Stage.movesOf stages) path rethrow reply nextRun)
    (handled : Record.handled? path = some caught) :
    situation.subject.fault = some caught ↔
      Since (Move.Catches caught) Move.Touches (Stage.movesOf stages) := by
  obtain ⟨_, performs⟩ := rethrows.reads
  obtain ⟨_, records, _, _, recorded, _, grows, _⟩ := performs.placed
  exact life.handlesLast (by simp [isRun]) (recorded.keeps.exists_touches grows handled) caught

open Snapshot (History Steps stagesOf)

/-- Every read of the current fault is that of a rethrow. Inside the recovery of a handler the rethrow
fails with the fault that the innermost such handler caught exactly if, since that fault was caught last,
no handler has caught another one and none has ended. -/
theorem rethrow_fails_iff {settings : Settings} {naming : Naming} {now : Timestamp}
    {moments : List Snapshot.Moment} {state next : Snapshot} {id : String} {reply : Option Fault}
    (history : History (.new settings naming now) moments state)
    (transition : Snapshot.Step state (.done id (.moved (.performed .currentFault reply))) next) :
    (∃ run nextRun path rethrow, Run.find? id state.runs = some run ∧
      Run.find? id next.runs = some nextRun ∧
        run.Rethrows (Stage.movesOf (stagesOf id moments)) path rethrow reply nextRun) ∧
    ∀ run nextRun path rethrow caught result, Run.find? id state.runs = some run →
      run.Rethrows (Stage.movesOf (stagesOf id moments)) path rethrow reply nextRun →
      Record.handled? path = some caught →
      (run.program.body rethrow).Unfolds run.program [.performed .currentFault reply] (some result) →
        (result = .error (.raised caught) ↔
          Since (Move.Catches caught) Move.Touches (Stage.movesOf (stagesOf id moments))) := by
  obtain ⟨situation, last, isSituation, isLast, happened⟩ := history.exists_step_of_moved transition
  have life := history.life isSituation
  obtain ⟨rfl, run, nextRun, path, rethrow, isRun, isNextRun, rethrows⟩ := life.rethrows happened
  have stateRun := Snapshot.run?_of_situation? isSituation
  refine ⟨⟨run, nextRun, path, rethrow, stateRun.trans isRun,
    (Snapshot.run?_of_situation? isLast).trans isNextRun, rethrows⟩, ?_⟩
  intro run nextRun path rethrow caught result isRun rethrows handled unfolds
  obtain ⟨_, impossible | ends⟩ :=
    @Program.unfolds_rethrow _ _ [] _ _ rethrows.rethrows unfolds
  · cases impossible
  obtain rfl := Option.some.inj ends
  rw [← life.fault_eq_iff (stateRun.symm.trans isRun) rethrows handled, Except.error.injEq,
    ActivityError.rethrown_eq_raised_iff]

namespace ForgottenFault

/-- Throws a fault. -/
def broken : Activity := { id := "broken", kind := .throw, faultName := some "Broken" }

/-- Sends every fault to an activity. -/
def handler (recovery : String) : FaultHandler := ⟨Fault.wildcard, none, recovery⟩

/-- Fails, and handles its own failure. -/
def inner : Activity :=
  { id := "inner", kind := .scope, children := ["nowhere"], faultHandlers := [handler "calm"] }

/-- Recovers from the failure inside. -/
def calm : Activity := { id := "calm", kind := .empty }

/-- Throws again, after the failure inside. -/
def again : Activity := { id := "again", kind := .rethrow }

/-- Recovers from the failure of the process. -/
def mend : Activity := { id := "mend", kind := .sequence, children := ["inner", "again"] }

/-- A process whose recovery activity has a scope with a handler of its own. -/
def definition : Definition :=
  { Definition.ofActivities "p" "P" "broken" [broken, inner, calm, again, mend] with
    faultHandlers := [handler "mend"] }

/-- The program of the process. -/
def program : Program := ⟨definition, .default, ⟨0, 0⟩⟩

/-- The fault that the process handles. -/
def fault : Fault := Program.thrownFault broken none

/-- The failure inside of the recovery. -/
def failure : ActivityError := .childNotFound "nowhere"

/-- What was done before the recovery of the process. -/
def beforeMend : List Record :=
  [.executed broken .part [] (some (.error (.raised fault))),
    .performed (.announce (.processCaught "p" "Broken" "mend")) (),
    .performed (.catchFault (handler "mend") fault) (.ok ())]

/-- What the scope did that handles its own failure. -/
def withinInner : List Record :=
  [.performed .checkHalting false,
    .performed (.announce (.scopeCaught "inner" failure.toFault.name "calm")) (),
    .performed (.catchFault (handler "calm") failure.toFault) (.ok ()),
    .executed calm .part [] (some (.ok .completed)), .performed .clearFault ()]

/-- What was done in the recovery before the rethrow. -/
def beforeAgain : List Record :=
  [.performed .checkHalting false, .executed inner .part withinInner (some (.ok .completed)),
    .performed .checkHalting false]

/-- The executions that the rethrow stands in. -/
def frames : List Record.Frame := [⟨beforeAgain, again, .part⟩, ⟨beforeMend, mend, .part⟩]

/-- How the process goes on after its recovery. -/
def afterMend (result : Result) : Task :=
  (Task.done result).andThen fun outcome => .act .clearFault fun _ => .done (.ok outcome)

/-- The calls that the rethrow is inside of. -/
def calls : List Call :=
  [⟨again, .part, fun result => (Task.done result).whenCompleted .completed⟩, ⟨mend, .part, afterMend⟩]

/-- The instance when it has just been started. -/
def scene (events : Array Event) : Scene := ⟨Instance.new "i-1" "p" [] "oracle", events⟩

/-- The process gets as far as the rethrow, and no fault is known any more. -/
theorem kept (events : Array Event) :
    ∃ nextScene, Thread.Kept program (scene events) (program.run broken) nextScene
      (.ready calls Program.runRethrow) (Record.within frames []) ∧
        nextScene.subject.fault = none := by
  have kept := @Thread.Kept.refl program (scene events) (program.run broken)
  have kept := @Thread.Kept.enter _ _ _ _ _ [] _ _ _ _ kept
  have kept := @Thread.Kept.leave _ _ _ _ _ [] _ _ _ _ _ _ kept
  have kept := @Thread.Kept.act _ _ _ _ _ [] _ _ _ kept
  have kept := @Thread.Kept.act _ _ _ _ _ [] _ _ _ kept
  have kept := @Thread.Kept.enter _ _ _ _ _ [] _ _ _ _ kept
  have kept := @Thread.Kept.act _ _ _ _ _ [_] _ _ _ kept
  have kept := @Thread.Kept.enter _ _ _ _ _ [_] _ _ _ _ kept
  have kept := @Thread.Kept.act _ _ _ _ _ [_, _] _ _ _ kept
  have kept := @Thread.Kept.act _ _ _ _ _ [_, _] _ _ _ kept
  have kept := @Thread.Kept.act _ _ _ _ _ [_, _] _ _ _ kept
  have kept := @Thread.Kept.enter _ _ _ _ _ [_, _] _ _ _ _ kept
  have kept := @Thread.Kept.leave _ _ _ _ _ [_, _] _ _ _ _ _ _ kept
  have kept := @Thread.Kept.act _ _ _ _ _ [_, _] _ _ _ kept
  have kept := @Thread.Kept.leave _ _ _ _ _ [_] _ _ _ _ _ _ kept
  have kept := @Thread.Kept.act _ _ _ _ _ [_] _ _ _ kept
  have kept := @Thread.Kept.enter _ _ _ _ _ [_] _ _ _ _ kept
  exact ⟨_, kept, rfl⟩

/-- What the rethrow does stands behind what was done before it. -/
theorem follows {within : List Record} {task : Task}
    (begun : Thread.Follows program (program.body again) within (.ready [] task)) :
    Thread.Follows program (program.run broken) (Record.within frames within)
      (.ready calls task) := by
  have brokenDone : (program.body broken).Unfolds program [] (some (.error (.raised fault))) := .done
  have calmDone : (program.body calm).Unfolds program [] (some (.ok .completed)) := .done
  have innerDone : (program.body inner).Unfolds program withinInner (some (.ok .completed)) :=
    .act (.act (.act (.call calmDone (.act .done))))
  have inMend : Thread.Follows program (program.body mend)
      (beforeAgain ++ [.executed again .part within none])
      (.ready [⟨again, .part, fun result => (Task.done result).whenCompleted .completed⟩] task) :=
    .act (.call innerDone (.act (.inside begun (@Thread.Under.ready _ [] _))))
  exact .call brokenDone (.act (.act (.inside inMend (@Thread.Under.ready _ [_] _))))

/-- The run of the process. -/
def run : Run := ⟨"i-1", .execution, program, .ofTask (program.run broken)⟩

/-- The rethrow reads that there is no fault, inside of the recovery from one. -/
theorem forgotten : ∃ moments state next occurrence run nextRun path,
    History (.new .default (.numbered "i-") ⟨0, 0⟩) moments state ∧
      Snapshot.Step state occurrence next ∧
        occurrence = .done "i-1" (.moved (.performed .currentFault none)) ∧
          Run.find? "i-1" state.runs = some run ∧ Run.find? "i-1" next.runs = some nextRun ∧
            run.Rethrows (Stage.movesOf (stagesOf "i-1" moments)) path again none nextRun ∧
              Record.handled? path = some fault := by
  obtain ⟨first, engine, prior, fresh, present⟩ :=
    @History.exists_started program broken (.numbered "i-") "oracle" rfl rfl
  obtain ⟨nextScene, kept, forgot⟩ := kept engine.journal
  obtain ⟨moments, history, keeps, found⟩ :=
    @Thread.Kept.history _ _ _ _ _ run _ _ _ _ _ kept rfl prior fresh present
  have read : (nextScene.perform .currentFault).2 = none := forgot
  have reads : Thread.Step program nextScene (.ready calls Program.runRethrow)
      (.performed .currentFault none) (nextScene.perform .currentFault).1
      (.ready calls (.failed .nothingToRethrow)) := .act_of_reply read
  have grows : Record.Grows [beforeMend, beforeAgain, []] (Record.within frames [])
      (.performed .currentFault none) (Record.within frames [.performed .currentFault none]) :=
    (@Record.Grows.performed [] .currentFault none).within frames
  exact ⟨moments, _, _, _, _, _, [beforeMend, beforeAgain, []], history,
    @Snapshot.Step.move _ [] [] _ _ _ _ _ rfl found reads, rfl, rfl, rfl,
    ⟨rfl, .part, ⟨rfl, rfl⟩, rfl, _, _, _, none, ⟨.execution rfl, keeps, follows .ready⟩,
      ⟨.execution rfl, keeps.grow grows, follows (.act .ready)⟩, grows,
      .inside (.inside .whole List.mem_concat_self) List.mem_concat_self⟩, rfl⟩

end ForgottenFault

/-- A rethrow inside a recovery activity can find no fault to throw, because a scope in the same recovery
activity has handled another one. -/
theorem exists_rethrow_of_nothing :
    ∃ moments state next run nextRun path rethrow caught,
      History (.new .default (.numbered "i-") ⟨0, 0⟩) moments state ∧
        Snapshot.Step state (.done "i-1" (.moved (.performed .currentFault none))) next ∧
          Run.find? "i-1" state.runs = some run ∧ Run.find? "i-1" next.runs = some nextRun ∧
            run.Rethrows (Stage.movesOf (stagesOf "i-1" moments)) path rethrow none nextRun ∧
              Record.handled? path = some caught ∧
                (run.program.body rethrow).Unfolds run.program [.performed .currentFault none]
                  (some (.error .nothingToRethrow)) := by
  obtain ⟨moments, state, next, _, run, nextRun, path, history, transition, rfl, isRun, isNextRun,
    rethrows, handled⟩ := ForgottenFault.forgotten
  exact ⟨moments, state, next, run, nextRun, path, _, _, history, transition, isRun, isNextRun,
    rethrows, handled, .act .done⟩

/-- The fault that it should have thrown was not the one that was caught or cleared last. -/
theorem exists_caught_overtaken :
    ∃ moments state next path rethrow caught, ∃ run nextRun : Run,
      History (.new .default (.numbered "i-") ⟨0, 0⟩) moments state ∧
        Snapshot.Step state (.done "i-1" (.moved (.performed .currentFault none))) next ∧
          run.Rethrows (Stage.movesOf (stagesOf "i-1" moments)) path rethrow none nextRun ∧
            Record.handled? path = some caught ∧
              ¬ Since (Move.Catches caught) Move.Touches
                (Stage.movesOf (stagesOf "i-1" moments)) := by
  obtain ⟨moments, state, next, _, run, nextRun, path, history, transition, rfl, isRun, _, rethrows,
    handled⟩ := ForgottenFault.forgotten
  refine ⟨moments, state, next, path, _, _, run, nextRun, history, transition, rethrows, handled, ?_⟩
  rw [← (rethrow_fails_iff history transition).2 run nextRun path ForgottenFault.again _ _ isRun
    rethrows handled (.act .done)]
  nofun

end Orchestration
