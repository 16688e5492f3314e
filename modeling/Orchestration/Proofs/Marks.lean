import Orchestration.Proofs.Replay
import Orchestration.Proofs.Stopping

/-!
# What a scope is marked for

A scope gets the status of compensated by a mark and in no other way, and every mark stands directly
behind the execution of the scope's own handler. That did not fail. But it may have been cut short, since
whoever carries out a plan looks at failures only. So a marked scope was undone entirely exactly if its
handler was not cut short.
-/

namespace Orchestration

namespace Instance

/-- The status of an activity once another, or the same, has got one. -/
theorem activityStatus?_setActivityStatus (id key : String) (status : ActivityStatus)
    (subject : Instance) :
    (subject.setActivityStatus id status).activityStatus? key =
      if id = key then some status else subject.activityStatus? key := by
  have placed (statuses : List (String × ActivityStatus)) :
      ((putStatus id status statuses).find? fun entry => entry.1 = key).map Prod.snd =
        if id = key then some status
        else (statuses.find? fun entry => entry.1 = key).map Prod.snd := by
    induction statuses with
    | nil => by_cases same : id = key <;> simp [putStatus, same]
    | cons entry rest inductionHypothesis =>
        obtain ⟨first, old⟩ := entry
        by_cases isFirst : first = id
        · subst isFirst
          by_cases same : first = key <;> simp [putStatus, same]
        · by_cases isKey : first = key
          · subst isKey
            simp [putStatus, isFirst, Ne.symm isFirst]
          · simp [putStatus, isFirst, isKey, inductionHypothesis]
  exact placed subject.activityStatuses

end Instance

/-- An activity that is compensated was so before, or has just been marked. -/
theorem Action.of_compensated {subject : Instance} {action : Action} {scopeId : String}
    (compensated : (action.perform subject).subject.activityStatus? scopeId = some .compensated) :
    subject.activityStatus? scopeId = some .compensated ∨ action = .markCompensated scopeId := by
  rcases perform_cases subject action with ⟨activity, rfl⟩ | ⟨activity, result, rfl⟩ | ⟨id, rfl⟩ |
    ⟨marked, rfl⟩ | ⟨bag, fault, unchanged⟩
  · simp only [perform, Instance.activityStatus?_setActivityStatus] at compensated
    split at compensated
    · cases compensated
    · exact .inl compensated
  · have ended : (subject.setActivityStatus activity.id (.ofResult result)).activityStatus? scopeId =
        some .compensated := compensated
    rw [Instance.activityStatus?_setActivityStatus] at ended
    split at ended
    · rcases result with _ | outcome
      · cases ended
      · cases outcome <;> cases ended
    · exact .inl ended
  · exact .inl compensated
  · simp only [perform, Instance.activityStatus?_setActivityStatus] at compensated
    split at compensated
    · rename_i same
      exact .inr (by rw [same])
    · exact .inl compensated
  · rw [unchanged] at compensated
    exact .inl compensated

/-- Only a mark makes an activity compensated. -/
theorem Situation.Step.of_compensated {situation next : Situation} {deed : Deed} {scopeId : String}
    (happened : situation.Step deed next)
    (open_ : situation.subject.activityStatus? scopeId ≠ some .compensated)
    (compensated : next.subject.activityStatus? scopeId = some .compensated) :
    deed = .moved (.performed (.markCompensated scopeId) ()) := by
  cases happened with
  | @move run scene nextScene nextThread move moved =>
      have acts := moved.acts
      cases move with
      | performed action reply =>
          obtain ⟨rfl, _⟩ := Prod.mk.inj acts
          rcases Action.of_compensated compensated with before | rfl
          · exact absurd before open_
          · rfl
      | entered call =>
          cases acts
          rcases Action.of_compensated compensated with before | impossible
          · exact absurd before open_
          · cases impossible
      | left call result =>
          cases acts
          rcases Action.of_compensated compensated with before | impossible
          · exact absurd before open_
          · cases impossible
      | silent =>
          cases acts
          exact absurd compensated open_
  | conclude =>
      rw [Instance.activityStatus?, RunPurpose.activityStatuses_settle] at compensated
      exact absurd compensated open_
  | _ => exact absurd compensated open_

/-- A mark makes a scope compensated. -/
theorem Situation.Step.compensated {situation next : Situation} {scopeId : String}
    (happened : situation.Step (.moved (.performed (.markCompensated scopeId) ())) next) :
    next.subject.activityStatus? scopeId = some .compensated := by
  cases happened with
  | @move run scene nextScene nextThread _ moved =>
      have acts := (Prod.mk.inj moved.acts).1
      rw [← acts]
      simp [Action.perform, Instance.activityStatus?_setActivityStatus]

/-- Every move of a run was made on some instance. -/
theorem Life.acts {stages : List Stage} {situation : Situation} (life : Life stages situation) :
    ∀ move ∈ Stage.movesOf stages, ∃ scene nextScene, move.Acts scene nextScene := by
  induction life with
  | born => simp [Stage.movesOf, Deed.extend]
  | @step stages situation next deed _ happened inductionHypothesis =>
      rw [Stage.movesOf_concat]
      intro move present
      rcases Deed.mem_extend present with earlier | isMove
      · exact inductionHypothesis move earlier
      · obtain rfl : deed = .moved move := isMove
        obtain ⟨scene, nextScene, _, _, acts⟩ := happened.acts
        exact ⟨scene, nextScene, acts⟩

namespace Program

variable {program : Program}

/-- The task of a run keeps to it that scopes are undone by their own handlers. -/
theorem Serves.obeys_byHandlers {purpose : RunPurpose} {task : Task}
    (serves : program.Serves purpose task) :
    task.Obeys (.byHandlers program.definition) false := by
  cases serves with
  | execution => exact (Contract.byHandlers_run program _).obeys
  | missingRoot => exact .done trivial
  | compensation => exact (Contract.byHandlers_compensateProcess program).obeys

/-- Directly before a mark stands the handler of its step, which did not fail. -/
theorem Carries.of_mark {stations : List (String × Role)} {before : List Record}
    {result? : Option Result} {scopeId : String}
    (carries : program.Carries stations (before ++ [.performed (.markCompensated scopeId) ()])
      result?) :
    ∃ earlier handler within outcome,
      before = earlier ++ [.executed handler (.undoing scopeId) within (some (.ok outcome))] := by
  generalize isWhole : before ++ [Record.performed (.markCompensated scopeId) ()] = whole at carries
  have marked : .performed (.markCompensated scopeId) () ∈ whole := isWhole ▸ List.mem_concat_self
  induction carries generalizing before with
  | finished => cases marked
  | missing => cases marked
  | failed =>
      rcases List.mem_cons.mp marked with impossible | impossible
      · cases impossible
      · cases List.mem_singleton.mp impossible
  | underway _ early =>
      rcases List.mem_cons.mp (early.subset marked) with impossible | impossible
      · cases impossible
      · cases List.mem_singleton.mp impossible
  | @carried id role stations event handler within records outcome _ _ _ inductionHypothesis =>
      rcases before with _ | ⟨first, _ | ⟨second, before⟩⟩
      · cases isWhole
      · cases isWhole
      · obtain ⟨rfl, isTail⟩ := List.cons.inj isWhole
        obtain ⟨rfl, isEnd⟩ := List.cons.inj isTail
        have later (before : List Record)
            (isRest : before ++ [.performed (.markCompensated scopeId) ()] = records) :
            ∃ earlier handler within outcome, before =
              earlier ++ [.executed handler (.undoing scopeId) within (some (.ok outcome))] :=
          inductionHypothesis isRest (isRest ▸ List.mem_concat_self)
        cases role with
        | part =>
            obtain ⟨earlier, own, inside, ended, rfl⟩ := later before isEnd
            exact ⟨_ :: _ :: earlier, own, inside, ended, rfl⟩
        | undoing other =>
            rcases before with _ | ⟨mark, before⟩
            · cases isEnd
              exact ⟨[_], handler, within, outcome, rfl⟩
            · obtain ⟨rfl, isRest⟩ := List.cons.inj isEnd
              obtain ⟨earlier, own, inside, ended, rfl⟩ := later before isRest
              exact ⟨_ :: _ :: _ :: earlier, own, inside, ended, rfl⟩

end Program

namespace Record.Owner.Does

variable {program : Program} {task : Task} {purpose : RunPurpose} {owner : Owner}
  {before : List Record} {ended? : Option Result} {scopeId : String}

/-- Wherever a scope is marked, the execution of a handler that undoes it stands directly before. -/
theorem of_mark (serves : program.Serves purpose task)
    (does : owner.Does program task (before ++ [.performed (.markCompensated scopeId) ()]) ended?) :
    ∃ earlier handler within outcome,
      before = earlier ++ [.executed handler (.undoing scopeId) within (some (.ok outcome))] := by
  -- A mark is made when a plan is carried out, after the plan was read.
  have planned {definition : Definition} {target : Option String} {plan : List CompensationStep}
      {stations : List (String × Role)} {rest : List Record}
      (placed : before ++ [.performed (.markCompensated scopeId) ()] =
        .performed (.plan definition target) plan :: rest)
      (carries : program.Carries stations rest ended?) :
      ∃ earlier handler within outcome,
        before = earlier ++ [.executed handler (.undoing scopeId) within (some (.ok outcome))] := by
    rcases before with _ | ⟨first, before⟩
    · cases placed
    · obtain ⟨rfl, rfl⟩ := List.cons.inj placed
      obtain ⟨earlier, own, inside, ended, rfl⟩ := carries.of_mark
      exact ⟨_ :: earlier, own, inside, ended, rfl⟩
  have scopes {target : Option String}
      (unfolds : (program.compensateScopes target).Unfolds program
        (before ++ [.performed (.markCompensated scopeId) ()]) ended?) :
      ∃ earlier handler within outcome,
        before = earlier ++ [.executed handler (.undoing scopeId) within (some (.ok outcome))] := by
    rcases Program.carries_compensateScopes unfolds with ⟨impossible, _⟩ | ⟨plan, rest, placed, carries⟩
    · simp at impossible
    · exact planned placed carries
  have permitted := does.permits serves List.mem_concat_self
  cases owner with
  | whole =>
      cases serves with
      | execution => cases Program.performs_run does List.mem_concat_self
      | missingRoot =>
          obtain ⟨impossible, _⟩ := does.of_done
          simp at impossible
      | compensation =>
          rcases Program.carries_compensateProcess does with ⟨impossible, _⟩ |
            ⟨plan, rest, placed, carries⟩
          · simp at impossible
          · exact planned placed carries
  | execution activity role =>
      change (program.body activity).Unfolds program _ _ at does
      unfold Program.body at does
      cases kind : activity.kind with
      | compensate =>
          rw [kind] at does
          exact scopes does
      | compensateScope =>
          rw [kind] at does
          exact scopes does
      | _ => simp [Owner.permits, ActivityKind.performs, Action.isPlain, kind] at permitted
  | side => cases permitted

end Record.Owner.Does

/-- In what a run has done, scopes are undone by their own handlers. -/
theorem Run.Recorded.allows_byHandlers {moves : List Move} {run : Run} {task : Task}
    {records : List Record} (recorded : run.Recorded moves task records)
    (acted : ∀ move ∈ moves, ∃ scene nextScene, move.Acts scene nextScene) :
    (Contract.byHandlers run.program.definition).Allows records := by
  have bodies (activity : Activity) (role : Role)
      (_ : (Contract.byHandlers run.program.definition).calls activity role) :=
    (Contract.byHandlers_body run.program activity).obeys
  have expects : (Contract.byHandlers run.program.definition).Expects records :=
    recorded.expects fun move present => by
      obtain ⟨_, _, acts⟩ := acted move present
      exact acts.expected_byHandlers
  exact (recorded.unfolds.allows bodies recorded.serves.obeys_byHandlers expects).1

/-- That a run which has made some moves marks a scope next, after what the handler of the scope did in
the execution that the mark is made for, and how that ended. -/
structure Run.Marks (moves : List Move) (scopeId : String) (handler : Activity) (within : List Record)
    (outcome : Outcome) (run next : Run) : Prop where
  own : run.program.definition.Undoes handler scopeId
  marks : ∃ path owner earlier, run.Performs moves path owner
    (earlier ++ [.executed handler (.undoing scopeId) within (some (.ok outcome))])
    (.markCompensated scopeId) () next

/-- A move that marks a scope does so after an execution of the scope's own handler. -/
theorem Life.marks {stages : List Stage} {situation next : Situation} {scopeId : String}
    (life : Life stages situation)
    (happened : situation.Step (.moved (.performed (.markCompensated scopeId) ())) next) :
    ∃ run nextRun handler within outcome, situation.run? = some run ∧ next.run? = some nextRun ∧
      run.Marks (Stage.movesOf stages) scopeId handler within outcome nextRun := by
  obtain ⟨_, run, nextRun, path, owner, before, isRun, isNextRun, performs⟩ := life.performs happened
  obtain ⟨task, ended?, serves, does⟩ := performs.does
  obtain ⟨earlier, handler, within, outcome, rfl⟩ := does.of_mark serves
  refine ⟨run, nextRun, handler, within, outcome, isRun, isNextRun, ?_, path, owner, earlier,
    performs⟩
  obtain ⟨_, _, _, _, _, recorded, _, isLevel⟩ := performs.placed
  have acted := (life.step happened).acts
  rw [Stage.movesOf_concat] at acted
  have allowed := recorded.allows_byHandlers acted handler (.undoing scopeId) within _
    (isLevel.among (.here (List.mem_append_left _ List.mem_concat_self)))
  rw [performs.same.1] at allowed
  exact allowed scopeId rfl

/-- A handler that a scope was marked for completed exactly if it was not cut short. -/
theorem Run.Marks.completed_iff {moves : List Move} {scopeId : String} {handler : Activity}
    {within : List Record} {outcome : Outcome} {run next : Run}
    (marks : run.Marks moves scopeId handler within outcome next) :
    outcome = .completed ↔ ¬ Record.Stops within := by
  obtain ⟨path, owner, earlier, performs⟩ := marks.marks
  obtain ⟨task, ended?, serves, does⟩ := performs.does
  have inside := does.inside (List.mem_append_left _ List.mem_concat_self)
  constructor
  · rintro rfl stops
    cases inside.halted_of_stops stops serves (by nofun)
  · intro entire
    cases outcome with
    | completed => rfl
    | halted => exact absurd (inside.stops_of_halted serves (by nofun)) entire

open Snapshot (History Steps stagesOf)

namespace Snapshot

/-- The status of an activity of an instance. -/
def activityStatus? (id activityId : String) (state : Snapshot) : Option ActivityStatus :=
  (state.situation? id).bind fun situation => situation.subject.activityStatus? activityId

/-- An activity of an instance becomes compensated by a mark in the run of the instance. -/
theorem Evolves.of_compensated {id scopeId : String} {before after : Option Situation}
    {occurrence : Occurrence} (evolves : Evolves id before occurrence after)
    (open_ : (before.bind fun situation => situation.subject.activityStatus? scopeId) ≠
      some .compensated)
    (compensated : (after.bind fun situation => situation.subject.activityStatus? scopeId) =
      some .compensated) :
    occurrence = .done id (.moved (.performed (.markCompensated scopeId) ())) := by
  cases evolves with
  | elsewhere => exact absurd compensated open_
  | born born =>
      cases born with
      | execution new => simp [new, Instance.new, Instance.activityStatus?] at compensated
      | missingRoot new => simp [new, Instance.new, Instance.activityStatus?] at compensated
  | step happened => rw [happened.of_compensated open_ compensated]

end Snapshot

/-- A scope is given the status of compensated, or comes to have it, by a mark, and the mark stands
behind an execution of the scope's own handler. That did not fail, and it completed exactly if it was not
cut short, by a checkpoint that found the instance suspended or terminated or by an exit. -/
theorem marked_completed_iff {settings : Settings} {naming : Naming} {now : Timestamp}
    {moments : List Snapshot.Moment} {state next : Snapshot} {occurrence : Occurrence}
    {id scopeId : String} (history : History (.new settings naming now) moments state)
    (transition : Snapshot.Step state occurrence next)
    (compensates : occurrence = .done id (.moved (.performed (.markCompensated scopeId) ())) ∨
      (state.activityStatus? id scopeId ≠ some .compensated ∧
        next.activityStatus? id scopeId = some .compensated)) :
    occurrence = .done id (.moved (.performed (.markCompensated scopeId) ())) ∧
    next.activityStatus? id scopeId = some .compensated ∧
    (∃ run nextRun handler within outcome, Run.find? id state.runs = some run ∧
      Run.find? id next.runs = some nextRun ∧
        run.Marks (Stage.movesOf (stagesOf id moments)) scopeId handler within outcome nextRun) ∧
    ∀ handler within outcome, ∀ run nextRun : Run, Run.find? id state.runs = some run →
      run.Marks (Stage.movesOf (stagesOf id moments)) scopeId handler within outcome nextRun →
        (outcome = .completed ↔ ¬ Record.Stops within) := by
  have isMark : occurrence = .done id (.moved (.performed (.markCompensated scopeId) ())) := by
    rcases compensates with isMark | ⟨open_, compensated⟩
    · exact isMark
    · exact (history.evolves transition id).of_compensated open_ compensated
  subst isMark
  obtain ⟨situation, last, isSituation, isLast, happened⟩ := history.exists_step_of_moved transition
  refine ⟨rfl, ?_, ?_, fun _ _ _ _ _ _ marks => marks.completed_iff⟩
  · simp [Snapshot.activityStatus?, isLast, happened.compensated]
  obtain ⟨run, nextRun, handler, within, outcome, isRun, isNextRun, marks⟩ :=
    (history.life isSituation).marks happened
  exact ⟨run, nextRun, handler, within, outcome,
    (Snapshot.run?_of_situation? isSituation).trans isRun,
    (Snapshot.run?_of_situation? isLast).trans isNextRun, marks⟩

namespace HaltedHandler

/-- Undoes the scope by ending the instance. -/
def undo : Activity := { id := "undo_a", kind := .exit }

/-- The scope that is marked. -/
def first : Activity := { id := "a", kind := .scope, compensationHandler := some "undo_a" }

/-- Runs the scope. -/
def main : Activity := { id := "main", kind := .sequence, children := ["a"] }

/-- A process whose only scope has a handler that exits. -/
def definition : Definition := .ofActivities "p" "P" "main" [main, first, undo]

/-- The program of the process. -/
def program : Program := ⟨definition, .default, ⟨0, 0⟩⟩

/-- The instance when its compensation begins. -/
def subject : Instance :=
  { Instance.new "i-1" "p" [] "oracle" with
    status := .compensating
    activityStatuses := [("main", .completed), ("a", .completed)]
    log := #[⟨"a", "a", .scope, .completed, none⟩, ⟨"main", "main", .sequence, .completed, none⟩]
    finished := true }

/-- What is done before the handler. -/
def beforeHandler : List Record :=
  [.performed (.plan definition none) [⟨"a", "undo_a"⟩],
    .performed (.announce (.scopeCompensating "a" "undo_a")) ()]

/-- What is done before the mark. -/
def beforeMark : List Record :=
  beforeHandler ++
    [.executed undo (.undoing "a") [.performed (.exit "undo_a") ()] (some (.ok .halted))]

/-- The handler ends halted, and the mark comes next. -/
theorem kept (events : Array Event) :
    ∃ nextScene, Thread.Kept program ⟨subject, events⟩ program.compensateProcess nextScene
      (.ready [] (.act (.markCompensated "a") fun _ => .completed)) beforeMark := by
  have kept := @Thread.Kept.refl program ⟨subject, events⟩ program.compensateProcess
  have kept := @Thread.Kept.act _ _ _ _ _ [] _ _ _ kept
  have kept := @Thread.Kept.act _ _ _ _ _ [] _ _ _ kept
  have kept := @Thread.Kept.enter _ _ _ _ _ [] _ _ _ _ kept
  have kept := @Thread.Kept.act _ _ _ _ _ [_] _ _ _ kept
  have kept := @Thread.Kept.leave _ _ _ _ _ [] _ _ _ _ _ _ kept
  exact ⟨_, kept⟩

/-- What the task of the compensation has come to then. -/
theorem follows : Thread.Follows program program.compensateProcess beforeMark
    (.ready [] (.act (.markCompensated "a") fun _ => .completed)) := by
  have undone : (program.body undo).Unfolds program [.performed (.exit "undo_a") ()]
      (some (.ok .halted)) := .act .done
  exact .act (.act (.call undone .ready))

/-- The run of the compensation. -/
def run : Run := ⟨"i-1", .compensation, program, .ofTask program.compensateProcess⟩

/-- The process is deployed and executed, and its compensation begins. -/
theorem compensating : ∃ moments engine events,
    History (.new .default (.numbered "i-") ⟨0, 0⟩) moments ⟨engine, [run]⟩ ∧
      Stage.movesOf (stagesOf "i-1" moments) = [] ∧
        engine.scene? "i-1" = some ⟨subject, events⟩ := by
  have started := Engine.steps_start .default (.numbered "i-") ⟨0, 0⟩ definition "oracle" rfl rfl rfl
  obtain ⟨earlier, completed⟩ := Engine.steps_conclude 0 started rfl
  have began := completed.step (@Snapshot.Step.compensate _ "i-1" _ [] [] _ rfl rfl)
  have fresh := began.movesOf_eq "i-1"
  rw [List.map_append, List.foldl_append] at fresh
  exact ⟨_, _, _, began, fresh, rfl⟩

/-- The mark is made after the handler was cut short by its exit. -/
theorem marked : ∃ moments state next occurrence run nextRun within,
    History (.new .default (.numbered "i-") ⟨0, 0⟩) moments state ∧
      Snapshot.Step state occurrence next ∧
        occurrence = .done "i-1" (.moved (.performed (.markCompensated "a") ())) ∧
          Run.find? "i-1" state.runs = some run ∧ Run.find? "i-1" next.runs = some nextRun ∧
            run.Marks (Stage.movesOf (stagesOf "i-1" moments)) "a" undo within .halted nextRun := by
  obtain ⟨first, engine, events, prior, fresh, present⟩ := compensating
  obtain ⟨nextScene, kept⟩ := kept events
  obtain ⟨moments, history, keeps, found⟩ :=
    @Thread.Kept.history _ _ _ _ _ run _ _ _ _ _ kept rfl prior fresh present
  have grows : Record.Grows [beforeMark] beforeMark (.performed (.markCompensated "a") ())
      (beforeMark ++ [.performed (.markCompensated "a") ()]) := .performed
  exact ⟨moments, _, _, _, _, _, _, history, @Snapshot.Step.move _ [] [] _ _ _ _ _ rfl found .act, rfl,
    rfl, rfl,
    ⟨⟨HaltedHandler.first, rfl, rfl⟩, [beforeMark], .whole, beforeHandler,
      ⟨⟨rfl, rfl⟩, rfl, _, _, _, _, ⟨.compensation, keeps, follows⟩,
        ⟨.compensation, keeps.grow grows, .act (.act (.call (.act .done) (.act .ready)))⟩,
        grows, .whole⟩⟩⟩

end HaltedHandler

/-- A scope can be marked as compensated although its handler was halted. -/
theorem exists_marked_halted :
    ∃ moments state next handler within, ∃ run nextRun : Run,
      History (.new .default (.numbered "i-") ⟨0, 0⟩) moments state ∧
        Snapshot.Step state (.done "i-1" (.moved (.performed (.markCompensated "a") ()))) next ∧
          Run.find? "i-1" state.runs = some run ∧ Run.find? "i-1" next.runs = some nextRun ∧
            run.Marks (Stage.movesOf (stagesOf "i-1" moments)) "a" handler within .halted nextRun := by
  obtain ⟨moments, state, next, _, run, nextRun, within, history, transition, rfl, isRun, isNextRun,
    marks⟩ := HaltedHandler.marked
  exact ⟨moments, state, next, HaltedHandler.undo, within, run, nextRun, history, transition, isRun,
    isNextRun, marks⟩

/-- The handler that the scope was marked for was cut short. -/
theorem exists_marked_stopped :
    ∃ moments state next handler within, ∃ run nextRun : Run,
      History (.new .default (.numbered "i-") ⟨0, 0⟩) moments state ∧
        Snapshot.Step state (.done "i-1" (.moved (.performed (.markCompensated "a") ()))) next ∧
          Run.find? "i-1" state.runs = some run ∧
            run.Marks (Stage.movesOf (stagesOf "i-1" moments)) "a" handler within .halted nextRun ∧
              next.activityStatus? "i-1" "a" = some .compensated ∧ Record.Stops within := by
  obtain ⟨moments, state, next, _, run, nextRun, within, history, transition, rfl, isRun, _, marks⟩ :=
    HaltedHandler.marked
  obtain ⟨_, compensated, _, completed_iff⟩ := marked_completed_iff history transition (.inl rfl)
  refine ⟨moments, state, next, HaltedHandler.undo, within, run, nextRun, history, transition, isRun,
    marks, compensated, ?_⟩
  have incomplete := (completed_iff HaltedHandler.undo within .halted run nextRun isRun marks).not
  exact not_not.mp (incomplete.mp (by nofun))

end Orchestration
