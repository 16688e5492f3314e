import Orchestration.Engine.Lifecycle
import Orchestration.Execution.Step

/-!
# Transitions of engines

An engine together with the runs that are under way in it, and everything that can happen to them next:
an operation that is accepted, a move of one of the runs, or the end of a run. Nothing is said about
when, so every order is possible in which those who use an engine, and the runs in it, can act.

Starting an instance is at least two transitions, and settling it when its thread has ended is one of its
own: others may act in between. Every transition says what it did, and a history keeps that in order,
together with what each transition left.
-/

namespace Orchestration

/-- Something that happens to one instance. -/
inductive Deed where
  /-- A run of it began. -/
  | began (purpose : RunPurpose)
  | suspended
  | resumed
  | terminated
  /-- The thread of its run moved. -/
  | moved (move : Move)
  /-- Its run had ended, and it was settled. -/
  | concluded (purpose : RunPurpose) (result : Result)

/-- What a transition did. -/
inductive Occurrence where
  /-- Nothing that concerns an instance. -/
  | administered
  /-- Something happened to an instance. -/
  | done (instanceId : String) (deed : Deed)

/-- An engine and the runs that are under way in it. -/
structure Snapshot where
  engine : Engine
  runs : List Run

namespace Snapshot

/-- An engine in which nothing has happened yet. -/
def new (settings : Settings) (naming : Naming) (now : Timestamp) : Snapshot :=
  ⟨Engine.new settings naming now, []⟩

/-- Something that can happen next. -/
inductive Step : Snapshot → Occurrence → Snapshot → Prop where
  | deploy {state : Snapshot} {definition : Definition} {engine : Engine}
      (accepted : state.engine.deploy definition = .ok engine) :
      Step state .administered ⟨engine, state.runs⟩
  | undeploy {state : Snapshot} {processId : String} {engine : Engine}
      (accepted : state.engine.undeploy processId = .ok engine) :
      Step state .administered ⟨engine, state.runs⟩
  | watchCompleted {state : Snapshot} {callback : Callback} :
      Step state .administered ⟨state.engine.onCompleted callback, state.runs⟩
  | watchFaulted {state : Snapshot} {callback : Callback} :
      Step state .administered ⟨state.engine.onFaulted callback, state.runs⟩
  /-- An instance is started, and its run joins the others at some place. -/
  | start {state : Snapshot} {processId initiatedBy : String} {input : Bag} {engine : Engine}
      {before after : List Run} {run : Run} (placed : state.runs = before ++ after)
      (accepted : state.engine.start processId input initiatedBy = .ok (engine, run)) :
      Step state (.done run.instanceId (.began run.purpose)) ⟨engine, before ++ run :: after⟩
  | suspend {state : Snapshot} {instanceId : String} {engine : Engine}
      (accepted : state.engine.suspend instanceId = .ok engine) :
      Step state (.done instanceId .suspended) ⟨engine, state.runs⟩
  | resume {state : Snapshot} {instanceId : String} {engine : Engine}
      (accepted : state.engine.resume instanceId = .ok engine) :
      Step state (.done instanceId .resumed) ⟨engine, state.runs⟩
  | terminate {state : Snapshot} {instanceId : String} {engine : Engine}
      (accepted : state.engine.terminate instanceId = .ok engine) :
      Step state (.done instanceId .terminated) ⟨engine, state.runs⟩
  /-- Undoing an instance begins, and its run joins the others at some place. -/
  | compensate {state : Snapshot} {instanceId : String} {engine : Engine}
      {before after : List Run} {run : Run} (placed : state.runs = before ++ after)
      (accepted : state.engine.compensate instanceId = .ok (engine, run)) :
      Step state (.done instanceId (.began run.purpose)) ⟨engine, before ++ run :: after⟩
  /-- A run moves on its instance. -/
  | move {state : Snapshot} {before after : List Run} {run : Run} {scene nextScene : Scene}
      {nextThread : Thread} {move : Move}
      (placed : state.runs = before ++ run :: after)
      (found : state.engine.scene? run.instanceId = some scene)
      (moved : Thread.Step run.program scene run.thread move nextScene nextThread) :
      Step state (.done run.instanceId (.moved move))
        ⟨state.engine.leave nextScene, before ++ { run with thread := nextThread } :: after⟩
  /-- The instance of a run that has ended is settled. -/
  | conclude {state : Snapshot} {before after : List Run} {run : Run} {result : Result}
      (placed : state.runs = before ++ run :: after) (ended : run.thread = .ended result) :
      Step state (.done run.instanceId (.concluded run.purpose result))
        ⟨(state.engine.conclude run result).1, before ++ after⟩

/-- A transition that was made: what it did and what it left. -/
structure Moment where
  occurrence : Occurrence
  after : Snapshot

/-- Transitions one after another. -/
inductive History (start : Snapshot) : List Moment → Snapshot → Prop where
  | refl : History start [] start
  | step {moments : List Moment} {occurrence : Occurrence} {middle next : Snapshot}
      (prior : History start moments middle) (transition : Step middle occurrence next) :
      History start (moments ++ [⟨occurrence, next⟩]) next

/-- Histories one after the other. -/
theorem History.trans {start middle next : Snapshot} {first second : List Moment}
    (prior : History start first middle) (later : History middle second next) :
    History start (first ++ second) next := by
  induction later with
  | refl => simpa using prior
  | step _ transition inductionHypothesis =>
      simpa [List.append_assoc] using History.step inductionHypothesis transition

/-- That one state comes of another by transitions, whatever they do. -/
def Steps (start state : Snapshot) : Prop := ∃ moments, History start moments state

namespace Steps

/-- Without a step a state remains what it is. -/
theorem refl {state : Snapshot} : Steps state state := ⟨[], .refl⟩

/-- One more transition. -/
theorem step {start middle next : Snapshot} {occurrence : Occurrence}
    (prior : Steps start middle) (transition : Step middle occurrence next) : Steps start next := by
  obtain ⟨moments, history⟩ := prior
  exact ⟨_, history.step transition⟩

/-- Transitions after transitions. -/
theorem trans {start middle next : Snapshot} (prior : Steps start middle)
    (later : Steps middle next) : Steps start next := by
  obtain ⟨first, firstHistory⟩ := prior
  obtain ⟨second, secondHistory⟩ := later
  exact ⟨_, firstHistory.trans secondHistory⟩

/-- A single transition. -/
theorem single {state next : Snapshot} {occurrence : Occurrence}
    (transition : Step state occurrence next) : Steps state next :=
  step refl transition

end Steps

end Snapshot

namespace Engine

/-- What a run finds is the entry of its instance. -/
theorem scene?_eq_some_iff {id : String} {engine : Engine} {scene : Scene} :
    engine.scene? id = some scene ↔
      ∃ entry, Entry.find? id engine.entries = some entry ∧
        ⟨entry.subject, engine.journal⟩ = scene := by
  simp [scene?, instance?, entry?]

/-- A run that leaves what it found changes nothing. -/
theorem leave_of_scene? {id : String} {engine : Engine} {scene : Scene}
    (found : engine.scene? id = some scene) : engine.leave scene = engine := by
  obtain ⟨entry, present, rfl⟩ := scene?_eq_some_iff.mp found
  simp [leave, put, Entry.put_of_find? present]

/-- What a run leaves is what it finds next. -/
theorem scene?_leave {id : String} {engine : Engine} {scene nextScene : Scene}
    (found : engine.scene? id = some scene) (same : nextScene.subject.id = scene.subject.id) :
    (engine.leave nextScene).scene? id = some nextScene := by
  obtain ⟨entry, present, rfl⟩ := scene?_eq_some_iff.mp found
  have ownId : nextScene.subject.id = id := same.trans (Entry.id_of_find? present)
  subst ownId
  exact scene?_eq_some_iff.mpr ⟨_, Entry.find?_put_self present, rfl⟩

/-- What a run leaves takes the place of what it left before. -/
theorem leave_leave {engine : Engine} {first second : Scene}
    (same : first.subject.id = second.subject.id) :
    (engine.leave first).leave second = engine.leave second := by
  simp [leave, put, Entry.put_put engine.entries same]

/-- The moves of a thread are a history of the engine that its run is under way in. -/
theorem history_leave {engine : Engine} {run : Run} {scene nextScene : Scene}
    {nextThread : Thread} {moves : List Move} (before after : List Run)
    (found : engine.scene? run.instanceId = some scene)
    (moved : Thread.Steps run.program scene run.thread moves nextScene nextThread) :
    ∃ moments, Snapshot.History ⟨engine, before ++ run :: after⟩ moments
        ⟨engine.leave nextScene, before ++ { run with thread := nextThread } :: after⟩ ∧
      moments.map Snapshot.Moment.occurrence =
        moves.map fun move => .done run.instanceId (.moved move) := by
  induction moved with
  | refl =>
      rw [leave_of_scene? found]
      exact ⟨[], .refl, rfl⟩
  | @step _ _ middleScene nextScene middleThread nextThread prior move inductionHypothesis =>
      obtain ⟨moments, history, occurrences⟩ := inductionHypothesis
      have present : (engine.leave middleScene).scene? run.instanceId = some middleScene :=
        scene?_leave found prior.id_eq
      have transition : Snapshot.Step
          ⟨engine.leave middleScene, before ++ { run with thread := middleThread } :: after⟩
          (.done run.instanceId (.moved _))
          ⟨(engine.leave middleScene).leave nextScene,
            before ++ { run with thread := nextThread } :: after⟩ :=
        @Snapshot.Step.move _ before after { run with thread := middleThread } _ _ _ _
          rfl present move
      rw [leave_leave move.id_eq.symm] at transition
      exact ⟨_, history.step transition, by simp [occurrences]⟩

/-- The moves of a thread are transitions of the engine that its run is under way in. -/
theorem steps_leave {engine : Engine} {run : Run} {scene nextScene : Scene}
    {nextThread : Thread} {moves : List Move} (before after : List Run)
    (found : engine.scene? run.instanceId = some scene)
    (moved : Thread.Steps run.program scene run.thread moves nextScene nextThread) :
    Snapshot.Steps ⟨engine, before ++ run :: after⟩
      ⟨engine.leave nextScene, before ++ { run with thread := nextThread } :: after⟩ := by
  obtain ⟨moments, history, _⟩ := history_leave before after found moved
  exact ⟨moments, history⟩

/-- Whatever a run does at an instant, it does by transitions. -/
theorem steps_advance (now : Nat) (engine : Engine) (run : Run) (before after : List Run) :
    Snapshot.Steps ⟨engine, before ++ run :: after⟩
      ⟨(engine.advance now run).1, before ++ (engine.advance now run).2 :: after⟩ := by
  unfold advance
  cases found : engine.scene? run.instanceId with
  | none => exact .refl
  | some scene =>
      obtain ⟨_, moved⟩ :=
        Thread.steps_advance run.program now Thread.slice scene run.thread
      exact steps_leave before after found moved

/-- A definition that is deployed and enabled is started. -/
theorem start_eq_ok {definition : Definition} {root : Activity} {input : Bag}
    {initiatedBy : String} {engine : Engine} (deployed : engine.process? definition.id = some definition)
    (enabled : definition.enabled = true) (present : definition.root? = some root) :
    engine.start definition.id input initiatedBy =
      .ok ((engine.enroll definition input initiatedBy).1,
        ⟨engine.naming.name (engine.started + 1), .execution, engine.program definition,
          .ofTask ((engine.program definition).run root)⟩) := by
  simp only [start, deployed, enabled, present, if_true]
  rfl

/-- The first process of an engine is deployed and started. -/
theorem steps_start (settings : Settings) (naming : Naming) (now : Timestamp)
    (definition : Definition) (initiatedBy : String) {root : Activity} {engine : Engine}
    (deployed : (new settings naming now).deploy definition = .ok engine)
    (enabled : definition.enabled = true) (present : definition.root? = some root) :
    Snapshot.Steps (.new settings naming now)
      ⟨(engine.enroll definition [] initiatedBy).1,
        [⟨naming.name 1, .execution, engine.program definition,
          .ofTask ((engine.program definition).run root)⟩]⟩ := by
  have prior : Snapshot.Steps (.new settings naming now) ⟨engine, []⟩ :=
    .single (@Snapshot.Step.deploy _ definition engine deployed)
  cases deployed
  exact prior.step (@Snapshot.Step.start _ definition.id initiatedBy [] _ [] [] _ rfl
    (start_eq_ok (List.find?_cons_of_pos (decide_eq_true rfl)) enabled present))

/-- The only run that is under way comes to its end at an instant, and its instance is settled. -/
theorem steps_conclude {start : Snapshot} {engine : Engine} {run : Run} {result : Result} (now : Nat)
    (prior : Snapshot.Steps start ⟨engine, [run]⟩)
    (ended : (engine.advance now run).2.thread = .ended result) :
    Snapshot.Steps start
      ⟨((engine.advance now run).1.conclude (engine.advance now run).2 result).1, []⟩ :=
  (prior.trans (steps_advance now engine run [] [])).step
    (@Snapshot.Step.conclude _ [] [] _ _ rfl ended)

end Engine

end Orchestration
