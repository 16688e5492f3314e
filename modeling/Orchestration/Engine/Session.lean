import Orchestration.Engine.Step

/-!
# Ends of runs, step by step

A call that starts an instance, or undoes one, returns when its run has ended, but the end is not made
known at once. The instance is settled first. Then those who wait for such an end are looked up, and shown
the instance one after another; only then the call returns. Others may act in between. What they do is not
seen by callbacks, nor by the caller: all are shown the instance as it was when it was settled.

A session is an engine with the runs that are under way in it and the ends that are still to be made known.
Its steps are the transitions of engines, but for the ends of runs, which it takes apart.
-/

namespace Orchestration

namespace Engine

/-- Settles the instance of a run that has ended. Gives what is left, the instance as it was settled and
who is to be shown it. -/
def close (run : Run) (result : Result) (engine : Engine) :
    Option (Engine × Instance × Option Hook) :=
  (engine.instance? run.instanceId).map fun subject =>
    match run.purpose with
    | .execution =>
        let (subject, event) := executed result subject
        ((engine.put subject).record event, subject, hook? event)
    | .missingRoot =>
        match result with
        | .ok _ => (engine, subject, none)
        | .error error =>
            let subject := fail error.toFault subject
            (engine.put subject, subject, some .faulted)
    | .compensation =>
        let (engine, subject) := engine.concludeCompensation result subject
        (engine, subject, none)

/-- The end of a run in one go: the instance is settled, and shown to those who wait for its end. -/
theorem conclude_of_close {run : Run} {result : Result} {engine next : Engine} {subject : Instance}
    {hook? : Option Hook} (closed : engine.close run result = some (next, subject, hook?)) :
    engine.conclude run result =
      (hook?.elim next fun hook => next.notify hook subject, some subject) := by
  obtain ⟨old, found, settled⟩ := Option.map_eq_some_iff.mp closed
  unfold conclude
  rw [found]
  cases purpose : run.purpose with
  | execution =>
      simp only [purpose] at settled
      obtain ⟨rfl, rfl, rfl⟩ := settled
      simp only [concludeExecution]
      split <;> rename_i isHook <;> simp [isHook]
  | missingRoot =>
      simp only [purpose] at settled
      cases result with
      | ok outcome =>
          obtain ⟨rfl, rfl, rfl⟩ := settled
          rfl
      | error error =>
          obtain ⟨rfl, rfl, rfl⟩ := settled
          rfl
  | compensation =>
      simp only [purpose] at settled
      obtain ⟨rfl, rfl, rfl⟩ := settled
      rfl

end Engine

/-- Those who are still to be shown how an instance ended. -/
inductive Audience where
  | nobody
  /-- The callbacks of a hook, which are still to be looked up. -/
  | awaited (hook : Hook)
  /-- Callbacks of a hook, in the order in which they are called. -/
  | listed (hook : Hook) (rest : List Callback)

/-- Those who wait for an end that belongs to a hook, or to none. -/
def Audience.of : Option Hook → Audience
  | none => .nobody
  | some hook => .awaited hook

/-- The end of a run that its caller does not know of yet. -/
structure Ending where
  instanceId : String
  purpose : RunPurpose
  /-- The instance as it was settled. -/
  subject : Instance
  audience : Audience

/-- An engine, the runs that are under way in it, and the ends that are still to be made known. -/
structure Session where
  snapshot : Snapshot
  endings : List Ending

namespace Session

/-- What a step of a session did. -/
inductive Incident where
  /-- Something that is neither the start of an instance nor the end of a run. -/
  | passed (occurrence : Occurrence)
  /-- An instance of a process was started. -/
  | started (processId instanceId : String) (purpose : RunPurpose)
  /-- The run of an instance had ended, and the instance was settled. -/
  | settled (instanceId : String) (purpose : RunPurpose) (result : Result)
  /-- The callbacks that wait for the end of an instance were looked up. -/
  | listed (instanceId : String) (hook : Hook)
  /-- A callback was shown how an instance ended. -/
  | called (instanceId : String) (hook : Hook) (callback : Callback) (shown : Instance)
  /-- The call that a run was for returned with the instance. -/
  | returned (instanceId : String) (purpose : RunPurpose) (subject : Instance)

/-- What an incident is to the engine. -/
def Incident.occurrence : Incident → Occurrence
  | .passed occurrence => occurrence
  | .started _ instanceId purpose => .done instanceId (.began purpose)
  | .settled instanceId purpose result => .done instanceId (.concluded purpose result)
  | .listed .. => .administered
  | .called .. => .administered
  | .returned .. => .administered

/-- A session in which nothing has happened yet. -/
def new (settings : Settings) (naming : Naming) (now : Timestamp) : Session :=
  ⟨.new settings naming now, []⟩

end Session

/-- That a transition starts no instance and ends no run. -/
def Occurrence.IsPassing : Occurrence → Prop
  | .done _ (.began purpose) => purpose = .compensation
  | .done _ (.concluded ..) => False
  | _ => True

namespace Session

/-- Something that can happen next. -/
inductive Step : Session → Incident → Session → Prop where
  | pass {state : Session} {occurrence : Occurrence} {next : Snapshot} (passing : occurrence.IsPassing)
      (transition : Snapshot.Step state.snapshot occurrence next) :
      Step state (.passed occurrence) ⟨next, state.endings⟩
  /-- An instance is started, and its run joins the others at some place. -/
  | start {state : Session} {processId initiatedBy : String} {input : Bag} {engine : Engine}
      {before after : List Run} {run : Run} (placed : state.snapshot.runs = before ++ after)
      (accepted : state.snapshot.engine.start processId input initiatedBy = .ok (engine, run)) :
      Step state (.started processId run.instanceId run.purpose)
        ⟨⟨engine, before ++ run :: after⟩, state.endings⟩
  /-- The instance of a run that has ended is settled. -/
  | settle {state : Session} {before after : List Run} {run : Run} {result : Result} {engine : Engine}
      {subject : Instance} {hook? : Option Hook} (placed : state.snapshot.runs = before ++ run :: after)
      (ended : run.thread = .ended result)
      (closed : state.snapshot.engine.close run result = some (engine, subject, hook?)) :
      Step state (.settled run.instanceId run.purpose result)
        ⟨⟨engine, before ++ after⟩,
          ⟨run.instanceId, run.purpose, subject, .of hook?⟩ :: state.endings⟩
  /-- The callbacks that wait for an end are looked up. -/
  | list {state : Session} {before after : List Ending} {ending : Ending} {hook : Hook}
      (placed : state.endings = before ++ ending :: after) (awaited : ending.audience = .awaited hook) :
      Step state (.listed ending.instanceId hook)
        ⟨state.snapshot, before ++
          { ending with audience := .listed hook (state.snapshot.engine.callbacks hook) } :: after⟩
  /-- The next callback is shown how an instance ended, and may accept it, fail or panic. -/
  | call {state : Session} {before after : List Ending} {ending : Ending} {hook : Hook}
      {callback : Callback} {rest : List Callback}
      (placed : state.endings = before ++ ending :: after)
      (next : ending.audience = .listed hook (callback :: rest)) :
      Step state (.called ending.instanceId hook callback ending.subject)
        ⟨⟨state.snapshot.engine.call hook ending.subject callback, state.snapshot.runs⟩,
          before ++ { ending with audience := .listed hook rest } :: after⟩
  /-- A call returns when there is nobody left who waits for its end. -/
  | answer {state : Session} {before after : List Ending} {ending : Ending}
      (placed : state.endings = before ++ ending :: after)
      (known : ending.audience = .nobody ∨ ∃ hook, ending.audience = .listed hook []) :
      Step state (.returned ending.instanceId ending.purpose ending.subject)
        ⟨state.snapshot, before ++ after⟩

/-- A step that was made: what it did and what it left. -/
structure Moment where
  incident : Incident
  after : Session

/-- Steps one after another. -/
inductive History (start : Session) : List Moment → Session → Prop where
  | refl : History start [] start
  | step {moments : List Moment} {incident : Incident} {middle next : Session}
      (prior : History start moments middle) (transition : Step middle incident next) :
      History start (moments ++ [⟨incident, next⟩]) next

/-- A history of a single step. -/
theorem History.single {state next : Session} {incident : Incident}
    (transition : Step state incident next) : History state [⟨incident, next⟩] next :=
  .step .refl transition

/-- Histories one after the other. -/
theorem History.trans {start middle next : Session} {first second : List Moment}
    (prior : History start first middle) (later : History middle second next) :
    History start (first ++ second) next := by
  induction later with
  | refl => simpa using prior
  | step _ transition inductionHypothesis =>
      simpa [List.append_assoc] using History.step inductionHypothesis transition

/-- Every moment of a history has what came before it and what followed. -/
theorem History.split {start final : Session} {first second : List Moment} {moment : Moment}
    (history : History start (first ++ moment :: second) final) :
    ∃ middle, History start first middle ∧ Step middle moment.incident moment.after ∧
      History moment.after second final := by
  generalize isAll : first ++ moment :: second = moments at history
  induction history generalizing second with
  | refl => simp at isAll
  | @step moments incident middle next prior transition inductionHypothesis =>
      rcases List.eq_nil_or_concat second with rfl | ⟨others, last, rfl⟩
      · obtain ⟨rfl, isLast⟩ := List.append_inj' isAll rfl
        cases isLast
        exact ⟨middle, prior, transition, .refl⟩
      · rw [List.concat_eq_append] at isAll ⊢
        rw [← List.cons_append, ← List.append_assoc] at isAll
        obtain ⟨same, isLast⟩ := List.append_inj' isAll rfl
        obtain ⟨between, earlier, made, later⟩ := inductionHypothesis same
        cases isLast
        exact ⟨between, earlier, made, later.step transition⟩

end Session

/-- What an engine becomes when all who wait for an end have been shown it, and nothing else happens. -/
def Ending.tell (ending : Ending) (engine : Engine) : Engine :=
  match ending.audience with
  | .nobody => engine
  | .awaited hook => engine.notify hook ending.subject
  | .listed hook rest => rest.foldl (Engine.call hook ending.subject) engine

namespace Session

/-- That a session can go on to the return of the call that an end is of. -/
def Returns (start : Session) (ending : Ending) (final : Session) : Prop :=
  ∃ moments, History start
    (moments ++ [⟨.returned ending.instanceId ending.purpose ending.subject, final⟩]) final

/-- A call that returns later on returns when something else happens before. -/
theorem Returns.after {start middle final : Session} {incident : Incident} {ending : Ending}
    (returns : Returns middle ending final) (transition : Step start incident middle) :
    Returns start ending final := by
  obtain ⟨moments, history⟩ := returns
  exact ⟨⟨incident, middle⟩ :: moments, (History.single transition).trans history⟩

variable {before after : List Ending} {engine : Engine} {runs : List Run}

/-- Once the callbacks have been looked up, each of them is called and the call returns, whatever they do
with what they are shown. -/
theorem returns_of_listed {ending : Ending} {hook : Hook} {rest : List Callback}
    (listed : ending.audience = .listed hook rest) :
    Returns ⟨⟨engine, runs⟩, before ++ ending :: after⟩ ending
      ⟨⟨ending.tell engine, runs⟩, before ++ after⟩ := by
  induction rest generalizing engine ending with
  | nil =>
      simp only [Ending.tell, listed, List.foldl_nil]
      exact ⟨[], .single (.answer rfl (.inr ⟨hook, listed⟩))⟩
  | cons callback rest inductionHypothesis =>
      have others := @inductionHypothesis (engine.call hook ending.subject callback)
        { ending with audience := .listed hook rest } rfl
      have told : Ending.tell { ending with audience := .listed hook rest }
          (engine.call hook ending.subject callback) = ending.tell engine := by
        simp only [Ending.tell, listed, List.foldl_cons]
      rw [told] at others
      exact others.after (.call rfl listed)

/-- The end of a run can be made known to its last callback, and then the call returns, whatever callbacks
do with what they are shown. -/
theorem returns_of_ending (ending : Ending) :
    Returns ⟨⟨engine, runs⟩, before ++ ending :: after⟩ ending
      ⟨⟨ending.tell engine, runs⟩, before ++ after⟩ := by
  cases audience : ending.audience with
  | nobody =>
      simp only [Ending.tell, audience]
      exact ⟨[], .single (.answer rfl (.inl audience))⟩
  | listed hook rest => exact returns_of_listed audience
  | awaited hook =>
      have listed := @returns_of_listed before after engine runs
        { ending with audience := .listed hook (engine.callbacks hook) } hook _ rfl
      have told : Ending.tell { ending with audience := .listed hook (engine.callbacks hook) } engine =
          ending.tell engine := by
        simp only [Ending.tell, audience, Engine.notify]
      rw [told] at listed
      exact listed.after (.list rfl audience)

/-- The end of a run can go through in one go, and leaves what it does when it is taken as one
transition. -/
theorem history_of_conclude {before after : List Run} {run : Run} {result : Result} {next : Engine}
    {subject : Instance} {hook? : Option Hook} {endings : List Ending}
    (ended : run.thread = .ended result)
    (closed : engine.close run result = some (next, subject, hook?)) :
    ∃ moments, History ⟨⟨engine, before ++ run :: after⟩, endings⟩ moments
      ⟨⟨(engine.conclude run result).1, before ++ after⟩, endings⟩ := by
  have settles : Step ⟨⟨engine, before ++ run :: after⟩, endings⟩
      (.settled run.instanceId run.purpose result)
      ⟨⟨next, before ++ after⟩, ⟨run.instanceId, run.purpose, subject, .of hook?⟩ :: endings⟩ :=
    .settle rfl ended closed
  obtain ⟨moments, history⟩ := (@returns_of_ending [] endings next (before ++ after)
    ⟨run.instanceId, run.purpose, subject, .of hook?⟩).after settles
  have told : Ending.tell ⟨run.instanceId, run.purpose, subject, .of hook?⟩ next =
      (engine.conclude run result).1 := by
    rw [Engine.conclude_of_close closed]
    cases hook? <;> rfl
  rw [told] at history
  exact ⟨_, history⟩

end Session

end Orchestration
