import Orchestration.Engine.Session
import Orchestration.Proofs.Origins
import Orchestration.Scenario.Reachable

/-!
# Lives within sessions

A session takes the ends of runs apart, and is nothing else: to every instance what a step of it did is a
step of its life, and whatever engines do by transitions they do in a session. What belongs to the ends
alone is the callbacks, which no other step calls or takes away.
-/

namespace Orchestration

/-- The hook of those who wait for an instance to end in a status. -/
def InstanceStatus.hook? : InstanceStatus → Option Hook
  | .completed => some .completed
  | .faulted => some .faulted
  | _ => none

/-- That one engine comes of another, and nobody was shown anything or stopped waiting. -/
structure Engine.Quiet (engine next : Engine) : Prop where
  callbacks : ∀ hook, engine.callbacks hook <+: next.callbacks hook
  notices : next.notices = engine.notices

namespace RunPurpose

variable {purpose : RunPurpose} {result : Result} {subject : Instance}

/-- The end of a run that began with the start of an instance leaves it completed, faulted or stopped, and
faulted if there was nothing to run. -/
theorem status_settle (ofStart : purpose ≠ .compensation) (allowed : purpose.Allows subject.status)
    (fails : purpose = .missingRoot → ∃ error, result = .error error) :
    ((purpose.settle result subject).status ∈
        [InstanceStatus.completed, .faulted, .suspended, .terminated]) ∧
      (purpose = .missingRoot → (purpose.settle result subject).status = .faulted) := by
  cases purpose with
  | compensation => exact absurd rfl ofStart
  | missingRoot =>
      obtain ⟨error, rfl⟩ := fails rfl
      simp [settle, Engine.fail, Instance.finish]
  | execution =>
      refine ⟨?_, fun missing => absurd missing (by simp)⟩
      rcases allowed with active | suspended | terminated
      · cases result <;> simp [settle, Engine.executed, Engine.fail, Instance.finish, active]
      · cases result <;> simp [settle, Engine.executed, Engine.fail, Instance.finish, suspended]
      · cases result <;> simp [settle, Engine.executed, terminated]

end RunPurpose

namespace Engine

variable {engine next : Engine} {run : Run} {result : Result} {subject : Instance} {hook? : Option Hook}

/-- An engine to which nothing happens is quiet. -/
theorem Quiet.refl (engine : Engine) : engine.Quiet engine := ⟨fun _ => List.prefix_rfl, rfl⟩

/-- Quiet goes on. -/
theorem Quiet.trans {last : Engine} (quiet : engine.Quiet next) (later : next.Quiet last) :
    engine.Quiet last :=
  ⟨fun hook => (quiet.callbacks hook).trans (later.callbacks hook), later.notices.trans quiet.notices⟩

/-- Putting an instance into an engine is quiet. -/
theorem quiet_put (subject : Instance) (engine : Engine) : engine.Quiet (engine.put subject) := by
  refine ⟨fun hook => ?_, rfl⟩
  cases hook <;> exact List.prefix_rfl

/-- Recording an event is quiet. -/
theorem quiet_record (event : Event) (engine : Engine) : engine.Quiet (engine.record event) := by
  refine ⟨fun hook => ?_, rfl⟩
  cases hook <;> exact List.prefix_rfl

/-- A callback has no hand in the registry. -/
theorem becomes_call (hook : Hook) (shown : Instance) (callback : Callback) (engine : Engine) :
    engine.Becomes engine.entries (engine.call hook shown callback) := ⟨rfl, rfl, rfl⟩

/-- Putting an instance back and writing to the journal is quiet. -/
theorem quiet_put_record (subject : Instance) (event : Event) (engine : Engine) :
    engine.Quiet ((engine.put subject).record event) :=
  (quiet_put subject engine).trans (quiet_record event _)

/-- Starting an instance is quiet. -/
theorem quiet_of_start {processId initiatedBy : String} {input : Bag}
    (accepted : engine.start processId input initiatedBy = .ok (next, run)) : engine.Quiet next := by
  have enrolled (definition : Definition) : engine.Quiet (engine.enroll definition input initiatedBy).1 := by
    refine ⟨fun hook => ?_, rfl⟩
    cases hook <;> exact List.prefix_rfl
  obtain ⟨definition, _, _, ⟨_, _, rfl, _⟩ | ⟨_, ⟨event, rfl⟩, _⟩⟩ := start_cases accepted
  · exact enrolled definition
  · exact (enrolled definition).trans (quiet_record event _)

/-- What the end of a run leaves before anybody is shown it. -/
theorem close_spec (closed : engine.close run result = some (next, subject, hook?)) :
    ∃ old, engine.instance? run.instanceId = some old ∧ subject = run.purpose.settle result old ∧
      engine.Becomes (Entry.put subject engine.entries) next ∧ engine.Quiet next := by
  obtain ⟨old, found, settled⟩ := Option.map_eq_some_iff.mp closed
  refine ⟨old, found, ?_⟩
  cases purpose : run.purpose with
  | execution =>
      simp only [purpose] at settled
      obtain ⟨rfl, rfl, rfl⟩ := settled
      exact ⟨rfl, (becomes_put _ engine).record _, quiet_put_record _ _ engine⟩
  | missingRoot =>
      simp only [purpose] at settled
      cases result with
      | ok outcome =>
          obtain ⟨rfl, rfl, rfl⟩ := settled
          obtain ⟨entry, present, rfl⟩ := Option.map_eq_some_iff.mp found
          refine ⟨rfl, ?_, .refl engine⟩
          rw [Entry.put_of_find? present]
          exact becomes_refl engine
      | error error =>
          obtain ⟨rfl, rfl, rfl⟩ := settled
          exact ⟨rfl, becomes_put _ engine, quiet_put _ engine⟩
  | compensation =>
      simp only [purpose] at settled
      cases result with
      | ok outcome =>
          obtain ⟨rfl, rfl, rfl⟩ := settled
          exact ⟨rfl, (becomes_put _ engine).record _, quiet_put_record _ _ engine⟩
      | error error =>
          obtain ⟨rfl, rfl, rfl⟩ := settled
          exact ⟨rfl, (becomes_put _ engine).record _, quiet_put_record _ _ engine⟩

/-- Where the instance of a run was settled, what that left of it is found. -/
theorem Becomes.instance?_settle
    (becomes : engine.Becomes (Entry.put (run.purpose.settle result subject) engine.entries) next)
    (found : engine.instance? run.instanceId = some subject) :
    next.instance? run.instanceId = some (run.purpose.settle result subject) := by
  have same : (run.purpose.settle result subject).id = run.instanceId :=
    (RunPurpose.id_settle _ _ _).trans (id_of_instance? found)
  rw [← same] at found ⊢
  exact (@Snapshot.instance?_of_becomes ⟨engine, []⟩ _ _ _ found becomes _).trans (if_pos rfl)

/-- The instance of a run that was closed is in the engine as the close has left it. -/
theorem instance?_of_close (closed : engine.close run result = some (next, subject, hook?)) :
    next.instance? run.instanceId = some subject := by
  obtain ⟨old, found, rfl, becomes, _⟩ := close_spec closed
  exact becomes.instance?_settle found

/-- A run ends if its instance is there. -/
theorem exists_close (found : engine.instance? run.instanceId = some subject) (result : Result) :
    ∃ next settled hook?, engine.close run result = some (next, settled, hook?) := by
  unfold close
  rw [found]
  exact ⟨_, _, _, rfl⟩

/-- Nobody waits for the end of a compensation. -/
theorem hook?_of_compensation (closed : engine.close run result = some (next, subject, hook?))
    (undoes : run.purpose = .compensation) : hook? = none := by
  obtain ⟨_, _, settled⟩ := Option.map_eq_some_iff.mp closed
  simp only [undoes] at settled
  obtain ⟨_, _, rfl⟩ := settled
  rfl

/-- Who waits for the end of an instance that was started is told by the status that it ended in. -/
theorem hook?_of_close (closed : engine.close run result = some (next, subject, hook?))
    (ofStart : run.purpose ≠ .compensation)
    (allowed : ∀ old, engine.instance? run.instanceId = some old → run.purpose.Allows old.status)
    (fails : run.purpose = .missingRoot → ∃ error, result = .error error) :
    hook? = subject.status.hook? := by
  obtain ⟨old, found, settled⟩ := Option.map_eq_some_iff.mp closed
  have allowed := allowed old found
  cases purpose : run.purpose with
  | compensation => exact absurd purpose ofStart
  | missingRoot =>
      obtain ⟨error, rfl⟩ := fails purpose
      simp only [purpose] at settled
      obtain ⟨_, rfl, rfl⟩ := settled
      rfl
  | execution =>
      simp only [purpose] at settled allowed
      obtain ⟨_, rfl, rfl⟩ := settled
      rcases allowed with active | suspended | terminated
      · cases result <;>
          simp [executed, active, fail, Instance.finish, Engine.hook?, InstanceStatus.hook?]
      · cases result <;>
          simp [executed, suspended, fail, Instance.finish, Engine.hook?, InstanceStatus.hook?]
      · cases result <;> simp [executed, terminated, Engine.hook?, InstanceStatus.hook?]

end Engine

namespace Situation

/-- That a run for want of a root activity has failed already. -/
def Rootless (situation : Situation) : Prop :=
  ∀ run, situation.run? = some run → run.purpose = .missingRoot →
    ∃ error, run.thread = .ended (.error error)

/-- A run for want of a root activity remains failed. -/
theorem Step.rootless {situation next : Situation} {deed : Deed} (happened : situation.Step deed next)
    (rootless : situation.Rootless) : next.Rootless := by
  intro run isRun missing
  cases happened with
  | suspend | resume | terminate => exact rootless run isRun missing
  | compensate =>
      cases isRun
      cases missing
  | @move own _ _ _ _ moved =>
      cases isRun
      -- What has ended does not move.
      obtain ⟨error, ended⟩ := rootless own rfl missing
      rw [ended] at moved
      cases moved
  | conclude => cases isRun

end Situation

/-- A run for want of a root activity has failed from its beginning on. -/
theorem Life.rootless {stages : List Stage} {situation : Situation} (life : Life stages situation) :
    situation.Rootless := by
  induction life with
  | born born =>
      intro run isRun missing
      cases born with
      | execution =>
          cases isRun
          cases missing
      | missingRoot =>
          cases isRun
          exact ⟨_, rfl⟩
  | step _ happened inductionHypothesis => exact happened.rootless inductionHypothesis

/-- Transitions other than the ends of runs are quiet. -/
theorem Snapshot.Step.quiet {state next : Snapshot} {occurrence : Occurrence}
    (transition : Snapshot.Step state occurrence next)
    (passing : ∀ id purpose result, occurrence ≠ .done id (.concluded purpose result)) :
    state.engine.Quiet next.engine := by
  cases transition with
  | deploy accepted =>
      unfold Engine.deploy at accepted
      split at accepted
      · cases accepted
      · cases accepted
        exact ⟨fun hook => by cases hook <;> exact List.prefix_rfl, rfl⟩
  | undeploy accepted =>
      unfold Engine.undeploy at accepted
      split at accepted
      · cases accepted
      · cases accepted
        exact ⟨fun hook => by cases hook <;> exact List.prefix_rfl, rfl⟩
  | watchCompleted =>
      refine ⟨fun hook => ?_, rfl⟩
      cases hook with
      | completed => exact List.prefix_append _ _
      | faulted => exact List.prefix_rfl
  | watchFaulted =>
      refine ⟨fun hook => ?_, rfl⟩
      cases hook with
      | completed => exact List.prefix_rfl
      | faulted => exact List.prefix_append _ _
  | start _ accepted => exact Engine.quiet_of_start accepted
  | suspend accepted =>
      obtain ⟨_, _, _, rfl⟩ := Engine.permit_map_eq_ok accepted
      exact Engine.quiet_put_record _ _ _
  | resume accepted =>
      obtain ⟨_, _, _, rfl⟩ := Engine.permit_map_eq_ok accepted
      exact Engine.quiet_put_record _ _ _
  | terminate accepted =>
      obtain ⟨_, _, _, rfl⟩ := Engine.permit_map_eq_ok accepted
      exact Engine.quiet_put_record _ _ _
  | compensate _ accepted =>
      obtain ⟨_, _, _, changed⟩ := Engine.permit_map_eq_ok accepted
      obtain ⟨rfl, _⟩ := Prod.mk.inj changed
      exact Engine.quiet_put_record _ _ _
  | move =>
      refine ⟨fun hook => ?_, rfl⟩
      cases hook <;> exact List.prefix_rfl
  | conclude => exact absurd rfl (passing _ _ _)

namespace Session

variable {state next : Session} {incident : Incident}

/-- Every step is a step of the instance that it says, and leaves the others as they are. -/
theorem Step.evolves (valid : state.snapshot.Valid)
    (sound : ∀ id situation, state.snapshot.situation? id = some situation → situation.Sound)
    (transition : Step state incident next) :
    next.snapshot.Valid ∧ ∀ id, Snapshot.Evolves id (state.snapshot.situation? id) incident.occurrence
      (next.snapshot.situation? id) := by
  cases transition with
  | pass _ transition => exact transition.evolves valid sound
  | start placed accepted => exact Snapshot.evolves_of_start valid placed accepted
  | settle placed ended closed =>
      obtain ⟨old, found, rfl, becomes, _⟩ := Engine.close_spec closed
      exact Snapshot.evolves_of_settle valid placed ended found becomes
  | @call _ _ ending hook callback =>
      exact Snapshot.evolves_of_same valid (Engine.becomes_call hook ending.subject callback _)
  | list | answer => exact ⟨valid, fun id => .elsewhere (by simp [Incident.occurrence])⟩

/-- What a moment was to the engine. -/
def Moment.outer (moment : Moment) : Snapshot.Moment :=
  ⟨moment.incident.occurrence, moment.after.snapshot⟩

variable {settings : Settings} {naming : Naming} {now : Timestamp} {moments : List Moment}

/-- An instance lives its life in every session, once it has been started. -/
theorem History.project (history : History (.new settings naming now) moments state) :
    state.snapshot.Valid ∧ ∀ id,
      (state.snapshot.situation? id = none ∧ Snapshot.stagesOf id (moments.map Moment.outer) = []) ∨
        ∃ situation, state.snapshot.situation? id = some situation ∧
          Life (Snapshot.stagesOf id (moments.map Moment.outer)) situation := by
  induction history with
  | refl => exact (@Snapshot.History.refl (.new settings naming now)).project
  | @step moments incident middle next _ transition inductionHypothesis =>
      obtain ⟨valid, lives⟩ := inductionHypothesis
      obtain ⟨nextValid, evolves⟩ := transition.evolves valid (Snapshot.sound_of_lives lives)
      refine ⟨nextValid, fun id => ?_⟩
      rw [List.map_append, List.map_singleton, Snapshot.stagesOf_concat]
      exact (evolves id).life (lives id)

/-- An instance that is there has lived. -/
theorem History.life {id : String} {situation : Situation}
    (history : History (.new settings naming now) moments state)
    (found : state.snapshot.situation? id = some situation) :
    Life (Snapshot.stagesOf id (moments.map Moment.outer)) situation :=
  Snapshot.life_of_lived (history.project.2 id) found

/-- Whatever engines do by a transition, they do in a session. -/
theorem exists_history_of_step {state next : Snapshot} {occurrence : Occurrence}
    {endings : List Ending} (valid : state.Valid) (transition : Snapshot.Step state occurrence next) :
    ∃ moments, History ⟨state, endings⟩ moments ⟨next, endings⟩ := by
  have passes (passing : occurrence.IsPassing) :
      ∃ moments, History ⟨state, endings⟩ moments ⟨next, endings⟩ :=
    ⟨_, .single (@Step.pass ⟨state, endings⟩ _ _ passing transition)⟩
  cases transition with
  | start placed accepted => exact ⟨_, .single (@Step.start ⟨state, endings⟩ _ _ _ _ _ _ _ placed accepted)⟩
  | @conclude before after run result placed ended =>
      obtain ⟨subject, found⟩ :=
        Option.isSome_iff_exists.mp (valid.enrolled run (by simp [placed]))
      obtain ⟨_, _, _, closed⟩ := Engine.exists_close found result
      obtain ⟨engine, runs⟩ := state
      subst placed
      exact history_of_conclude ended closed
  | compensate _ accepted =>
      obtain ⟨_, _, _, _, rfl, _⟩ := Engine.compensate_becomes accepted
      exact passes rfl
  | _ => exact passes trivial

/-- Whatever engines do by transitions, they do in a session. -/
theorem exists_history {state : Snapshot} {moments : List Snapshot.Moment}
    (history : Snapshot.History (.new settings naming now) moments state) :
    ∃ incidents, History (.new settings naming now) incidents ⟨state, []⟩ := by
  induction history with
  | refl => exact ⟨[], .refl⟩
  | step prior transition inductionHypothesis =>
      obtain ⟨incidents, sofar⟩ := inductionHypothesis
      obtain ⟨others, goesOn⟩ := exists_history_of_step prior.project.1 transition
      exact ⟨incidents ++ others, sofar.trans goesOn⟩

/-- Whatever comes of a scenario, comes of a session. -/
theorem exists_history_of_play (time : Nat) (steps : List Orchestration.Step) :
    ∃ incidents left, History (.new settings naming now) incidents
      ⟨⟨((Engine.new settings naming now).play time steps).1, left⟩, []⟩ := by
  obtain ⟨left, moments, history⟩ := (Engine.new settings naming now).steps_play time steps
  obtain ⟨incidents, session⟩ := exists_history history
  exact ⟨incidents, left, session⟩

end Session

end Orchestration
