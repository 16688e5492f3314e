import Orchestration.Engine.Step

/-!
# What operations do to the registry

The registry of an engine is its entries, the count of instances started and the naming. Of every
operation it is said here what it leaves of them; definitions, callbacks, the journal and notices are
passed over.
-/

namespace Orchestration

/-- What the end of a run with a result makes of its instance. -/
def RunPurpose.settle (purpose : RunPurpose) (result : Result) (subject : Instance) : Instance :=
  match purpose with
  | .execution => (Engine.executed result subject).1
  | .missingRoot =>
      match result with
      | .ok _ => subject
      | .error error => Engine.fail error.toFault subject
  | .compensation =>
      match result with
      | .ok _ => { subject with status := .compensated }
      | .error error => Engine.fail (Engine.compensationFault error) subject

/-- Settling an instance decides its status, its fault and whether it has ended, and nothing else. -/
theorem RunPurpose.exists_settle_eq (purpose : RunPurpose) (result : Result) (subject : Instance) :
    ∃ status fault finished, purpose.settle result subject =
      { subject with status := status, fault := fault, finished := finished } := by
  cases purpose with
  | execution =>
      simp only [settle, Engine.executed]
      split <;> split <;> exact ⟨_, _, _, rfl⟩
  | missingRoot => cases result <;> exact ⟨_, _, _, rfl⟩
  | compensation => cases result <;> exact ⟨_, _, _, rfl⟩

/-- Settling an instance keeps its id. -/
theorem RunPurpose.id_settle (purpose : RunPurpose) (result : Result) (subject : Instance) :
    (purpose.settle result subject).id = subject.id := by
  obtain ⟨_, _, _, settled⟩ := purpose.exists_settle_eq result subject
  rw [settled]

namespace Engine

/-- That one engine comes of another with some entries, and nothing was started. -/
structure Becomes (engine : Engine) (entries : List Entry) (next : Engine) : Prop where
  entries : next.entries = entries
  started : next.started = engine.started
  naming : next.naming = engine.naming

variable {engine next : Engine} {id : String}

/-- An engine comes of itself with its own entries. -/
theorem becomes_refl (engine : Engine) : engine.Becomes engine.entries engine := ⟨rfl, rfl, rfl⟩

/-- An event more changes no entry. -/
theorem Becomes.record {entries : List Entry} (becomes : engine.Becomes entries next)
    (event : Event) : engine.Becomes entries (next.record event) :=
  ⟨becomes.entries, becomes.started, becomes.naming⟩

/-- Putting an instance into an engine puts it among the entries and does nothing else. -/
theorem becomes_put (subject : Instance) (engine : Engine) :
    engine.Becomes (Entry.put subject engine.entries) (engine.put subject) := ⟨rfl, rfl, rfl⟩

/-- Callbacks are shown an instance and have no hand in the registry. -/
theorem Becomes.notify {entries : List Entry} (becomes : engine.Becomes entries next) (hook : Hook)
    (shown : Instance) : engine.Becomes entries (next.notify hook shown) := by
  have folded (callbacks : List Callback) (current : Engine)
      (currentBecomes : engine.Becomes entries current) :
      engine.Becomes entries (callbacks.foldl (call hook shown) current) := by
    induction callbacks generalizing current with
    | nil => exact currentBecomes
    | cons callback callbacks inductionHypothesis =>
        exact inductionHypothesis _
          ⟨currentBecomes.entries, currentBecomes.started, currentBecomes.naming⟩
  exact folded (next.callbacks hook) next becomes

/-- Deploying leaves the entries as they are. -/
theorem deploy_becomes {definition : Definition} (accepted : engine.deploy definition = .ok next) :
    engine.Becomes engine.entries next := by
  unfold deploy at accepted
  split at accepted
  · cases accepted
  · cases accepted
    exact ⟨rfl, rfl, rfl⟩

/-- Undeploying leaves the entries as they are. -/
theorem undeploy_becomes (accepted : engine.undeploy id = .ok next) :
    engine.Becomes engine.entries next := by
  unfold undeploy at accepted
  split at accepted
  · cases accepted
  · cases accepted
    exact ⟨rfl, rfl, rfl⟩

/-- An operation that was permitted found its instance in a status that allows it. -/
theorem permit_map_eq_ok {α : Type} {transition : Transition} {change : Entry → α} {result : α}
    (accepted : (engine.permit transition id).map change = .ok result) :
    ∃ entry, engine.entry? id = some entry ∧
      transition.isAllowedIn entry.subject.status = true ∧ change entry = result := by
  unfold permit at accepted
  cases found : engine.entry? id with
  | none => simp [found, Except.map] at accepted
  | some entry =>
      by_cases allowed : transition.isAllowedIn entry.subject.status = true
      · simp only [found, allowed, if_true, Except.map, Except.ok.injEq] at accepted
        exact ⟨entry, rfl, allowed, accepted⟩
      · simp [found, allowed, Except.map] at accepted

/-- The instance with an id is the subject of its entry. -/
theorem instance?_eq_of_entry? {entry : Entry} (found : engine.entry? id = some entry) :
    engine.instance? id = some entry.subject := by
  simp [instance?, found]

/-- The instance found under an id has that id. -/
theorem id_of_instance? {subject : Instance} (found : engine.instance? id = some subject) :
    subject.id = id := by
  obtain ⟨entry, present, rfl⟩ := Option.map_eq_some_iff.mp found
  exact Entry.id_of_find? present

/-- Only an active instance is suspended. -/
theorem suspend_becomes (accepted : engine.suspend id = .ok next) :
    ∃ subject, engine.instance? id = some subject ∧ subject.status = .active ∧
      engine.Becomes (Entry.put { subject with status := .suspended } engine.entries) next := by
  obtain ⟨entry, found, allowed, rfl⟩ := permit_map_eq_ok accepted
  refine ⟨entry.subject, instance?_eq_of_entry? found, ?_, (becomes_put _ engine).record _⟩
  simpa [Transition.isAllowedIn] using allowed

/-- Only a suspended instance is resumed. -/
theorem resume_becomes (accepted : engine.resume id = .ok next) :
    ∃ subject, engine.instance? id = some subject ∧ subject.status = .suspended ∧
      engine.Becomes (Entry.put { subject with status := .active } engine.entries) next := by
  obtain ⟨entry, found, allowed, rfl⟩ := permit_map_eq_ok accepted
  refine ⟨entry.subject, instance?_eq_of_entry? found, ?_, (becomes_put _ engine).record _⟩
  simpa [Transition.isAllowedIn] using allowed

/-- Only an instance without an end is terminated. -/
theorem terminate_becomes (accepted : engine.terminate id = .ok next) :
    ∃ subject, engine.instance? id = some subject ∧ subject.status.isTerminal = false ∧
      engine.Becomes (Entry.put (subject.finish .terminated) engine.entries) next := by
  obtain ⟨entry, found, allowed, rfl⟩ := permit_map_eq_ok accepted
  refine ⟨entry.subject, instance?_eq_of_entry? found, ?_, (becomes_put _ engine).record _⟩
  simpa [Transition.isAllowedIn] using allowed

/-- Only an instance that completed or faulted is compensated, by a run of its own. -/
theorem compensate_becomes {run : Run} (accepted : engine.compensate id = .ok (next, run)) :
    ∃ subject program, engine.instance? id = some subject ∧
      (subject.status = .completed ∨ subject.status = .faulted) ∧
      run = ⟨id, .compensation, program, .ofTask program.compensateProcess⟩ ∧
      engine.Becomes (Entry.put { subject with status := .compensating } engine.entries) next := by
  obtain ⟨entry, found, allowed, changed⟩ := permit_map_eq_ok accepted
  obtain ⟨rfl, rfl⟩ := Prod.mk.inj changed
  refine ⟨entry.subject, _, instance?_eq_of_entry? found, ?_, rfl, (becomes_put _ engine).record _⟩
  simpa [Transition.isAllowedIn] using allowed

/-- What a run leaves is put back, and nothing else. -/
theorem leave_becomes (engine : Engine) (scene : Scene) :
    engine.Becomes (Entry.put scene.subject engine.entries) (engine.leave scene) := ⟨rfl, rfl, rfl⟩

/-- The end of a run settles its instance and nothing else. -/
theorem conclude_becomes {run : Run} {subject : Instance}
    (found : engine.instance? run.instanceId = some subject) (result : Result) :
    engine.Becomes (Entry.put (run.purpose.settle result subject) engine.entries)
      (engine.conclude run result).1 := by
  unfold conclude
  rw [found]
  dsimp only
  cases run.purpose with
  | execution =>
      have settled : engine.Becomes (Entry.put (executed result subject).1 engine.entries)
          ((engine.put (executed result subject).1).record (executed result subject).2) :=
        (becomes_put _ engine).record _
      simp only [concludeExecution, RunPurpose.settle]
      split
      · exact settled.notify _ _
      · exact settled
  | missingRoot =>
      cases result with
      | ok outcome =>
          obtain ⟨entry, present, rfl⟩ := Option.map_eq_some_iff.mp found
          simp only [concludeMissingRoot, RunPurpose.settle]
          rw [Entry.put_of_find? present]
          exact becomes_refl engine
      | error error => exact (becomes_put _ engine).notify _ _
  | compensation =>
      cases result with
      | ok outcome => exact (becomes_put _ engine).record _
      | error error => exact (becomes_put _ engine).record _

/-- An instance that is started is of a deployed and enabled definition, and its run is that of the root
activity, unless there is none. -/
theorem start_cases {processId initiatedBy : String} {input : Bag} {run : Run}
    (accepted : engine.start processId input initiatedBy = .ok (next, run)) :
    ∃ definition, engine.process? processId = some definition ∧ definition.enabled = true ∧
      ((∃ root, definition.root? = some root ∧
          next = (engine.enroll definition input initiatedBy).1 ∧
          run = ⟨(engine.enroll definition input initiatedBy).2.id, .execution,
            engine.program definition, .ofTask ((engine.program definition).run root)⟩) ∨
        (definition.root? = none ∧
          (∃ event, next = (engine.enroll definition input initiatedBy).1.record event) ∧
          run = ⟨(engine.enroll definition input initiatedBy).2.id, .missingRoot,
            engine.program definition, .ended (.error (.raised (missingRootFault definition)))⟩)) := by
  unfold start at accepted
  cases found : engine.process? processId with
  | none => simp [found] at accepted
  | some definition =>
      simp only [found] at accepted
      split at accepted
      · rename_i enabled
        refine ⟨definition, rfl, enabled, ?_⟩
        split at accepted
        · rename_i root present
          obtain ⟨rfl, rfl⟩ := Prod.mk.inj (Except.ok.inj accepted)
          exact .inl ⟨root, present, rfl, rfl⟩
        · rename_i absent
          obtain ⟨rfl, rfl⟩ := Prod.mk.inj (Except.ok.inj accepted)
          exact .inr ⟨absent, ⟨_, rfl⟩, rfl⟩
      · cases accepted

/-- Starting an instance adds it to the entries, and a run of it begins. -/
theorem start_becomes {processId initiatedBy : String} {input : Bag} {run : Run}
    (accepted : engine.start processId input initiatedBy = .ok (next, run)) :
    ∃ definition subject,
      subject = Instance.new (engine.naming.name (engine.started + 1)) definition.id
        (definition.initialBag input) initiatedBy ∧
      next.entries = engine.entries ++ [⟨definition, subject⟩] ∧
      next.started = engine.started + 1 ∧ next.naming = engine.naming ∧
      run.instanceId = subject.id ∧ run.program.definition = definition ∧
      ((∃ root, definition.root? = some root ∧ run.purpose = .execution ∧
          run.thread = .ofTask (run.program.run root)) ∨
        ∃ error, run.purpose = .missingRoot ∧ run.thread = .ended (.error error)) := by
  obtain ⟨definition, _, _, ⟨root, present, rfl, rfl⟩ | ⟨_, ⟨event, rfl⟩, rfl⟩⟩ := start_cases accepted
  · exact ⟨definition, _, rfl, rfl, rfl, rfl, rfl, rfl, .inl ⟨root, present, rfl, rfl⟩⟩
  · exact ⟨definition, _, rfl, rfl, rfl, rfl, rfl, rfl, .inr ⟨_, rfl, rfl⟩⟩

end Engine

end Orchestration
