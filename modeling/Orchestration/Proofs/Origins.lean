import Orchestration.Proofs.Projection

/-!
# Instances keep their definitions

An instance keeps the definition that it was started from, even when that is no longer deployed or another
one is deployed in its place. Whatever runs on the instance, its execution and all that undoes it, is of
that definition, and a run that has nothing to perform is of one without a root activity.
-/

namespace Orchestration

/-- Putting an instance into its place leaves all definitions where they are. -/
theorem Entry.definition_find?_put (subject : Instance) (id : String) (entries : List Entry) :
    (find? id (put subject entries)).map Entry.definition =
      (find? id entries).map Entry.definition := by
  induction entries with
  | nil => rfl
  | cons head rest inductionHypothesis =>
      by_cases same : head.subject.id = subject.id
      · by_cases wanted : subject.id = id <;> simp [put, find?, same, wanted]
      · by_cases wanted : head.subject.id = id
        · subst wanted
          simp [put, find?, same]
        · simpa [put, find?, same, wanted] using inductionHypothesis

namespace Engine

variable {engine next : Engine} {run : Run}

/-- Undoing an instance is of the definition that it was started from. -/
theorem definition_of_compensate {id : String} (accepted : engine.compensate id = .ok (next, run)) :
    run.instanceId = id ∧ run.purpose = .compensation ∧
      (engine.entry? id).map Entry.definition = some run.program.definition := by
  obtain ⟨entry, found, _, changed⟩ := permit_map_eq_ok accepted
  obtain ⟨_, rfl⟩ := Prod.mk.inj changed
  exact ⟨rfl, rfl, by rw [found]; rfl⟩

/-- An instance that is started has nothing to run only if its definition has no root activity. -/
theorem start_missingRoot {processId initiatedBy : String} {input : Bag}
    (accepted : engine.start processId input initiatedBy = .ok (next, run))
    (missing : run.purpose = .missingRoot) : run.program.definition.root? = none ∧
      run.thread = .ended (.error (.raised (missingRootFault run.program.definition))) := by
  obtain ⟨definition, _, _, ⟨_, _, _, rfl⟩ | ⟨absent, _, rfl⟩⟩ := start_cases accepted
  · cases missing
  · exact ⟨absent, rfl⟩

end Engine

namespace Snapshot

/-- The definition that an instance was started from. -/
def definition? (id : String) (state : Snapshot) : Option Definition :=
  (state.engine.entry? id).map Entry.definition

/-- That a run is of the definition that its instance was started from, and has something to perform
unless that has no root activity. -/
structure Serves (state : Snapshot) (run : Run) : Prop where
  definition : state.definition? run.instanceId = some run.program.definition
  missing : run.purpose = .missingRoot → run.program.definition.root? = none ∧
    run.thread = .ended (.error (.raised (Engine.missingRootFault run.program.definition)))

/-- That every run is of the definition that its instance was started from. -/
def Original (state : Snapshot) : Prop := ∀ run ∈ state.runs, state.Serves run

variable {state next : Snapshot} {engine : Engine} {runs : List Run} {occurrence : Occurrence}

/-- A run serves its instance as long as the definition of that is the same. -/
theorem Serves.of_eq {run : Run} (serves : state.Serves run)
    (same : next.definition? run.instanceId = state.definition? run.instanceId) : next.Serves run :=
  ⟨same.trans serves.definition, serves.missing⟩

/-- Where no entry is added or removed every instance keeps its definition. -/
theorem definition?_eq_of_put {subject : Instance}
    (becomes : state.engine.Becomes (Entry.put subject state.engine.entries) engine) (id : String) :
    definition? id ⟨engine, runs⟩ = state.definition? id := by
  simp only [definition?, Engine.entry?, becomes.entries]
  exact Entry.definition_find?_put subject id _

/-- Without a change of entries every instance has its definition. -/
theorem definition?_eq_of_same (becomes : state.engine.Becomes state.engine.entries engine)
    (id : String) : definition? id ⟨engine, runs⟩ = state.definition? id := by
  simp only [definition?, Engine.entry?, becomes.entries]

/-- Where instances keep their definitions, so do the runs that stay. -/
theorem Original.of_eq (original : state.Original)
    (same : ∀ id, definition? id ⟨engine, runs⟩ = state.definition? id)
    (of : ∀ run ∈ runs, run ∈ state.runs ∨ state.Serves run) :
    Original ⟨engine, runs⟩ ∧ ∀ id definition, state.definition? id = some definition →
      definition? id ⟨engine, runs⟩ = some definition := by
  refine ⟨fun run present => ?_, fun id definition known => (same id).trans known⟩
  rcases of run present with old | serves
  · exact (original run old).of_eq (same _)
  · exact serves.of_eq (same _)

/-- Starting an instance brings in its definition, and a run of it. -/
theorem Original.start {processId initiatedBy : String} {input : Bag} {before after : List Run}
    {run : Run} (original : state.Original) (valid : state.Valid)
    (placed : state.runs = before ++ after)
    (accepted : state.engine.start processId input initiatedBy = .ok (engine, run)) :
    Original ⟨engine, before ++ run :: after⟩ ∧
      ∀ id definition, state.definition? id = some definition →
        definition? id ⟨engine, before ++ run :: after⟩ = some definition := by
  obtain ⟨definition, subject, isNew, entries, _, _, isOwn, isProgram, _⟩ :=
    Engine.start_becomes accepted
  have absent : Entry.find? subject.id state.engine.entries = none := by
    have fresh := valid.instance?_fresh
    rw [isNew]
    exact Option.map_eq_none_iff.mp fresh
  have own : definition? run.instanceId ⟨engine, before ++ run :: after⟩ =
      some run.program.definition := by
    rw [isOwn, isProgram]
    simp only [Entry.find?] at absent
    simp [definition?, Engine.entry?, Entry.find?, entries, List.find?_append, absent]
  have kept (id : String) (known : Definition) (isKnown : state.definition? id = some known) :
      definition? id ⟨engine, before ++ run :: after⟩ = some known := by
    obtain ⟨entry, found, rfl⟩ := Option.map_eq_some_iff.mp isKnown
    simp only [Engine.entry?, Entry.find?] at found
    simp [definition?, Engine.entry?, Entry.find?, entries, List.find?_append, found]
  refine ⟨fun other present => ?_, kept⟩
  rcases Run.eq_or_mem_of_join placed present with rfl | old
  · exact ⟨own, Engine.start_missingRoot accepted⟩
  · exact ⟨kept _ _ (original other old).definition, (original other old).missing⟩

/-- Every instance keeps its definition, and so do the runs on it. -/
theorem Step.original (valid : state.Valid) (transition : Step state occurrence next)
    (original : state.Original) :
    next.Original ∧ ∀ id definition, state.definition? id = some definition →
      next.definition? id = some definition := by
  cases transition with
  | deploy accepted =>
      exact original.of_eq (definition?_eq_of_same (Engine.deploy_becomes accepted)) fun _ => .inl
  | undeploy accepted =>
      exact original.of_eq (definition?_eq_of_same (Engine.undeploy_becomes accepted)) fun _ => .inl
  | watchCompleted => exact original.of_eq (definition?_eq_of_same ⟨rfl, rfl, rfl⟩) fun _ => .inl
  | watchFaulted => exact original.of_eq (definition?_eq_of_same ⟨rfl, rfl, rfl⟩) fun _ => .inl
  | start placed accepted => exact original.start valid placed accepted
  | suspend accepted =>
      obtain ⟨_, _, _, becomes⟩ := Engine.suspend_becomes accepted
      exact original.of_eq (definition?_eq_of_put becomes) fun _ => .inl
  | resume accepted =>
      obtain ⟨_, _, _, becomes⟩ := Engine.resume_becomes accepted
      exact original.of_eq (definition?_eq_of_put becomes) fun _ => .inl
  | terminate accepted =>
      obtain ⟨_, _, _, becomes⟩ := Engine.terminate_becomes accepted
      exact original.of_eq (definition?_eq_of_put becomes) fun _ => .inl
  | compensate placed accepted =>
      obtain ⟨_, _, _, _, _, becomes⟩ := Engine.compensate_becomes accepted
      obtain ⟨isOwn, purpose, own⟩ := Engine.definition_of_compensate accepted
      refine original.of_eq (definition?_eq_of_put becomes) fun other present => ?_
      rcases Run.eq_or_mem_of_join placed present with rfl | old
      · exact .inr ⟨isOwn ▸ own, by rw [purpose]; nofun⟩
      · exact .inl old
  | @move before after run _ _ nextThread _ placed _ moved =>
      refine original.of_eq (definition?_eq_of_put (Engine.leave_becomes _ _)) fun other present => ?_
      rcases Run.eq_or_mem_of_join rfl present with rfl | old
      · obtain ⟨definition, missing⟩ := original run (by simp [placed])
        refine .inr ⟨definition, fun purpose => ?_⟩
        -- What has nothing to perform has ended, and does not move.
        rw [(missing purpose).2] at moved
        cases moved
      · refine .inl ?_
        rw [placed]
        simp only [List.mem_append, List.mem_cons] at old ⊢
        rcases old with earlier | later
        · exact .inl earlier
        · exact .inr (.inr later)
  | @conclude before after run result placed _ =>
      obtain ⟨subject, found⟩ := Option.isSome_iff_exists.mp (valid.enrolled run (by simp [placed]))
      refine original.of_eq (definition?_eq_of_put (Engine.conclude_becomes found result))
        fun other present => .inl ?_
      rw [placed]
      simp only [List.mem_append, List.mem_cons] at present ⊢
      rcases present with earlier | later
      · exact .inl earlier
      · exact .inr (.inr later)

variable {settings : Settings} {naming : Naming} {now : Timestamp} {moments : List Moment}

/-- In every history all runs are of the definitions that their instances were started from. -/
theorem History.original (history : History (.new settings naming now) moments state) :
    state.Original := by
  induction history with
  | refl => simp [Original, new]
  | step prior transition inductionHypothesis =>
      exact (transition.original prior.project.1 inductionHypothesis).1

/-- What a moment left of an instance is found in the state that it left. -/
theorem Moment.situation?_of_stage? {id : String} {moment : Moment} {stage : Stage}
    (isStage : moment.stage? id = some stage) : moment.after.situation? id = some stage.after := by
  unfold stage? at isStage
  split at isStage
  · cases isStage
  · split at isStage
    · obtain ⟨situation, found, rfl⟩ := Option.map_eq_some_iff.mp isStage
      exact found
    · cases isStage

/-- The run of an instance is one of the runs. -/
theorem mem_runs_of_run? {id : String} {situation : Situation} {run : Run}
    (found : state.situation? id = some situation) (isRun : situation.run? = some run) :
    run ∈ state.runs ∧ run.instanceId = id := by
  obtain ⟨subject, _, rfl⟩ := Option.map_eq_some_iff.mp found
  exact ⟨List.mem_of_find?_eq_some isRun, by simpa using List.find?_some isRun⟩

/-- An instance that something was done to has a definition. -/
theorem History.definition?_isSome {id : String} {stage : Stage}
    (history : History (.new settings naming now) moments state)
    (present : stage ∈ stagesOf id moments) : (state.definition? id).isSome = true := by
  rcases history.project.2 id with ⟨_, nothing⟩ | ⟨situation, found, _⟩
  · rw [nothing] at present
    cases present
  · obtain ⟨entry, isEntry, _⟩ := Option.map_eq_some_iff.mp (instance?_of_situation? found)
    simp [definition?, isEntry]

/-- Everything that has ever run on an instance was of the definition that it was started from. -/
theorem History.definition_eq {id : String} {definition : Definition}
    (history : History (.new settings naming now) moments state)
    (known : state.definition? id = some definition) :
    ∀ stage ∈ stagesOf id moments, ∀ run, stage.after.run? = some run →
      run.program.definition = definition := by
  induction history with
  | refl => simp [stagesOf]
  | @step moments occurrence middle next prior transition inductionHypothesis =>
      obtain ⟨original, kept⟩ := transition.original prior.project.1 prior.original
      intro stage present run isRun
      rw [stagesOf_concat] at present
      rcases List.mem_append.mp present with earlier | isLast
      · obtain ⟨before, wasKnown⟩ := Option.isSome_iff_exists.mp (prior.definition?_isSome earlier)
        obtain rfl : before = definition :=
          Option.some.inj ((kept id before wasKnown).symm.trans known)
        exact inductionHypothesis wasKnown stage earlier run isRun
      · have found := Moment.situation?_of_stage? (Option.mem_toList.mp isLast)
        obtain ⟨isOne, rfl⟩ := mem_runs_of_run? found isRun
        exact Option.some.inj ((original run isOne).definition.symm.trans known)

end Snapshot

end Orchestration
