import Orchestration.Proofs.Situation

/-!
# Lives within histories

What happens in an engine is, for each of its instances, the life of that instance: a transition is a
step of the one instance that it says, and leaves the situations of all others as they are. What holds
of every life therefore holds of every instance in every history.
-/

namespace Orchestration

namespace Entry

/-- Where an instance is found once one has been put into its place. -/
theorem find?_put {subject : Instance} {id : String} {entries : List Entry} {present : Entry}
    (found : find? subject.id entries = some present) :
    (find? id (put subject entries)).map Entry.subject =
      if subject.id = id then some subject else (find? id entries).map Entry.subject := by
  by_cases same : subject.id = id
  · subst same
    simp [find?_put_self found]
  · simp [find?_put_of_ne entries same, same]

/-- Putting an instance into its place brings in no new id. -/
theorem mem_put {subject : Instance} {entries : List Entry} {entry : Entry}
    (present : entry ∈ put subject entries) :
    ∃ old ∈ entries, old.subject.id = entry.subject.id := by
  induction entries with
  | nil => cases present
  | cons head rest inductionHypothesis =>
      by_cases same : head.subject.id = subject.id
      · simp only [put, same, if_true, List.mem_cons] at present
        rcases present with rfl | inRest
        · exact ⟨head, by simp, same⟩
        · exact ⟨entry, by simp [inRest], rfl⟩
      · simp only [put, same, if_false, List.mem_cons] at present
        rcases present with rfl | inRest
        · exact ⟨entry, by simp, rfl⟩
        · obtain ⟨old, oldPresent, sameId⟩ := inductionHypothesis inRest
          exact ⟨old, by simp [oldPresent], sameId⟩

end Entry

/-- The run of an instance. -/
def Run.find? (id : String) (runs : List Run) : Option Run :=
  runs.find? fun run => run.instanceId = id

/-- Where a run is found among others that are not of its instance. -/
theorem Run.find?_middle {id : String} {before after : List Run} {run : Run}
    (distinct : ((before ++ run :: after).map Run.instanceId).Nodup) :
    Run.find? id (before ++ run :: after) =
      if run.instanceId = id then some run else Run.find? id (before ++ after) := by
  by_cases same : run.instanceId = id
  · have absent : ∀ other ∈ before, other.instanceId ≠ id := by
      intro other present isSame
      simp only [List.map_append, List.map_cons, List.nodup_append] at distinct
      exact distinct.2.2 other.instanceId (List.mem_map_of_mem present) run.instanceId (by simp)
        (isSame.trans same.symm)
    have nothing : before.find? (fun run => run.instanceId = id) = none := by
      simpa using absent
    simp [find?, same, nothing]
  · simp [find?, same, List.find?_append]

/-- A run that joins others and is of none of their instances leaves them of one instance each. -/
theorem Run.nodup_join {before after runs : List Run} {run : Run} (placed : runs = before ++ after)
    (distinct : (runs.map Run.instanceId).Nodup)
    (absent : run.instanceId ∉ runs.map Run.instanceId) :
    ((before ++ run :: after).map Run.instanceId).Nodup := by
  subst placed
  rw [List.map_append] at distinct absent
  rw [List.map_append, List.map_cons, List.perm_middle.nodup_iff]
  exact List.nodup_cons.mpr ⟨absent, distinct⟩

/-- A run among those with one more is that one or was among them before. -/
theorem Run.eq_or_mem_of_join {before after runs : List Run} {run other : Run}
    (placed : runs = before ++ after) (present : other ∈ before ++ run :: after) :
    other = run ∨ other ∈ runs := by
  subst placed
  simp only [List.mem_append, List.mem_cons] at present ⊢
  rcases present with earlier | isRun | later
  · exact .inr (.inl earlier)
  · exact .inl isRun
  · exact .inr (.inr later)

/-- That no run is of an instance. -/
theorem Run.find?_eq_none_iff {id : String} {runs : List Run} :
    Run.find? id runs = none ↔ id ∉ runs.map Run.instanceId := by
  simp [find?]

namespace Snapshot

/-- What concerns one instance, if it was ever started. -/
def situation? (id : String) (state : Snapshot) : Option Situation :=
  (state.engine.instance? id).map fun subject => ⟨subject, Run.find? id state.runs⟩

/-- The status of an instance. -/
def status? (id : String) (state : Snapshot) : Option InstanceStatus :=
  (state.situation? id).map fun situation => situation.subject.status

/-- That no two runs are of one instance, that every run is of an instance that was started, and that
instances have the names of numbers up to the count of those started. -/
structure Valid (state : Snapshot) : Prop where
  named : ∀ entry ∈ state.engine.entries,
    ∃ number ≤ state.engine.started, entry.subject.id = state.engine.naming.name number
  distinct : (state.runs.map Run.instanceId).Nodup
  enrolled : ∀ run ∈ state.runs, (state.engine.instance? run.instanceId).isSome

/-- How what concerns an instance changes when something happens. -/
inductive Evolves (id : String) : Option Situation → Occurrence → Option Situation → Prop where
  | elsewhere {situation? : Option Situation} {occurrence : Occurrence}
      (other : ∀ deed, occurrence ≠ .done id deed) : Evolves id situation? occurrence situation?
  | born {purpose : RunPurpose} {situation : Situation} (born : situation.Born purpose) :
      Evolves id none (.done id (.began purpose)) (some situation)
  | step {situation next : Situation} {deed : Deed} (happened : situation.Step deed next) :
      Evolves id (some situation) (.done id deed) (some next)

/-- What is done to an instance that there is, is a step of it. -/
theorem Evolves.exists_step {id : String} {situation : Situation} {deed : Deed}
    {next? : Option Situation} (evolves : Evolves id (some situation) (.done id deed) next?) :
    ∃ next, next? = some next ∧ situation.Step deed next := by
  cases evolves with
  | elsewhere other => exact absurd rfl (other deed)
  | step happened => exact ⟨_, rfl, happened⟩

variable {state : Snapshot} {engine : Engine} {runs : List Run}

/-- The instance of a situation is the one that the engine has. -/
theorem instance?_of_situation? {id : String} {situation : Situation}
    (found : state.situation? id = some situation) :
    state.engine.instance? id = some situation.subject := by
  obtain ⟨subject, present, rfl⟩ := Option.map_eq_some_iff.mp found
  exact present

/-- What a run of an instance acts on is its situation. -/
theorem situation?_of_scene? {id : String} {scene : Scene} (found : engine.scene? id = some scene) :
    situation? id ⟨engine, runs⟩ = some ⟨scene.subject, Run.find? id runs⟩ := by
  obtain ⟨subject, present, rfl⟩ := Option.map_eq_some_iff.mp found
  rw [situation?, present, Option.map_some]

/-- Where instances are found once one has been changed. -/
theorem instance?_of_becomes {subject old : Instance}
    (found : state.engine.instance? subject.id = some old)
    (becomes : state.engine.Becomes (Entry.put subject state.engine.entries) engine) (id : String) :
    engine.instance? id = if subject.id = id then some subject else state.engine.instance? id := by
  obtain ⟨entry, present, _⟩ := Option.map_eq_some_iff.mp found
  simp only [Engine.instance?, Engine.entry?, becomes.entries]
  exact Entry.find?_put present

/-- A change of one instance and of nobody's run but its own is a step of that instance. -/
theorem evolves_of_put {instanceId : String} {subject old : Instance} {deed : Deed}
    (valid : state.Valid) (found : state.engine.instance? instanceId = some old)
    (becomes : state.engine.Becomes (Entry.put subject state.engine.entries) engine)
    (same : subject.id = instanceId)
    (distinct : (runs.map Run.instanceId).Nodup)
    (enrolled : ∀ run ∈ runs, (state.engine.instance? run.instanceId).isSome)
    (others : ∀ id, instanceId ≠ id → Run.find? id runs = Run.find? id state.runs)
    (happened : Situation.Step ⟨old, Run.find? instanceId state.runs⟩ deed
      ⟨subject, Run.find? instanceId runs⟩) :
    Valid ⟨engine, runs⟩ ∧ ∀ id, Evolves id (state.situation? id) (.done instanceId deed)
      (situation? id ⟨engine, runs⟩) := by
  subst same
  have instances := instance?_of_becomes found becomes
  refine ⟨⟨fun entry present => ?_, distinct, fun run present => ?_⟩, fun id => ?_⟩
  · simp only [becomes.entries] at present
    obtain ⟨old, oldPresent, sameId⟩ := Entry.mem_put present
    obtain ⟨number, started, isName⟩ := valid.named old oldPresent
    exact ⟨number, by simpa [becomes.started] using started,
      by rw [becomes.naming, ← sameId, isName]⟩
  · simp only [instances]
    split
    · rfl
    · exact enrolled run present
  · by_cases own : subject.id = id
    · subst own
      simp only [situation?, found, instances, if_true, Option.map_some]
      exact .step happened
    · simp only [situation?, instances, if_neg own, others id own]
      exact .elsewhere (by simp [own])

/-- What concerns no instance changes none. -/
theorem evolves_of_same (valid : state.Valid)
    (becomes : state.engine.Becomes state.engine.entries engine) :
    Valid ⟨engine, state.runs⟩ ∧ ∀ id, Evolves id (state.situation? id) .administered
      (situation? id ⟨engine, state.runs⟩) := by
  have instances (id : String) : engine.instance? id = state.engine.instance? id := by
    simp [Engine.instance?, Engine.entry?, becomes.entries]
  refine ⟨⟨fun entry present => ?_, valid.distinct, fun run present => ?_⟩, fun id => ?_⟩
  · simp only [becomes.entries] at present
    simpa [becomes.started, becomes.naming] using valid.named entry present
  · simpa [instances] using valid.enrolled run present
  · simp only [situation?, instances]
    exact .elsewhere (by simp)

/-- No instance that was started has the name of a number that comes later. -/
theorem Valid.instance?_fresh (valid : state.Valid) :
    state.engine.instance? (state.engine.naming.name (state.engine.started + 1)) = none := by
  cases found : state.engine.instance? (state.engine.naming.name (state.engine.started + 1)) with
  | none => rfl
  | some subject =>
      obtain ⟨entry, present, rfl⟩ := Option.map_eq_some_iff.mp found
      obtain ⟨number, started, isName⟩ := valid.named entry (List.mem_of_find?_eq_some present)
      have sameName := isName.symm.trans (Entry.id_of_find? present)
      have := state.engine.naming.name_injective sameName
      omega

/-- Where instances are found once one has been added. -/
theorem instance?_of_append {definition : Definition} {subject : Instance}
    (fresh : state.engine.instance? subject.id = none)
    (entries : engine.entries = state.engine.entries ++ [⟨definition, subject⟩]) (id : String) :
    engine.instance? id = if subject.id = id then some subject else state.engine.instance? id := by
  by_cases own : subject.id = id
  · subst own
    have absent : Entry.find? subject.id state.engine.entries = none :=
      Option.map_eq_none_iff.mp fresh
    simp only [Entry.find?] at absent
    simp [Engine.instance?, Engine.entry?, Entry.find?, entries, List.find?_append, absent]
  · simp [Engine.instance?, Engine.entry?, Entry.find?, entries, own]

/-- Starting adds one instance to the entries, under a name of its own, and it is born. -/
theorem born_of_start {processId initiatedBy : String} {input : Bag} {run : Run}
    (accepted : state.engine.start processId input initiatedBy = .ok (engine, run)) :
    ∃ definition subject, subject.id = state.engine.naming.name (state.engine.started + 1) ∧
      engine.entries = state.engine.entries ++ [⟨definition, subject⟩] ∧
      engine.started = state.engine.started + 1 ∧ engine.naming = state.engine.naming ∧
      run.instanceId = subject.id ∧ Situation.Born run.purpose ⟨subject, some run⟩ := by
  obtain ⟨definition, subject, isNew, entries, started, naming, isOwn, isProgram, beginning⟩ :=
    Engine.start_becomes accepted
  have ownId : subject.id = state.engine.naming.name (state.engine.started + 1) := by rw [isNew]; rfl
  refine ⟨definition, subject, ownId, entries, started, naming, isOwn, ?_⟩
  rw [← isOwn.trans ownId] at isNew
  obtain ⟨instanceId, purpose, program, thread⟩ := run
  simp only at beginning isProgram
  subst isProgram
  rcases beginning with ⟨root, present, rfl, rfl⟩ | ⟨error, rfl, rfl⟩
  · exact .execution isNew present
  · exact .missingRoot isNew

/-- An instance that is started is born, and the others are left as they are. -/
theorem evolves_of_start {processId initiatedBy : String} {input : Bag} {before after : List Run}
    {run : Run} (valid : state.Valid) (placed : state.runs = before ++ after)
    (accepted : state.engine.start processId input initiatedBy = .ok (engine, run)) :
    Valid ⟨engine, before ++ run :: after⟩ ∧
      ∀ id, Evolves id (state.situation? id) (.done run.instanceId (.began run.purpose))
        (situation? id ⟨engine, before ++ run :: after⟩) := by
  obtain ⟨definition, subject, ownId, entries, started, naming, isOwn, born⟩ :=
    born_of_start accepted
  have fresh : state.engine.instance? subject.id = none := by
    rw [ownId]
    exact valid.instance?_fresh
  have instances := instance?_of_append fresh entries
  rw [← isOwn] at fresh instances
  have noRun : run.instanceId ∉ state.runs.map Run.instanceId := by
    intro present
    obtain ⟨other, isRun, same⟩ := List.mem_map.mp present
    have enrolled := valid.enrolled other isRun
    rw [same, fresh] at enrolled
    cases enrolled
  have distinct := Run.nodup_join placed valid.distinct noRun
  refine ⟨⟨fun entry present => ?_, distinct, fun other present => ?_⟩, fun id => ?_⟩
  · simp only [entries, List.mem_append, List.mem_singleton] at present
    rcases present with old | rfl
    · obtain ⟨number, small, isName⟩ := valid.named entry old
      exact ⟨number, by simp only [started]; omega, by rw [naming, isName]⟩
    · exact ⟨state.engine.started + 1, by simp only [started]; omega, by rw [naming, ownId]⟩
  · rcases Run.eq_or_mem_of_join placed present with rfl | old
    · simp [instances]
    · simp only [instances]
      split
      · rfl
      · exact valid.enrolled other old
  · by_cases own : run.instanceId = id
    · subst own
      simp only [situation?, fresh, instances, if_true, Option.map_some, Option.map_none,
        Run.find?_middle distinct]
      exact .born born
    · simp only [situation?, instances, if_neg own, Run.find?_middle distinct, placed]
      exact .elsewhere (by simp [own])

/-- A run among those of which one has moved stands for a run of the same instance. -/
theorem mem_of_placed {before after runs : List Run} {run replacement other : Run}
    (placed : runs = before ++ run :: after) (same : replacement.instanceId = run.instanceId)
    (present : other ∈ before ++ replacement :: after) :
    ∃ old ∈ runs, old.instanceId = other.instanceId := by
  subst placed
  simp only [List.mem_append, List.mem_cons] at present
  rcases present with earlier | rfl | later
  · exact ⟨other, by simp [earlier], rfl⟩
  · exact ⟨run, by simp, same.symm⟩
  · exact ⟨other, by simp [later], rfl⟩

/-- An instance that has ended has no run. -/
theorem find?_run_of_over {id : String} {subject : Instance}
    (sound : ∀ id situation, state.situation? id = some situation → situation.Sound)
    (found : state.engine.instance? id = some subject)
    (closed : subject.status = .completed ∨ subject.status = .faulted) :
    Run.find? id state.runs = none := by
  cases underWay : Run.find? id state.runs with
  | none => rfl
  | some run =>
      have isSound := sound id ⟨subject, some run⟩ (by simp [situation?, found, underWay])
      have allowed := isSound run rfl
      cases purpose : run.purpose <;> rcases closed with closed | closed <;>
        simp [RunPurpose.Allows, purpose, closed] at allowed

/-- Undoing an instance begins where it had no run. -/
theorem evolves_of_compensate {instanceId : String} {before after : List Run} {run : Run}
    (valid : state.Valid)
    (sound : ∀ id situation, state.situation? id = some situation → situation.Sound)
    (placed : state.runs = before ++ after)
    (accepted : state.engine.compensate instanceId = .ok (engine, run)) :
    Valid ⟨engine, before ++ run :: after⟩ ∧
      ∀ id, Evolves id (state.situation? id) (.done instanceId (.began run.purpose))
        (situation? id ⟨engine, before ++ run :: after⟩) := by
  obtain ⟨subject, program, found, closed, rfl, becomes⟩ := Engine.compensate_becomes accepted
  have noRun := find?_run_of_over sound found closed
  have distinct : ((before ++ (⟨instanceId, .compensation, program,
      .ofTask program.compensateProcess⟩ : Run) :: after).map Run.instanceId).Nodup :=
    Run.nodup_join placed valid.distinct (Run.find?_eq_none_iff.mp noRun)
  have same : subject.id = instanceId := Engine.id_of_instance? found
  refine evolves_of_put valid found becomes same distinct
    (fun other present => ?_) (fun id own => ?_) ?_
  · rcases Run.eq_or_mem_of_join placed present with rfl | old
    · simp [found]
    · exact valid.enrolled other old
  · rw [Run.find?_middle distinct, placed]
    simp [own]
  · rw [noRun, Run.find?_middle distinct]
    simp only [if_true]
    exact .compensate closed

/-- A run that moves is a move of its instance. -/
theorem evolves_of_move {before after : List Run} {run : Run} {scene nextScene : Scene}
    {nextThread : Thread} {move : Move} (valid : state.Valid)
    (placed : state.runs = before ++ run :: after)
    (found : state.engine.scene? run.instanceId = some scene)
    (moved : Thread.Step run.program scene run.thread move nextScene nextThread) :
    Valid ⟨state.engine.leave nextScene, before ++ { run with thread := nextThread } :: after⟩ ∧
      ∀ id, Evolves id (state.situation? id) (.done run.instanceId (.moved move))
        (situation? id
          ⟨state.engine.leave nextScene, before ++ { run with thread := nextThread } :: after⟩) := by
  obtain ⟨subject, present, rfl⟩ := Option.map_eq_some_iff.mp found
  have nextId : nextScene.subject.id = run.instanceId :=
    moved.id_eq.trans (Engine.id_of_instance? present)
  have old := valid.distinct
  rw [placed] at old
  have distinct :
      ((before ++ { run with thread := nextThread } :: after).map Run.instanceId).Nodup := by
    simpa using old
  refine evolves_of_put valid present (Engine.leave_becomes _ _) nextId distinct
    (fun other isRun => ?_) (fun id own => ?_) ?_
  · obtain ⟨former, isFormer, same⟩ :=
      @mem_of_placed _ _ _ run { run with thread := nextThread } other placed rfl isRun
    rw [← same]
    exact valid.enrolled former isFormer
  · rw [placed, Run.find?_middle distinct, Run.find?_middle old]
    simp [own]
  · rw [placed, Run.find?_middle distinct, Run.find?_middle old]
    simp only [if_true]
    exact .move moved

/-- Settling the instance of a run that has ended is a step of that instance, which then has no run. -/
theorem evolves_of_settle {before after : List Run} {run : Run} {result : Result} {subject : Instance}
    (valid : state.Valid) (placed : state.runs = before ++ run :: after)
    (ended : run.thread = .ended result)
    (found : state.engine.instance? run.instanceId = some subject)
    (becomes : state.engine.Becomes
      (Entry.put (run.purpose.settle result subject) state.engine.entries) engine) :
    Valid ⟨engine, before ++ after⟩ ∧
      ∀ id, Evolves id (state.situation? id) (.done run.instanceId (.concluded run.purpose result))
        (situation? id ⟨engine, before ++ after⟩) := by
  have old := valid.distinct
  rw [placed] at old
  obtain ⟨noRun, distinct⟩ : run.instanceId ∉ (before ++ after).map Run.instanceId ∧
      ((before ++ after).map Run.instanceId).Nodup := by
    rw [List.map_append, List.map_cons, List.perm_middle.nodup_iff] at old
    simpa using old
  have settledId : (run.purpose.settle result subject).id = run.instanceId :=
    (RunPurpose.id_settle _ _ _).trans (Engine.id_of_instance? found)
  refine evolves_of_put valid found becomes settledId distinct
    (fun other isRun => valid.enrolled other ?_) (fun id own => ?_) ?_
  · simp only [placed, List.mem_append, List.mem_cons] at isRun ⊢
    rcases isRun with earlier | later
    · exact .inl earlier
    · exact .inr (.inr later)
  · rw [placed, Run.find?_middle old]
    simp [own]
  · rw [Run.find?_eq_none_iff.mpr noRun, placed, Run.find?_middle old]
    simp only [if_true]
    exact .conclude ended

/-- The end of a run is a step of its instance, which then has none. -/
theorem evolves_of_conclude {before after : List Run} {run : Run} {result : Result}
    (valid : state.Valid) (placed : state.runs = before ++ run :: after)
    (ended : run.thread = .ended result) :
    Valid ⟨(state.engine.conclude run result).1, before ++ after⟩ ∧
      ∀ id, Evolves id (state.situation? id) (.done run.instanceId (.concluded run.purpose result))
        (situation? id ⟨(state.engine.conclude run result).1, before ++ after⟩) := by
  obtain ⟨subject, found⟩ :=
    Option.isSome_iff_exists.mp (valid.enrolled run (by simp [placed]))
  exact evolves_of_settle valid placed ended found (Engine.conclude_becomes found result)

/-- Every transition is a step of the instance that it says, and leaves the others as they are. -/
theorem Step.evolves {state next : Snapshot} {occurrence : Occurrence} (valid : state.Valid)
    (sound : ∀ id situation, state.situation? id = some situation → situation.Sound)
    (transition : Step state occurrence next) :
    next.Valid ∧ ∀ id, Evolves id (state.situation? id) occurrence (next.situation? id) := by
  cases transition with
  | deploy accepted => exact evolves_of_same valid (Engine.deploy_becomes accepted)
  | undeploy accepted => exact evolves_of_same valid (Engine.undeploy_becomes accepted)
  | watchCompleted => exact evolves_of_same valid ⟨rfl, rfl, rfl⟩
  | watchFaulted => exact evolves_of_same valid ⟨rfl, rfl, rfl⟩
  | start placed accepted => exact evolves_of_start valid placed accepted
  | suspend accepted =>
      obtain ⟨subject, found, active, becomes⟩ := Engine.suspend_becomes accepted
      have same : subject.id = _ := Engine.id_of_instance? found
      exact evolves_of_put valid found becomes same valid.distinct
        valid.enrolled (fun _ _ => rfl) (.suspend active)
  | resume accepted =>
      obtain ⟨subject, found, suspended, becomes⟩ := Engine.resume_becomes accepted
      have same : subject.id = _ := Engine.id_of_instance? found
      exact evolves_of_put valid found becomes same valid.distinct
        valid.enrolled (fun _ _ => rfl) (.resume suspended)
  | terminate accepted =>
      obtain ⟨subject, found, open_, becomes⟩ := Engine.terminate_becomes accepted
      have same : subject.id = _ := Engine.id_of_instance? found
      exact evolves_of_put valid found becomes same valid.distinct
        valid.enrolled (fun _ _ => rfl) (.terminate open_)
  | compensate placed accepted => exact evolves_of_compensate valid sound placed accepted
  | move placed found moved => exact evolves_of_move valid placed found moved
  | conclude placed ended => exact evolves_of_conclude valid placed ended

/-- What a moment was to an instance. -/
def Moment.stage? (id : String) (moment : Moment) : Option Stage :=
  match moment.occurrence with
  | .administered => none
  | .done instanceId deed =>
      if instanceId = id then (moment.after.situation? id).map fun situation => ⟨deed, situation⟩
      else none

/-- What happens elsewhere is nothing to an instance. -/
theorem Moment.stage?_eq_none {id : String} {occurrence : Occurrence} (after : Snapshot)
    (other : ∀ deed, occurrence ≠ .done id deed) : Moment.stage? id ⟨occurrence, after⟩ = none := by
  cases occurrence with
  | administered => rfl
  | done instanceId deed =>
      have different : instanceId ≠ id := by
        rintro rfl
        exact other deed rfl
      simp [stage?, different]

/-- What was done to an instance, and what each deed left. -/
def stagesOf (id : String) (moments : List Moment) : List Stage :=
  moments.filterMap (Moment.stage? id)

/-- One more moment adds what it was to the instance, if it was anything. -/
theorem stagesOf_concat (id : String) (moments : List Moment) (moment : Moment) :
    stagesOf id (moments ++ [moment]) = stagesOf id moments ++ (moment.stage? id).toList := by
  cases stage : moment.stage? id <;> simp [stagesOf, List.filterMap_append, stage]

/-- What is left of an instance by a transition, if it lived its life before. -/
theorem Evolves.life {id : String} {occurrence : Occurrence} {stages : List Stage}
    {before : Option Situation} {next : Snapshot}
    (evolves : Evolves id before occurrence (next.situation? id))
    (lived : (before = none ∧ stages = []) ∨
      ∃ situation, before = some situation ∧ Life stages situation) :
    let after := stages ++ (Moment.stage? id ⟨occurrence, next⟩).toList
    (next.situation? id = none ∧ after = []) ∨
      ∃ situation, next.situation? id = some situation ∧ Life after situation := by
  generalize found : next.situation? id = after at evolves
  cases evolves with
  | elsewhere other =>
      simpa [Moment.stage?_eq_none next other] using lived
  | @born purpose situation born =>
      rcases lived with ⟨_, rfl⟩ | ⟨_, impossible, _⟩
      · exact .inr ⟨situation, rfl, by simpa [Moment.stage?, found] using Life.born born⟩
      · cases impossible
  | @step situation nextSituation deed happened =>
      rcases lived with ⟨impossible, _⟩ | ⟨_, same, life⟩
      · cases impossible
      · cases same
        exact .inr ⟨nextSituation, rfl, by simpa [Moment.stage?, found] using life.step happened⟩

/-- What is there has lived. -/
theorem life_of_lived {stages : List Stage} {situation? : Option Situation} {situation : Situation}
    (lived : (situation? = none ∧ stages = []) ∨
      ∃ situation, situation? = some situation ∧ Life stages situation)
    (found : situation? = some situation) : Life stages situation := by
  rcases lived with ⟨absent, _⟩ | ⟨known, isKnown, life⟩
  · rw [absent] at found
    cases found
  · rw [isKnown] at found
    cases found
    exact life

/-- Situations that come of lives are sound. -/
theorem sound_of_lives {stages : String → List Stage}
    (lives : ∀ id, (state.situation? id = none ∧ stages id = []) ∨
      ∃ situation, state.situation? id = some situation ∧ Life (stages id) situation)
    (id : String) (situation : Situation) (found : state.situation? id = some situation) :
    situation.Sound :=
  (life_of_lived (lives id) found).sound

/-- An instance lives its life in every history, once it has been started. -/
theorem History.project {settings : Settings} {naming : Naming} {now : Timestamp}
    {moments : List Moment} {state : Snapshot}
    (history : History (.new settings naming now) moments state) :
    state.Valid ∧ ∀ id,
      (state.situation? id = none ∧ stagesOf id moments = []) ∨
        ∃ situation, state.situation? id = some situation ∧
          Life (stagesOf id moments) situation := by
  induction history with
  | refl =>
      refine ⟨⟨?_, ?_, ?_⟩, fun id => .inl ⟨?_, ?_⟩⟩
      · simp [new, Engine.new]
      · simp [new]
      · simp [new]
      · simp [situation?, new, Engine.new, Engine.instance?, Engine.entry?, Entry.find?]
      · rfl
  | @step moments occurrence middle next _ transition inductionHypothesis =>
      obtain ⟨valid, lives⟩ := inductionHypothesis
      obtain ⟨nextValid, evolves⟩ := transition.evolves valid (sound_of_lives lives)
      refine ⟨nextValid, fun id => ?_⟩
      rw [stagesOf_concat]
      exact (evolves id).life (lives id)

variable {settings : Settings} {naming : Naming} {now : Timestamp} {moments : List Moment}

/-- In every history a transition is a step of the instance that it says, and of no other. -/
theorem History.evolves {middle next : Snapshot} {occurrence : Occurrence}
    (history : History (.new settings naming now) moments middle)
    (transition : Step middle occurrence next) (id : String) :
    Evolves id (middle.situation? id) occurrence (next.situation? id) := by
  obtain ⟨valid, lives⟩ := history.project
  exact (transition.evolves valid (sound_of_lives lives)).2 id

/-- In every history what is done to an instance that there is, is a step of it. -/
theorem History.exists_step {id : String} {situation : Situation} {deed : Deed} {next : Snapshot}
    (history : History (.new settings naming now) moments state)
    (found : state.situation? id = some situation)
    (transition : Step state (.done id deed) next) :
    ∃ last, next.situation? id = some last ∧ situation.Step deed last := by
  have evolves := history.evolves transition id
  rw [found] at evolves
  exact evolves.exists_step

/-- In every history a run moves on an instance that there is. -/
theorem History.exists_step_of_moved {id : String} {move : Move} {next : Snapshot}
    (history : History (.new settings naming now) moments state)
    (transition : Step state (.done id (.moved move)) next) :
    ∃ situation last, state.situation? id = some situation ∧ next.situation? id = some last ∧
      situation.Step (.moved move) last := by
  have evolves := history.evolves transition id
  generalize isSituation : state.situation? id = before, isNext : next.situation? id = after at evolves
  cases evolves with
  | elsewhere other => exact absurd rfl (other _)
  | step happened => exact ⟨_, _, rfl, rfl, happened⟩

/-- An instance that is there has lived. -/
theorem History.life {id : String} {situation : Situation}
    (history : History (.new settings naming now) moments state)
    (found : state.situation? id = some situation) : Life (stagesOf id moments) situation :=
  life_of_lived (history.project.2 id) found

end Snapshot

end Orchestration
