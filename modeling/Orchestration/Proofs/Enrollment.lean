import Mathlib.Data.List.Nodup
import Orchestration.Proofs.Sessions

/-!
# No instance is lost

An engine knows every instance that was ever started, once, in the order of starting, together with the
process that it was started from. What is deployed has no part in it: definitions may go and others come
under the same ids. So however instances are listed, all of them are found: by their processes, and by
their statuses, of which each instance has one.

Every call that starts an instance returns once, or is still to return: the run of the instance is under
way, or the end of the run is being made known. The ledger of a session therefore balances: those that were
started are those that calls returned with and those that calls are still to return with.
-/

namespace Orchestration

/-- What is sorted by a key that each element has one of is all there, and once. -/
theorem perm_flatMap_filter {α κ : Type} [DecidableEq κ] (key : α → κ) (elements : List α)
    {keys : List κ} (distinct : keys.Nodup) :
    (keys.flatMap fun one => elements.filter fun element => key element = one).Perm
      (elements.filter fun element => key element ∈ keys) := by
  induction keys with
  | nil => simp
  | cons one others inductionHypothesis =>
      obtain ⟨absent, distinct⟩ := List.nodup_cons.mp distinct
      have split := List.filter_append_perm (fun element => key element = one)
        (elements.filter fun element => key element ∈ one :: others)
      have first : (elements.filter fun element => key element ∈ one :: others).filter
          (fun element => key element = one) = elements.filter fun element => key element = one := by
        rw [List.filter_filter]
        refine List.filter_congr fun element _ => ?_
        by_cases own : key element = one <;> simp [own]
      have second : (elements.filter fun element => key element ∈ one :: others).filter
          (fun element => !decide (key element = one)) =
            elements.filter fun element => key element ∈ others := by
        rw [List.filter_filter]
        refine List.filter_congr fun element _ => ?_
        by_cases own : key element = one
        · simp [own, absent]
        · simp [own]
      rw [first, second] at split
      exact ((inductionHypothesis distinct).append_left _).trans split

/-- There is no status but those that are listed. -/
theorem InstanceStatus.mem_all (status : InstanceStatus) : status ∈ all := by
  cases status <;> decide

/-- The instance that the call which a run is for has started, if it starts one. -/
def RunPurpose.startOf (purpose : RunPurpose) (instanceId : String) : List String :=
  if purpose = .compensation then [] else [instanceId]

/-- Every run but a compensation is for the start of its instance. -/
theorem RunPurpose.startOf_of_ne {purpose : RunPurpose} (instanceId : String)
    (starts : purpose ≠ .compensation) : purpose.startOf instanceId = [instanceId] := if_neg starts

namespace Entry

/-- The process that an instance was started from, and the id of the instance. -/
def origin (entry : Entry) : String × String := (entry.definition.id, entry.subject.id)

/-- Putting an instance into its place changes no origin. -/
theorem map_origin_put (subject : Instance) (entries : List Entry) :
    (put subject entries).map origin = entries.map origin := by
  induction entries with
  | nil => rfl
  | cons head rest inductionHypothesis =>
      by_cases same : head.subject.id = subject.id
      · simp [put, origin, same]
      · simp [put, same, inductionHypothesis]

end Entry

namespace Engine

variable {engine next : Engine}

/-- The processes that instances were started from and the ids of the instances, in the order of
starting. -/
def origins (engine : Engine) : List (String × String) := engine.entries.map Entry.origin

/-- Putting an instance leaves the origins as they are. -/
theorem Becomes.origins_of_put {subject : Instance}
    (becomes : engine.Becomes (Entry.put subject engine.entries) next) :
    next.origins = engine.origins := by
  rw [origins, becomes.entries, Entry.map_origin_put, origins]

/-- Without a change of entries the origins stay as they are. -/
theorem Becomes.origins_of_same (becomes : engine.Becomes engine.entries next) :
    next.origins = engine.origins := by
  rw [origins, becomes.entries, origins]

/-- The instance that is started is of the process that was asked for, and the run that begins is its
execution. -/
theorem origins_of_start {processId initiatedBy : String} {input : Bag} {run : Run}
    (accepted : engine.start processId input initiatedBy = .ok (next, run)) :
    next.origins = engine.origins ++ [(processId, run.instanceId)] ∧ run.purpose ≠ .compensation := by
  obtain ⟨definition, found, _, ⟨_, _, rfl, rfl⟩ | ⟨_, ⟨_, rfl⟩, rfl⟩⟩ := start_cases accepted
  all_goals
    have isProcess : definition.id = processId := by simpa using List.find?_some found
    exact ⟨by simp [origins, enroll, record, Entry.origin, isProcess], nofun⟩

/-- What is not found under an id was never started under it. -/
theorem notMem_origins {id : String} (absent : engine.instance? id = none) :
    id ∉ engine.origins.map Prod.snd := by
  simpa [instance?, entry?, Entry.find?, origins, Entry.origin] using absent

/-- There are as many instances as origins. -/
theorem instanceCount_eq : engine.instanceCount = engine.origins.length := by
  rw [instanceCount, origins, List.length_map]

/-- The instances of a process are those that were started from it, in the order of starting. -/
theorem map_id_instancesOfProcess (processId : String) :
    (engine.instancesOfProcess processId).map Instance.id =
      (engine.origins.filter fun origin => origin.1 = processId).map Prod.snd := by
  rw [instancesOfProcess, origins, List.filter_map, List.map_map, List.map_map]
  rfl

/-- Every instance is in one status. -/
theorem perm_instancesInStatus :
    (InstanceStatus.all.flatMap fun status => engine.instancesInStatus status).Perm
      (engine.entries.map Entry.subject) := by
  have sorted := perm_flatMap_filter Instance.status (engine.entries.map Entry.subject)
    (show InstanceStatus.all.Nodup by decide)
  rwa [List.filter_eq_self.mpr fun subject _ => by simp [InstanceStatus.mem_all]] at sorted

/-- By their statuses the instances are found that were started. -/
theorem perm_map_id_instancesInStatus :
    ((InstanceStatus.all.flatMap fun status => engine.instancesInStatus status).map Instance.id).Perm
      (engine.origins.map Prod.snd) := by
  have sorted := (@perm_instancesInStatus engine).map Instance.id
  simpa [origins, Entry.origin, Function.comp_def] using sorted

/-- The count of active instances is that of the list of them. -/
theorem activeCount_eq : engine.activeCount = (engine.instancesInStatus .active).length := by
  rw [activeCount, instancesInStatus, ← List.countP_eq_length_filter, List.countP_map]
  rfl

end Engine

namespace Snapshot

variable {state next : Snapshot} {occurrence : Occurrence}

/-- The instances whose executions are under way. -/
def executing (state : Snapshot) : List String :=
  state.runs.flatMap fun run => run.purpose.startOf run.instanceId

/-- Nothing but a start brings in an instance, and no instance goes. -/
theorem Step.origins (transition : Step state occurrence next) (passing : occurrence.IsPassing) :
    next.engine.origins = state.engine.origins := by
  cases transition with
  | deploy accepted => exact (Engine.deploy_becomes accepted).origins_of_same
  | undeploy accepted => exact (Engine.undeploy_becomes accepted).origins_of_same
  | watchCompleted => rfl
  | watchFaulted => rfl
  | start _ accepted => exact absurd passing (Engine.origins_of_start accepted).2
  | suspend accepted =>
      obtain ⟨_, _, _, becomes⟩ := Engine.suspend_becomes accepted
      exact becomes.origins_of_put
  | resume accepted =>
      obtain ⟨_, _, _, becomes⟩ := Engine.resume_becomes accepted
      exact becomes.origins_of_put
  | terminate accepted =>
      obtain ⟨_, _, _, becomes⟩ := Engine.terminate_becomes accepted
      exact becomes.origins_of_put
  | compensate _ accepted =>
      obtain ⟨_, _, _, _, _, becomes⟩ := Engine.compensate_becomes accepted
      exact becomes.origins_of_put
  | move => exact (Engine.leave_becomes _ _).origins_of_put
  | conclude => exact passing.elim

/-- An execution is under way from the start of its instance until that is settled. -/
theorem Step.executing (transition : Step state occurrence next) (passing : occurrence.IsPassing) :
    next.executing = state.executing := by
  cases transition with
  | start _ accepted => exact absurd passing (Engine.origins_of_start accepted).2
  | compensate placed accepted =>
      have undoes := (Engine.definition_of_compensate accepted).2.1
      simp [Snapshot.executing, placed, RunPurpose.startOf, undoes]
  | move placed => simp [Snapshot.executing, placed]
  | conclude => exact passing.elim
  | _ => rfl

end Snapshot

namespace Session

/-- The process and the id of an instance that an incident started. -/
def Incident.start? : Incident → Option (String × String)
  | .started processId instanceId _ => some (processId, instanceId)
  | _ => none

/-- The instance that a call returned with which had started it. -/
def Incident.answer : Incident → List String
  | .returned instanceId purpose _ => purpose.startOf instanceId
  | _ => []

/-- The instances that were started and the processes they were started from, in the order of starting. -/
def startsOf (moments : List Moment) : List (String × String) :=
  moments.filterMap fun moment => moment.incident.start?

/-- The instances that the calls which had started them returned with, in the order of returning. -/
def answersOf (moments : List Moment) : List String :=
  moments.flatMap fun moment => moment.incident.answer

/-- The instances that the calls which have started them are still to return with. -/
def pending (state : Session) : List String :=
  state.snapshot.executing ++
    state.endings.flatMap fun ending => ending.purpose.startOf ending.instanceId

variable {state next : Session} {incident : Incident} {moments : List Moment}

/-- One more moment adds the start that it was, if it was one. -/
theorem startsOf_concat (moment : Moment) :
    startsOf (moments ++ [moment]) = startsOf moments ++ moment.incident.start?.toList := by
  cases isStart : moment.incident.start? <;> simp [startsOf, isStart]

/-- One more moment adds the answer that it was, if it was one. -/
theorem answersOf_concat (moment : Moment) :
    answersOf (moments ++ [moment]) = answersOf moments ++ moment.incident.answer := by
  simp [answersOf]

/-- Only a start brings in an instance, and no instance goes. -/
theorem Step.origins (transition : Step state incident next) :
    next.snapshot.engine.origins = state.snapshot.engine.origins ++ incident.start?.toList := by
  cases transition with
  | pass passing transition => simp [transition.origins passing, Incident.start?]
  | start _ accepted => exact (Engine.origins_of_start accepted).1
  | settle _ _ closed =>
      obtain ⟨_, _, _, becomes, _⟩ := Engine.close_spec closed
      simp [becomes.origins_of_put, Incident.start?]
  | @call _ _ ending hook callback =>
      have becomes := Engine.becomes_call hook ending.subject callback state.snapshot.engine
      simp [becomes.origins_of_same, Incident.start?]
  | list | answer => simp [Incident.start?]

/-- A call that starts an instance is to return with it until it does. -/
theorem Step.pending (transition : Step state incident next) :
    (incident.answer ++ next.pending).Perm (state.pending ++ incident.start?.toList.map Prod.snd) := by
  -- Where a run or an end stands among the others does not matter, so ids are counted.
  refine List.perm_iff_count.mpr fun id => ?_
  cases transition with
  | pass passing transition =>
      simp [Session.pending, transition.executing passing, Incident.start?, Incident.answer]
  | @start _ _ _ _ _ _ run placed accepted =>
      have begins := RunPurpose.startOf_of_ne run.instanceId (Engine.origins_of_start accepted).2
      simp only [Session.pending, Snapshot.executing, placed, begins, Incident.start?, Incident.answer,
        List.flatMap_append, List.flatMap_cons, List.count_append, List.count_nil, Option.toList_some,
        List.map_singleton]
      omega
  | settle placed =>
      simp only [Session.pending, Snapshot.executing, placed, Incident.start?, Incident.answer,
        List.flatMap_append, List.flatMap_cons, List.count_append, List.count_nil, Option.toList_none,
        List.map_nil]
      omega
  | list placed => simp [Session.pending, placed, Incident.start?, Incident.answer]
  | call placed => simp [Session.pending, Snapshot.executing, placed, Incident.start?, Incident.answer]
  | answer placed =>
      simp only [Session.pending, placed, Incident.start?, Incident.answer, List.flatMap_append,
        List.flatMap_cons, List.count_append, List.count_nil, Option.toList_none, List.map_nil]
      omega

variable {settings : Settings} {naming : Naming} {now : Timestamp}

/-- The instances of an engine are those that were started, in the order of starting. -/
theorem History.origins (history : History (.new settings naming now) moments state) :
    state.snapshot.engine.origins = startsOf moments := by
  induction history with
  | refl => rfl
  | step _ transition inductionHypothesis =>
      rw [transition.origins, inductionHypothesis, startsOf_concat]

/-- The instances that were started are those that calls returned with and those that calls are still to
return with. -/
theorem History.pending (history : History (.new settings naming now) moments state) :
    (answersOf moments ++ state.pending).Perm ((startsOf moments).map Prod.snd) := by
  induction history with
  | refl => rfl
  | @step moments incident middle next _ transition inductionHypothesis =>
      have balance : (answersOf moments ++ (incident.answer ++ next.pending)).Perm
          (answersOf moments ++ middle.pending ++ incident.start?.toList.map Prod.snd) := by
        rw [List.append_assoc]
        exact transition.pending.append_left _
      rw [startsOf_concat, List.map_append, answersOf_concat, List.append_assoc]
      exact balance.trans (inductionHypothesis.append_right _)

/-- No two instances have one id. -/
theorem History.distinct (history : History (.new settings naming now) moments state) :
    ((startsOf moments).map Prod.snd).Nodup := by
  rw [← history.origins]
  induction history with
  | refl => exact List.nodup_nil
  | @step moments incident middle next prior transition inductionHypothesis =>
      rw [transition.origins, List.map_append]
      cases transition with
      | @start _ _ _ _ _ _ run _ accepted =>
          have fresh : run.instanceId ∉ middle.snapshot.engine.origins.map Prod.snd := by
            obtain ⟨_, _, isName, _, _, _, isOwn, _⟩ := Snapshot.born_of_start accepted
            rw [isOwn, isName]
            exact Engine.notMem_origins prior.project.1.instance?_fresh
          have joined := List.Nodup.concat fresh inductionHypothesis
          rw [List.concat_eq_append] at joined
          exact joined
      | _ => simpa [Incident.start?] using inductionHypothesis

/-- In every session there are as many instances as calls that started one and returned, and those that
are still to return. However instances are listed, each of them is there once: among those of all statuses,
and among those of the process that it was started from, which come in the order of starting whatever is
deployed by now. Nothing else is listed, and the active ones are counted as they are listed. -/
theorem instances_enrolled (history : History (.new settings naming now) moments state) :
    let engine := state.snapshot.engine
    let ofStatuses := InstanceStatus.all.flatMap fun status => engine.instancesInStatus status
    engine.instanceCount = (answersOf moments).length + state.pending.length ∧
      (answersOf moments ++ state.pending).Perm ((startsOf moments).map Prod.snd) ∧
      (∀ processId instanceId, (processId, instanceId) ∈ startsOf moments →
        (ofStatuses.map Instance.id).count instanceId = 1 ∧
          ((engine.instancesOfProcess processId).map Instance.id).count instanceId = 1) ∧
      (ofStatuses.map Instance.id).Perm ((startsOf moments).map Prod.snd) ∧
      (∀ processId, (engine.instancesOfProcess processId).map Instance.id =
        ((startsOf moments).filter fun start => start.1 = processId).map Prod.snd) ∧
      engine.activeCount = (engine.instancesInStatus .active).length := by
  intro engine ofStatuses
  have balance := history.pending
  have byStatus : (ofStatuses.map Instance.id).Perm ((startsOf moments).map Prod.snd) := by
    rw [← history.origins]
    exact Engine.perm_map_id_instancesInStatus
  have byProcess (processId : String) : (engine.instancesOfProcess processId).map Instance.id =
      ((startsOf moments).filter fun start => start.1 = processId).map Prod.snd := by
    rw [← history.origins]
    exact Engine.map_id_instancesOfProcess processId
  refine ⟨?_, balance, ?_, byStatus, byProcess, Engine.activeCount_eq⟩
  · rw [Engine.instanceCount_eq, history.origins, ← List.length_append, balance.length_eq, List.length_map]
  · intro processId instanceId started
    constructor
    · rw [byStatus.count_eq]
      exact List.count_eq_one_of_mem history.distinct (List.mem_map_of_mem started)
    · rw [byProcess]
      apply List.count_eq_one_of_mem
      · exact history.distinct.sublist (List.filter_sublist.map Prod.snd)
      · refine List.mem_map.mpr ⟨(processId, instanceId), ?_, rfl⟩
        simpa using started

namespace Replaced

/-- A process with nothing to run. -/
def former : Definition := .ofActivities "p" "Former" "main" []

/-- Another one under the same id. -/
def latter : Definition := .ofActivities "p" "Latter" "main" []

/-- An instance of a process is started, and the call returns with it; the process is replaced by another
one, and an instance of that is started. -/
theorem starts : ∃ moments state, History (.new .default (.numbered "i-") ⟨0, 0⟩) moments state ∧
    startsOf moments = [("p", "i-1"), ("p", "i-2")] ∧ answersOf moments = ["i-1"] ∧
      state.pending = ["i-2"] ∧ state.snapshot.engine.process? "p" = some latter := by
  have deployed := History.single (@Step.pass (.new .default (.numbered "i-") ⟨0, 0⟩) .administered _
    trivial (@Snapshot.Step.deploy _ former _ rfl))
  have started := deployed.step (@Step.start _ "p" "oracle" [] _ [] [] _ rfl rfl)
  have settled := started.step (@Step.settle _ [] [] _ _ _ _ _ rfl rfl rfl)
  have listed := settled.step (@Step.list _ [] [] _ .faulted rfl rfl)
  have returned := listed.step (@Step.answer _ [] [] _ rfl (.inr ⟨_, rfl⟩))
  have undeployed := returned.step
    (@Step.pass _ .administered _ trivial (@Snapshot.Step.undeploy _ "p" _ rfl))
  have replaced := undeployed.step
    (@Step.pass _ .administered _ trivial (@Snapshot.Step.deploy _ latter _ rfl))
  have again := replaced.step (@Step.start _ "p" "oracle" [] _ [] [] _ rfl rfl)
  exact ⟨_, _, again, rfl, rfl, rfl, rfl⟩

end Replaced

/-- Both instances are found under the id of the process that the first was started from, although that has
been replaced since. -/
theorem exists_replaced_enrolled : ∃ moments state,
    History (.new .default (.numbered "i-") ⟨0, 0⟩) moments state ∧
      state.snapshot.engine.process? "p" = some Replaced.latter ∧
      answersOf moments = ["i-1"] ∧ state.snapshot.engine.instanceCount = 2 ∧
        (state.snapshot.engine.instancesOfProcess "p").map Instance.id = ["i-1", "i-2"] := by
  obtain ⟨moments, state, history, starts, answers, pending, replaced⟩ := Replaced.starts
  obtain ⟨count, _, _, _, byProcess, _⟩ := instances_enrolled history
  refine ⟨moments, state, history, replaced, answers, ?_, ?_⟩
  · rw [count, answers, pending]
    rfl
  · rw [byProcess, starts]
    rfl

end Session

end Orchestration
