import Orchestration.Proofs.Agenda
import Orchestration.Proofs.Stations

/-!
# What is noted of activities

An instance notes a status for every activity that has begun, in the order in which they first did, and an
entry in its log for every execution that has ended. An activity may be executed many times, within itself
and side by side, and each execution sets the status twice.

`Instance.Booked` says what the statuses, the log and the executions under way have to do with each other.
There is one lemma for each thing that can be noted: an execution begins, an execution ends, a scope is
marked as undone.
-/

namespace Orchestration

/-- No execution ends as one that is still under way. -/
theorem ActivityStatus.ofResult_ne_executing (result : Result) : ofResult result ≠ .executing := by
  rcases result with error | outcome
  · nofun
  · cases outcome <;> nofun

namespace Instance

/-- The entry of the execution of an activity that ended last. -/
def lastLogged? (id : String) (subject : Instance) : Option LogEntry :=
  (subject.log.toList.filter fun entry => entry.activityId = id).getLast?

/-- The last entry of an activity is one of its entries. -/
theorem mem_log_of_lastLogged? {id : String} {subject : Instance} {last : LogEntry}
    (isLast : subject.lastLogged? id = some last) : last ∈ subject.log ∧ last.activityId = id := by
  simpa using List.mem_of_getLast? isLast

/-- What one more entry makes the last one of an activity. -/
theorem lastLogged?_of_push {id : String} {subject next : Instance} {entry : LogEntry}
    (logged : next.log = subject.log.push entry) :
    next.lastLogged? id = if entry.activityId = id then some entry else subject.lastLogged? id := by
  by_cases same : entry.activityId = id <;>
    simp [lastLogged?, logged, List.filter_append, same]

/-- The activities that have a status. -/
def keys (subject : Instance) : List String := subject.activityStatuses.map Prod.fst

/-- What is noted of the activities of an instance, of which some executions have begun. Those for which
the condition holds are executing. -/
structure Booked (definition : Definition) (begun : List String) (executes : String → Prop)
    (subject : Instance) : Prop where
  distinct : subject.Distinct
  order : subject.keys = begun.eraseDups
  executing : ∀ id, executes id → id ∈ subject.keys
  logged : ∀ entry ∈ subject.log, entry.activityId ∈ subject.keys
  closed : ∀ entry ∈ subject.log, entry.status ≠ .executing
  ended : ∀ id ∈ subject.keys, executes id ∨ ∃ entry ∈ subject.log, entry.activityId = id
  status : ∀ id status, (id, status) ∈ subject.activityStatuses →
    (status = .executing ∧ executes id) ∨ (status = .compensated ∧ definition.Owned id) ∨
      ∃ last, subject.lastLogged? id = some last ∧ last.status = status

namespace Booked

variable {definition : Definition} {begun : List String} {executes executesNext : String → Prop}
  {subject next : Instance} {id : String}

/-- Nothing is noted of an instance that has just begun. -/
theorem new (instanceId processId : String) (bag : Bag) (initiatedBy : String)
    (nothing : ∀ id, ¬ executes id) :
    (Instance.new instanceId processId bag initiatedBy).Booked definition [] executes where
  distinct := List.nodup_nil
  order := rfl
  executing id under := absurd under (nothing id)
  logged entry present := by simp [Instance.new] at present
  closed entry present := by simp [Instance.new] at present
  ended id present := by cases present
  status id status present := by cases present

/-- What is noted depends on the statuses, the log and the executions under way only. -/
theorem of_eq (booked : subject.Booked definition begun executes)
    (statuses : next.activityStatuses = subject.activityStatuses) (log : next.log = subject.log)
    (same : ∀ id, executesNext id ↔ executes id) : next.Booked definition begun executesNext := by
  have sameKeys : next.keys = subject.keys := by rw [keys, statuses, keys]
  have sameLast (id : String) : next.lastLogged? id = subject.lastLogged? id := by
    rw [lastLogged?, log, lastLogged?]
  obtain ⟨distinct, order, executing, logged, closed, ended, status⟩ := booked
  refine ⟨?_, sameKeys.trans order, ?_, ?_, ?_, ?_, ?_⟩
  · rwa [Distinct, statuses]
  · simpa only [same, sameKeys] using executing
  · simpa only [log, sameKeys] using logged
  · simpa only [log] using closed
  · simpa only [same, log, sameKeys] using ended
  · simpa only [same, statuses, sameLast] using status

/-- An execution begins. -/
theorem begin (booked : subject.Booked definition begun executes)
    (statuses : next.activityStatuses = putStatus id .executing subject.activityStatuses)
    (log : next.log = subject.log)
    (same : ∀ other, executesNext other ↔ other = id ∨ executes other) :
    next.Booked definition (begun ++ [id]) executesNext := by
  have sameLast (id : String) : next.lastLogged? id = subject.lastLogged? id := by
    rw [lastLogged?, log, lastLogged?]
  obtain ⟨distinct, order, executing, logged, closed, ended, status⟩ := booked
  have placed : next.keys = if id ∈ subject.keys then subject.keys else subject.keys ++ [id] := by
    rw [keys, statuses, keys_putStatus, keys]
  have mem_keys (other : String) : other ∈ next.keys ↔ other = id ∨ other ∈ subject.keys := by
    rw [placed]
    split
    · rename_i present
      constructor
      · exact .inr
      · rintro (rfl | old)
        · exact present
        · exact old
    · rw [List.mem_append, List.mem_singleton, or_comm]
  refine ⟨?distinct, ?order, fun other under => ?executing, fun entry present => ?logged,
    log ▸ closed, fun other present => ?ended, fun other found present => ?noted⟩
  case distinct =>
    rw [Distinct, statuses]
    exact nodup_putStatus id _ distinct
  case order =>
    rw [placed, order, List.eraseDups_append]
    by_cases present : id ∈ begun <;> simp [List.removeAll, present, List.eraseDups_cons]
  case executing =>
    rcases (same other).mp under with rfl | before
    · exact (mem_keys other).mpr (.inl rfl)
    · exact (mem_keys other).mpr (.inr (executing other before))
  case logged =>
    rw [log] at present
    exact (mem_keys _).mpr (.inr (logged entry present))
  case ended =>
    rw [log]
    rcases (mem_keys other).mp present with rfl | old
    · exact .inl ((same other).mpr (.inl rfl))
    · rcases ended other old with under | noted
      · exact .inl ((same other).mpr (.inr under))
      · exact .inr noted
  case noted =>
    rw [statuses] at present
    rw [sameLast, same]
    rcases mem_putStatus distinct present with ⟨rfl, rfl⟩ | ⟨_, old⟩
    · exact .inl ⟨rfl, .inl rfl⟩
    · rcases status other found old with ⟨isExecuting, under⟩ | noted
      · exact .inl ⟨isExecuting, .inr under⟩
      · exact .inr noted

/-- Setting the status of an activity that has one keeps the order. -/
theorem keys_eq {status : ActivityStatus}
    (statuses : next.activityStatuses = putStatus id status subject.activityStatuses)
    (present : id ∈ subject.keys) : next.keys = subject.keys := by
  rw [keys, statuses, keys_putStatus]
  exact if_pos present

/-- An execution ends, and maybe another of the same activity is still under way. -/
theorem close {entry : LogEntry} (booked : subject.Booked definition begun executes)
    (statuses : next.activityStatuses = putStatus id entry.status subject.activityStatuses)
    (log : next.log = subject.log.push entry) (own : entry.activityId = id)
    (hasEnded : entry.status ≠ .executing) (under : executes id)
    (still : ∀ other, executesNext other → executes other)
    (others : ∀ other, other ≠ id → executes other → executesNext other) :
    next.Booked definition begun executesNext := by
  obtain ⟨distinct, order, executing, logged, closed, ended, status⟩ := booked
  have sameKeys := keys_eq statuses (executing id under)
  refine ⟨?distinct, sameKeys.trans order, fun other underNext => ?executing,
    fun logEntry present => ?logged, fun logEntry present => ?closed, fun other present => ?ended,
    fun other found present => ?noted⟩
  case distinct =>
    rw [Distinct, statuses]
    exact nodup_putStatus id _ distinct
  case executing =>
    rw [sameKeys]
    exact executing other (still other underNext)
  case logged =>
    rw [log, Array.mem_push] at present
    rw [sameKeys]
    rcases present with old | rfl
    · exact logged logEntry old
    · rw [own]
      exact executing id under
  case closed =>
    rw [log, Array.mem_push] at present
    rcases present with old | rfl
    · exact closed logEntry old
    · exact hasEnded
  case ended =>
    rw [sameKeys] at present
    rw [log]
    by_cases isOwn : other = id
    · exact .inr ⟨entry, Array.mem_push_self, own.trans isOwn.symm⟩
    · rcases ended other present with before | ⟨noted, isNoted, same⟩
      · exact .inl (others other isOwn before)
      · exact .inr ⟨noted, Array.mem_push_of_mem _ isNoted, same⟩
  case noted =>
    rw [statuses] at present
    rw [lastLogged?_of_push log]
    rcases mem_putStatus distinct present with ⟨rfl, rfl⟩ | ⟨different, old⟩
    · exact .inr (.inr ⟨entry, if_pos own, rfl⟩)
    · rw [own, if_neg (Ne.symm different)]
      rcases status other found old with ⟨isExecuting, before⟩ | noted
      · exact .inl ⟨isExecuting, others other different before⟩
      · exact .inr noted

/-- A scope is marked as undone. -/
theorem mark (booked : subject.Booked definition begun executes)
    (statuses : next.activityStatuses = putStatus id .compensated subject.activityStatuses)
    (log : next.log = subject.log) (present : id ∈ subject.keys) (owned : definition.Owned id)
    (same : ∀ id, executesNext id ↔ executes id) : next.Booked definition begun executesNext := by
  have sameKeys := keys_eq statuses present
  have sameLast (id : String) : next.lastLogged? id = subject.lastLogged? id := by
    rw [lastLogged?, log, lastLogged?]
  obtain ⟨distinct, order, executing, logged, closed, ended, status⟩ := booked
  refine ⟨?_, sameKeys.trans order, ?_, ?_, log ▸ closed, ?_, fun other found isStatus => ?_⟩
  · rw [Distinct, statuses]
    exact nodup_putStatus id _ distinct
  · simpa only [same, sameKeys] using executing
  · simpa only [log, sameKeys] using logged
  · simpa only [same, log, sameKeys] using ended
  · rw [statuses] at isStatus
    rw [sameLast, same]
    rcases mem_putStatus distinct isStatus with ⟨rfl, rfl⟩ | ⟨_, old⟩
    · exact .inr (.inl ⟨rfl, owned⟩)
    · exact status other found old

end Booked

end Instance

namespace Move

/-- That an execution of an activity begins. -/
def Enters (id : String) : Move → Prop
  | .entered call => call.activity.id = id
  | _ => False

/-- That an execution of an activity ends. -/
def Leaves (id : String) : Move → Prop
  | .left call _ => call.activity.id = id
  | _ => False

end Move

namespace Thread

variable {program : Program} {scene nextScene : Scene} {thread nextThread : Thread} {move : Move}
  {id : String}

/-- That an execution of an activity is under way. -/
def Executes (id : String) : Thread → Prop := Has (fun call => call.activity.id = id) fun _ => False

/-- A thread that begins with a task is inside of no execution. -/
theorem not_executes_ofTask (task : Task) : ¬ (Thread.ofTask task).Executes id := by
  simp [Executes, ofTask]

/-- An execution that begins is under way. -/
theorem Step.executes_of_enters (moved : Step program scene thread move nextScene nextThread)
    (enters : move.Enters id) : nextThread.Executes id := by
  induction moved with
  | enter => exact .call List.mem_cons_self enters
  | branch present _ inductionHypothesis => exact .of_branch present (inductionHypothesis enters)
  | _ => exact enters.elim

/-- An execution that ends was under way. -/
theorem Step.executes_of_leaves (moved : Step program scene thread move nextScene nextThread)
    (leaves : move.Leaves id) : thread.Executes id := by
  induction moved with
  | leave => exact .call List.mem_cons_self leaves
  | branch present _ inductionHypothesis =>
      exact .branch (List.mem_of_getElem? present) (inductionHypothesis leaves)
  | _ => exact leaves.elim

/-- An execution that is under way was so before, or has just begun. -/
theorem Step.of_executes (moved : Step program scene thread move nextScene nextThread)
    (executes : nextThread.Executes id) : thread.Executes id ∨ move.Enters id := by
  unfold Executes at executes ⊢
  induction moved with
  | finish => simp at executes
  | leave =>
      simp only [has_ready_iff, or_false] at executes
      obtain ⟨call, inside, own⟩ := executes
      exact .inl (.call (List.mem_cons_of_mem _ inside) own)
  | act => exact .inl (by simpa using executes)
  | enter =>
      simp only [has_ready_iff, or_false] at executes
      obtain ⟨call, inside, own⟩ := executes
      rcases List.mem_cons.mp inside with rfl | outer
      · exact .inr own
      · exact .inl (.call outer own)
  | rest => exact .inl (by simpa using executes)
  | wake => exact .inl (by simpa using executes)
  | fork =>
      simp only [has_joined_iff, List.mem_map] at executes
      rcases executes with inCalls | ⟨_, ⟨branch, _, rfl⟩, has⟩
      · exact .inl (has_ready_iff.mpr (.inl inCalls))
      · exact absurd has (not_executes_ofTask branch)
  | branch present _ inductionHypothesis =>
      rcases executes.of_set with inBranch | before
      · rcases inductionHypothesis inBranch with before | enters
        · exact .inl (.branch (List.mem_of_getElem? present) before)
        · exact .inr enters
      · exact .inl before
  | join =>
      simp only [has_ready_iff, or_false] at executes
      exact .inl (has_joined_iff.mpr (.inl executes))

/-- An execution that was under way is so still, or has just ended. -/
theorem Step.executes (moved : Step program scene thread move nextScene nextThread)
    (executes : thread.Executes id) : nextThread.Executes id ∨ move.Leaves id := by
  unfold Executes at executes ⊢
  induction moved with
  | finish => simp at executes
  | leave =>
      simp only [has_ready_iff, or_false] at executes
      obtain ⟨call, inside, own⟩ := executes
      rcases List.mem_cons.mp inside with rfl | outer
      · exact .inr own
      · exact .inl (.call outer own)
  | act => exact .inl (by simpa using executes)
  | enter =>
      simp only [has_ready_iff, or_false] at executes
      obtain ⟨call, inside, own⟩ := executes
      exact .inl (.call (List.mem_cons_of_mem _ inside) own)
  | rest => exact .inl (by simpa using executes)
  | wake => exact .inl (by simpa using executes)
  | fork =>
      simp only [has_ready_iff, or_false] at executes
      exact .inl (has_joined_iff.mpr (.inl executes))
  | branch present _ inductionHypothesis =>
      rcases executes.set _ present with inBranch | elsewhere
      · rcases inductionHypothesis inBranch with still | leaves
        · exact .inl (.of_branch present still)
        · exact .inr leaves
      · exact .inl elsewhere
  | join known =>
      rcases has_joined_iff.mp executes with inCalls | ⟨branch, present, has⟩
      · exact .inl (has_ready_iff.mpr (.inl inCalls))
      · obtain ⟨result, rfl⟩ := ended_of_results? known branch present
        exact absurd has (not_has_ended result)

end Thread

end Orchestration
