import Orchestration.Engine.Naming
import Orchestration.Engine.Refusal
import Orchestration.Execution.Thread

/-!
# Engines

An engine keeps the definitions that are deployed and every instance that was ever started from one. An
instance keeps the definition that it was started from, so that undoing it still works when that
definition is gone.
-/

namespace Orchestration

/-- What a callback does with an instance that it is shown. -/
inductive CallbackReply where
  | accepted
  | failed (error : String)
  | panicked
  deriving DecidableEq, Repr

/-- Somebody who wants to know how instances end. -/
structure Callback where
  label : String
  reply : Instance → CallbackReply

/-- A call of a callback with the instance that it was shown. -/
structure Notice where
  label : String
  shown : Instance

/-- An instance and the definition that it was started from. -/
structure Entry where
  definition : Definition
  subject : Instance

namespace Entry

/-- Puts an instance in the place of the first one that has its id. -/
def put (subject : Instance) : List Entry → List Entry
  | [] => []
  | entry :: rest =>
      if entry.subject.id = subject.id then { entry with subject := subject } :: rest
      else entry :: put subject rest

/-- The first entry of an instance. -/
def find? (id : String) (entries : List Entry) : Option Entry :=
  entries.find? fun entry => entry.subject.id = id

/-- What is found under an id has that id. -/
theorem id_of_find? {id : String} {entries : List Entry} {entry : Entry}
    (found : find? id entries = some entry) : entry.subject.id = id := by
  simpa using List.find?_some found

/-- An instance that was put into its place is found there. -/
theorem find?_put_self {subject : Instance} {entries : List Entry} {entry : Entry}
    (found : find? subject.id entries = some entry) :
    find? subject.id (put subject entries) = some { entry with subject := subject } := by
  induction entries with
  | nil => simp [find?] at found
  | cons head rest inductionHypothesis =>
      by_cases same : head.subject.id = subject.id
      · have isHead : head = entry := by simpa [find?, same] using found
        subst isHead
        simp [find?, put, same]
      · have inRest : find? subject.id rest = some entry := by simpa [find?, same] using found
        simpa [find?, put, same] using inductionHypothesis inRest

/-- Putting an instance into its place leaves the others alone. -/
theorem find?_put_of_ne {subject : Instance} {id : String} (entries : List Entry)
    (different : subject.id ≠ id) : find? id (put subject entries) = find? id entries := by
  induction entries with
  | nil => rfl
  | cons head rest inductionHypothesis =>
      by_cases same : head.subject.id = subject.id
      · have headDiffers : head.subject.id ≠ id := fun equal => different (same ▸ equal)
        simp [find?, put, same, different]
      · by_cases wanted : head.subject.id = id
        · subst wanted
          simp [find?, put, same]
        · simpa [find?, put, same, wanted] using inductionHypothesis

/-- Putting back what is there changes nothing. -/
theorem put_of_find? {id : String} {entries : List Entry} {entry : Entry}
    (found : find? id entries = some entry) : put entry.subject entries = entries := by
  induction entries with
  | nil => rfl
  | cons head rest inductionHypothesis =>
      by_cases wanted : head.subject.id = id
      · have isHead : head = entry := by simpa [find?, wanted] using found
        simp [put, isHead]
      · have inRest : find? id rest = some entry := by simpa [find?, wanted] using found
        simp [put, id_of_find? inRest, wanted, inductionHypothesis inRest]

/-- Of two instances with one id the second stays. -/
theorem put_put {first second : Instance} (entries : List Entry) (same : first.id = second.id) :
    put second (put first entries) = put second entries := by
  induction entries with
  | nil => rfl
  | cons head rest inductionHypothesis =>
      by_cases wanted : head.subject.id = second.id
      · simp [put, wanted, same]
      · simp [put, wanted, same, inductionHypothesis]

end Entry

/-- Definitions, instances and those who watch them. -/
structure Engine where
  settings : Settings
  /-- The ids of instances by their numbers in the order of starting, from one on. -/
  naming : Naming
  /-- The time that deadlines are measured from. -/
  now : Timestamp
  /-- The definitions that can be started; no two have one id. -/
  processes : List Definition
  /-- The instances in the order of starting; no two have one id. -/
  entries : List Entry
  /-- The count of instances that were started. -/
  started : Nat
  completedCallbacks : List Callback
  faultedCallbacks : List Callback
  /-- What has happened. -/
  journal : Array Event
  /-- The calls of callbacks. -/
  notices : Array Notice

namespace Engine

/-- An engine in which nothing has happened yet. -/
def new (settings : Settings) (naming : Naming) (now : Timestamp) : Engine where
  settings := settings
  naming := naming
  now := now
  processes := []
  entries := []
  started := 0
  completedCallbacks := []
  faultedCallbacks := []
  journal := #[]
  notices := #[]

/-- The deployed definition under an id. -/
def process? (id : String) (engine : Engine) : Option Definition :=
  engine.processes.find? fun definition => definition.id = id

/-- The entry of an instance. -/
def entry? (id : String) (engine : Engine) : Option Entry :=
  Entry.find? id engine.entries

/-- An instance as it stands. -/
def instance? (id : String) (engine : Engine) : Option Instance :=
  (engine.entry? id).map Entry.subject

/-- The instances of a process, in the order of starting. -/
def instancesOfProcess (processId : String) (engine : Engine) : List Instance :=
  (engine.entries.filter fun entry => entry.definition.id = processId).map Entry.subject

/-- The instances in a status, in the order of starting. -/
def instancesInStatus (status : InstanceStatus) (engine : Engine) : List Instance :=
  (engine.entries.map Entry.subject).filter fun subject => subject.status = status

/-- The count of deployed definitions. -/
def processCount (engine : Engine) : Nat := engine.processes.length

/-- The count of instances. -/
def instanceCount (engine : Engine) : Nat := engine.entries.length

/-- The count of active instances. -/
def activeCount (engine : Engine) : Nat :=
  engine.entries.countP fun entry => entry.subject.status = .active

/-- Puts an instance in the place of the one that has its id. -/
def put (subject : Instance) (engine : Engine) : Engine :=
  { engine with entries := Entry.put subject engine.entries }

/-- Writes an event to the journal. -/
def record (event : Event) (engine : Engine) : Engine :=
  { engine with journal := engine.journal.push event }

/-- Adds a callback for instances that complete. -/
def onCompleted (callback : Callback) (engine : Engine) : Engine :=
  { engine with completedCallbacks := engine.completedCallbacks ++ [callback] }

/-- Adds a callback for instances that end faulted. -/
def onFaulted (callback : Callback) (engine : Engine) : Engine :=
  { engine with faultedCallbacks := engine.faultedCallbacks ++ [callback] }

/-- The callbacks of a hook. -/
def callbacks (hook : Hook) (engine : Engine) : List Callback :=
  match hook with
  | .completed => engine.completedCallbacks
  | .faulted => engine.faultedCallbacks

/-- The event of a callback that did not accept what it was shown. -/
def Callback.event? (hook : Hook) (shown : Instance) : CallbackReply → Option Event
  | .accepted => none
  | .failed error => some (.callbackFailed shown.id hook error)
  | .panicked => some (.callbackPanicked shown.id hook)

/-- Shows an instance to one callback. -/
def call (hook : Hook) (shown : Instance) (engine : Engine) (callback : Callback) : Engine :=
  { engine with
    notices := engine.notices.push ⟨callback.label, shown⟩
    journal := engine.journal ++ (Callback.event? hook shown (callback.reply shown)).toList }

/-- Shows an instance to every callback of a hook, in the order in which they were added. -/
def notify (hook : Hook) (shown : Instance) (engine : Engine) : Engine :=
  (engine.callbacks hook).foldl (call hook shown) engine

end Engine

end Orchestration
