import Orchestration.Proofs.Sessions

/-!
# Callbacks are called once

When an instance that was started has been settled, those who wait for such an end are shown it: all who
waited when it was settled, each of them once and in the order in which they were added, and only then the
call returns. They are shown the instance as it was settled, which is what the call returns with, whatever
became of it in the meantime and whatever other callbacks did with it. Nothing else calls any of them.

For one instance this is a course of three parts. Until its execution is settled nobody is shown anything.
From then on there is one end to be made known, and those who have been called, with those who are still to
be called, are those who were looked up. Once the call has returned nobody is called any more, because no
second execution of the instance can begin.
-/

namespace Orchestration

/-- That the execution of an instance is over: no run of it is under way but one that undoes it. -/
def Situation.Executed (situation : Situation) : Prop :=
  ∀ run, situation.run? = some run → run.purpose = .compensation

/-- An execution that is over remains over. -/
theorem Situation.Step.executed {situation next : Situation} {deed : Deed}
    (happened : situation.Step deed next) (executed : situation.Executed) : next.Executed := by
  intro run isRun
  cases happened with
  | suspend | resume | terminate => exact executed run isRun
  | compensate =>
      cases isRun
      rfl
  | @move own _ _ _ _ _ =>
      cases isRun
      exact executed own rfl
  | conclude => cases isRun

namespace Snapshot

/-- That an instance was started, and its execution is over. -/
def Executed (id : String) (state : Snapshot) : Prop :=
  ∃ situation, state.situation? id = some situation ∧ situation.Executed

/-- The execution of an instance that is over remains over whatever happens to anybody. -/
theorem Executed.evolves {id : String} {state next : Snapshot} {occurrence : Occurrence}
    (executed : state.Executed id)
    (evolves : Evolves id (state.situation? id) occurrence (next.situation? id)) : next.Executed id := by
  obtain ⟨situation, found, finished⟩ := executed
  rw [found] at evolves
  generalize isAfter : next.situation? id = after at evolves
  cases evolves with
  | elsewhere => exact ⟨situation, isAfter, finished⟩
  | step happened => exact ⟨_, isAfter, happened.executed finished⟩

/-- Settling an instance is the end of its execution. -/
theorem executed_of_concluded {id : String} {state next : Snapshot} {purpose : RunPurpose}
    {result : Result} (present : (state.situation? id).isSome)
    (evolves : Evolves id (state.situation? id) (.done id (.concluded purpose result))
      (next.situation? id)) : next.Executed id := by
  obtain ⟨situation, found⟩ := Option.isSome_iff_exists.mp present
  rw [found] at evolves
  obtain ⟨last, isLast, happened⟩ := evolves.exists_step
  cases happened
  exact ⟨_, isLast, nofun⟩

/-- A run of an instance whose execution is over undoes it. -/
theorem Executed.purpose_eq {id : String} {state : Snapshot} {before after : List Run} {run : Run}
    (executed : state.Executed id) (valid : state.Valid) (placed : state.runs = before ++ run :: after)
    (own : run.instanceId = id) : run.purpose = .compensation := by
  obtain ⟨situation, found, finished⟩ := executed
  obtain ⟨subject, _, rfl⟩ := Option.map_eq_some_iff.mp found
  have distinct := valid.distinct
  rw [placed] at distinct
  apply finished
  rw [placed, Run.find?_middle distinct, if_pos own]

end Snapshot

/-- That an end is that of the execution of an instance. -/
def Ending.IsOf (id : String) (ending : Ending) : Prop :=
  ending.instanceId = id ∧ ending.purpose ≠ .compensation

instance (id : String) (ending : Ending) : Decidable (ending.IsOf id) :=
  inferInstanceAs (Decidable (_ ∧ _))

namespace Session

/-- What a callback was shown of an instance. -/
structure Showing where
  hook : Hook
  callback : Callback
  shown : Instance

/-- What an incident showed of an instance. -/
def Incident.showing? (id : String) : Incident → Option Showing
  | .called instanceId hook callback shown =>
      if instanceId = id then some ⟨hook, callback, shown⟩ else none
  | _ => none

/-- The notice of an incident that was a call of a callback. -/
def Incident.notice? : Incident → Option Notice
  | .called _ _ callback shown => some ⟨callback.label, shown⟩
  | _ => none

/-- What callbacks were shown of an instance, in order. -/
def showingsOf (id : String) (moments : List Moment) : List Showing :=
  moments.filterMap fun moment => moment.incident.showing? id

/-- The ends of the execution of an instance that are still to be made known. -/
def endingsOf (id : String) (state : Session) : List Ending :=
  state.endings.filter fun ending => ending.IsOf id

/-- That the execution of an instance was settled, and all who waited for an end like that are among some
callbacks, before others. -/
def Awaits (id : String) (hook : Hook) (subject : Instance) (callbacks : List Callback)
    (moments : List Moment) : Prop :=
  ∃ earlier closing later purpose result, moments = earlier ++ closing :: later ∧
    closing.incident = .settled id purpose result ∧ purpose ≠ .compensation ∧
      closing.after.snapshot.engine.instance? id = some subject ∧
        closing.after.snapshot.engine.callbacks hook <+: callbacks

/-- That some callbacks were those who waited for the end of an instance when they were looked up, after
it had been settled. -/
def Summons (id : String) (hook : Hook) (subject : Instance) (callbacks : List Callback)
    (moments : List Moment) : Prop :=
  ∃ earlier listing later, moments = earlier ++ listing :: later ∧
    Awaits id hook subject callbacks earlier ∧ listing.incident = .listed id hook ∧
      listing.after.snapshot.engine.callbacks hook = callbacks

/-- That callbacks were shown nothing of an instance, or have been shown what its execution left, each in
turn. -/
def Told (id : String) (moments : List Moment) : Prop :=
  showingsOf id moments = [] ∨ ∃ hook subject callbacks, subject.status.hook? = some hook ∧
    Summons id hook subject callbacks moments ∧
      showingsOf id moments <+: callbacks.map fun callback => ⟨hook, callback, subject⟩

/-- How far an end of an instance has been made known. -/
def Accounts (id : String) (moments : List Moment) (state : Session) (ending : Ending) : Prop :=
  match ending.audience with
  | .nobody => ending.subject.status.hook? = none ∧ showingsOf id moments = []
  | .awaited hook => ending.subject.status.hook? = some hook ∧ showingsOf id moments = [] ∧
      Awaits id hook ending.subject (state.snapshot.engine.callbacks hook) moments
  | .listed hook rest => ending.subject.status.hook? = some hook ∧
      ∃ called, Summons id hook ending.subject (called ++ rest) moments ∧
        showingsOf id moments = called.map fun callback => ⟨hook, callback, ending.subject⟩

/-- That the execution of an instance has been settled, and the end is being made known. -/
structure Ends (id : String) (moments : List Moment) (state : Session) (ending : Ending) : Prop where
  only : endingsOf id state = [ending]
  executed : state.snapshot.Executed id
  rests : ending.subject.status ∈ [InstanceStatus.completed, .faulted, .suspended, .terminated]
  rootless : ending.purpose = .missingRoot → ending.subject.status = .faulted
  accounts : Accounts id moments state ending

/-- What callbacks have been shown of an instance. -/
inductive Course (id : String) (moments : List Moment) (state : Session) : Prop where
  /-- Its execution has not been settled. -/
  | waits (nothing : endingsOf id state = []) (unseen : showingsOf id moments = [])
  | ends {ending : Ending} (ends : Ends id moments state ending)
  /-- The call that started it has returned. -/
  | returned (nothing : endingsOf id state = []) (executed : state.snapshot.Executed id)
      (told : Told id moments)

variable {state next : Session} {incident : Incident} {moments more : List Moment} {id : String}
  {hook : Hook} {subject : Instance} {callbacks : List Callback}

/-- Later moments show what they show after the earlier ones. -/
theorem showingsOf_append : showingsOf id (moments ++ more) = showingsOf id moments ++ showingsOf id more :=
  List.filterMap_append

/-- One more moment shows what its own incident does. -/
theorem showingsOf_concat (moment : Moment) :
    showingsOf id (moments ++ [moment]) =
      showingsOf id moments ++ (moment.incident.showing? id).toList := by
  rw [showingsOf_append]
  cases isShown : moment.incident.showing? id <;> simp [showingsOf, isShown]

/-- Those who waited when an instance was settled are still among the callbacks if none went away. -/
theorem Awaits.mono {others : List Callback} (awaits : Awaits id hook subject callbacks moments)
    (grows : callbacks <+: others) (more : List Moment) :
    Awaits id hook subject others (moments ++ more) := by
  obtain ⟨earlier, closing, later, purpose, result, rfl, settled, ofStart, found, waiting⟩ := awaits
  refine ⟨earlier, closing, later ++ more, purpose, result, ?_, settled, ofStart, found,
    waiting.trans grows⟩
  simp

/-- Those who were looked up for an end were so in any longer history. -/
theorem Summons.mono (summons : Summons id hook subject callbacks moments) (more : List Moment) :
    Summons id hook subject callbacks (moments ++ more) := by
  obtain ⟨earlier, listing, later, rfl, awaits, listed, same⟩ := summons
  refine ⟨earlier, listing, later ++ more, ?_, awaits, listed, same⟩
  simp

/-- What follows without a call of a callback changes nothing of what was shown. -/
theorem Told.concat {moment : Moment} (told : Told id moments)
    (unshown : moment.incident.showing? id = none) : Told id (moments ++ [moment]) := by
  have same : showingsOf id (moments ++ [moment]) = showingsOf id moments := by
    simp [showingsOf_concat, unshown]
  unfold Told
  rw [same]
  rcases told with nothing | ⟨hook, subject, callbacks, isHook, summons, shown⟩
  · exact .inl nothing
  · exact .inr ⟨hook, subject, callbacks, isHook, summons.mono _, shown⟩

/-- What has been shown on the way of an end is in keeping with what is to be shown. -/
theorem Accounts.told {ending : Ending} (accounts : Accounts id moments state ending) :
    Told id moments := by
  unfold Accounts at accounts
  split at accounts
  · exact .inl accounts.2
  · exact .inl accounts.2.1
  · obtain ⟨isHook, called, summons, shown⟩ := accounts
    refine .inr ⟨_, _, _, isHook, summons, ?_⟩
    rw [shown, List.map_append]
    exact List.prefix_append _ _

/-- What follows without a call of a callback leaves an end as far as it was. -/
theorem Accounts.concat {ending : Ending} {moment : Moment}
    (accounts : Accounts id moments state ending) (unshown : moment.incident.showing? id = none)
    (grows : ∀ hook, state.snapshot.engine.callbacks hook <+: next.snapshot.engine.callbacks hook) :
    Accounts id (moments ++ [moment]) next ending := by
  have same : showingsOf id (moments ++ [moment]) = showingsOf id moments := by
    simp [showingsOf_concat, unshown]
  unfold Accounts at accounts ⊢
  rw [same]
  split at accounts
  · exact accounts
  · obtain ⟨isHook, unseen, awaits⟩ := accounts
    exact ⟨isHook, unseen, awaits.mono (grows _) _⟩
  · obtain ⟨isHook, called, summons, shown⟩ := accounts
    exact ⟨isHook, called, summons.mono _, shown⟩

/-- What has nothing to do with the end of an instance leaves its course where it was. -/
theorem Course.elsewhere (course : Course id moments state)
    (unshown : incident.showing? id = none) (same : endingsOf id next = endingsOf id state)
    (grows : ∀ hook, state.snapshot.engine.callbacks hook <+: next.snapshot.engine.callbacks hook)
    (evolves : Snapshot.Evolves id (state.snapshot.situation? id) incident.occurrence
      (next.snapshot.situation? id)) :
    Course id (moments ++ [⟨incident, next⟩]) next := by
  cases course with
  | waits nothing unseen =>
      refine .waits (same.trans nothing) ?_
      simp [showingsOf_concat, unseen, unshown]
  | ends ends =>
      exact .ends ⟨same.trans ends.only, ends.executed.evolves evolves, ends.rests, ends.rootless,
        ends.accounts.concat unshown grows⟩
  | returned nothing executed told =>
      exact .returned (same.trans nothing) (executed.evolves evolves) (told.concat unshown)

/-- An end of an execution that stands among others is the only one. -/
theorem only_of_placed {before after : List Ending} {ending only : Ending}
    (placed : state.endings = before ++ ending :: after) (own : ending.IsOf id)
    (known : endingsOf id state = [only]) :
    ending = only ∧ ∀ (others : List Ending) (snapshot : Snapshot),
      endingsOf id ⟨snapshot, before ++ others ++ after⟩ = others.filter fun other => other.IsOf id := by
  unfold endingsOf at known
  rw [placed, List.filter_append, List.filter_cons_of_pos (by simpa using own),
    List.append_eq_singleton_iff] at known
  rcases known with ⟨noneBefore, rest⟩ | ⟨_, impossible⟩
  · obtain ⟨same, noneAfter⟩ := List.cons_eq_cons.mp rest
    refine ⟨same, fun others snapshot => ?_⟩
    simp only [endingsOf, List.filter_append, noneBefore, noneAfter, List.nil_append, List.append_nil]
  · cases impossible

/-- Where an end stands that is not of an execution, others that are not may stand as well. -/
theorem endingsOf_of_other {before after others : List Ending} {ending : Ending}
    (placed : state.endings = before ++ ending :: after) (other : ¬ ending.IsOf id)
    (also : ∀ other ∈ others, ¬ other.IsOf id) (snapshot : Snapshot) :
    endingsOf id ⟨snapshot, before ++ others ++ after⟩ = endingsOf id state := by
  have none : others.filter (fun other => other.IsOf id) = [] := by
    simpa [List.filter_eq_nil_iff] using also
  unfold endingsOf
  rw [placed, List.filter_append, List.filter_append, none,
    List.filter_append, List.filter_cons_of_neg (by simpa using other), List.append_nil]

/-- How far an end has been made known does not tell whose it is. -/
theorem endingsOf_replace {before after : List Ending} {ending : Ending} {audience : Audience}
    (placed : state.endings = before ++ ending :: after) (other : ¬ ending.IsOf id)
    (snapshot : Snapshot) :
    endingsOf id ⟨snapshot, before ++ { ending with audience := audience } :: after⟩ =
      endingsOf id state := by
  have also : ∀ one ∈ [{ ending with audience := audience }], ¬ Ending.IsOf id one := by
    simpa [Ending.IsOf] using other
  simpa using endingsOf_of_other placed other also snapshot

/-- That the ends of compensations wait for nobody. -/
def Discreet (state : Session) : Prop :=
  ∀ ending ∈ state.endings, ending.purpose = .compensation → ending.audience = .nobody

/-- An end of an execution that is still to be made known is the one that its instance is in. -/
theorem Course.ends_of_placed {before after : List Ending} {ending : Ending}
    (course : Course id moments state) (placed : state.endings = before ++ ending :: after)
    (own : ending.IsOf id) : Ends id moments state ending := by
  have present : ending ∈ endingsOf id state := by
    simp [endingsOf, placed, own]
  cases course with
  | waits nothing => simp [nothing] at present
  | returned nothing => simp [nothing] at present
  | ends ends =>
      obtain ⟨rfl, _⟩ := only_of_placed placed own ends.only
      exact ends

/-- Those who wait for an end when it is settled are found by its hook. -/
theorem accounts_of_settled {purpose : RunPurpose} {result : Result}
    (settled : next.snapshot.engine.instance? id = some subject) (ofStart : purpose ≠ .compensation)
    (unseen : showingsOf id moments = []) :
    Accounts id (moments ++ [⟨.settled id purpose result, next⟩]) next
      ⟨id, purpose, subject, .of subject.status.hook?⟩ := by
  have nothing : showingsOf id (moments ++ [⟨.settled id purpose result, next⟩]) = [] := by
    simp [showingsOf_concat, unseen, Incident.showing?]
  unfold Accounts
  cases isHook : subject.status.hook? with
  | none => exact ⟨rfl, nothing⟩
  | some hook =>
      refine ⟨rfl, nothing, ?_⟩
      exact ⟨moments, _, [], purpose, result, rfl, rfl, ofStart, settled, List.prefix_rfl⟩

/-- While the execution of an instance is under way, nothing of its end is there. -/
theorem Course.nothing_of_placed {before after : List Run} {run : Run}
    (course : Course run.instanceId moments state) (valid : state.snapshot.Valid)
    (placed : state.snapshot.runs = before ++ run :: after) (ofStart : run.purpose ≠ .compensation) :
    endingsOf run.instanceId state = [] ∧ showingsOf run.instanceId moments = [] := by
  cases course with
  | waits nothing unseen => exact ⟨nothing, unseen⟩
  | ends ends => exact absurd (ends.executed.purpose_eq valid placed rfl) ofStart
  | returned _ executed => exact absurd (executed.purpose_eq valid placed rfl) ofStart

/-- The status that the end of an execution leaves tells who is to be shown it. -/
theorem rests_of_close {before after : List Run} {run : Run} {result : Result} {engine : Engine}
    {hook? : Option Hook} (valid : state.snapshot.Valid)
    (sound : ∀ situation, state.snapshot.situation? run.instanceId = some situation →
      situation.Sound ∧ situation.Rootless)
    (placed : state.snapshot.runs = before ++ run :: after) (ofStart : run.purpose ≠ .compensation)
    (ended : run.thread = .ended result)
    (closed : state.snapshot.engine.close run result = some (engine, subject, hook?)) :
    hook? = subject.status.hook? ∧
      subject.status ∈ [InstanceStatus.completed, .faulted, .suspended, .terminated] ∧
        (run.purpose = .missingRoot → subject.status = .faulted) := by
  obtain ⟨old, found, isSettled, _⟩ := Engine.close_spec closed
  have distinct := valid.distinct
  rw [placed] at distinct
  have situated : state.snapshot.situation? run.instanceId = some ⟨old, some run⟩ := by
    simp [Snapshot.situation?, found, placed, Run.find?_middle distinct]
  obtain ⟨isSound, isRootless⟩ := sound _ situated
  have allowed : run.purpose.Allows old.status := isSound run rfl
  have fails (missing : run.purpose = .missingRoot) : ∃ error, result = .error error := by
    obtain ⟨error, failed⟩ := isRootless run rfl missing
    exact ⟨error, by simpa [ended] using failed⟩
  constructor
  · refine Engine.hook?_of_close closed ofStart (fun other isOther => ?_) fails
    cases found.symm.trans isOther
    exact allowed
  · rw [isSettled]
    exact RunPurpose.status_settle ofStart allowed fails

/-- When an execution is settled, its end is there to be made known. -/
theorem Course.settle {before after : List Run} {run : Run} {result : Result} {engine : Engine}
    {hook? : Option Hook} (course : Course run.instanceId moments state)
    (valid : state.snapshot.Valid)
    (sound : ∀ situation, state.snapshot.situation? run.instanceId = some situation →
      situation.Sound ∧ situation.Rootless)
    (placed : state.snapshot.runs = before ++ run :: after) (ofStart : run.purpose ≠ .compensation)
    (ended : run.thread = .ended result)
    (closed : state.snapshot.engine.close run result = some (engine, subject, hook?)) :
    let left : Session :=
      ⟨⟨engine, before ++ after⟩, ⟨run.instanceId, run.purpose, subject, .of hook?⟩ :: state.endings⟩
    Ends run.instanceId (moments ++ [⟨.settled run.instanceId run.purpose result, left⟩]) left
      ⟨run.instanceId, run.purpose, subject, .of hook?⟩ := by
  intro left
  obtain ⟨nothing, unseen⟩ := course.nothing_of_placed valid placed ofStart
  obtain ⟨rfl, rests, rootless⟩ := rests_of_close valid sound placed ofStart ended closed
  have settled : left.snapshot.engine.instance? run.instanceId = some subject :=
    Engine.instance?_of_close closed
  refine ⟨?_, ?_, rests, rootless, accounts_of_settled settled ofStart unseen⟩
  · have own : Ending.IsOf run.instanceId
        ⟨run.instanceId, run.purpose, subject, .of subject.status.hook?⟩ := ⟨rfl, ofStart⟩
    unfold endingsOf at nothing ⊢
    rw [List.filter_cons_of_pos (by simpa using own), nothing]
  · obtain ⟨old, found, rfl, becomes, _⟩ := Engine.close_spec closed
    have evolves := (Snapshot.evolves_of_settle valid placed ended found becomes).2 run.instanceId
    apply Snapshot.executed_of_concluded ?_ evolves
    rw [Snapshot.situation?, found]
    rfl

/-- An end that has been made known further takes the place of what it was. -/
theorem Ends.further {before after : List Ending} {ending : Ending} {audience : Audience}
    {snapshot : Snapshot} (ends : Ends id moments state ending)
    (placed : state.endings = before ++ ending :: after) (own : ending.IsOf id)
    (executed : snapshot.Executed id)
    (accounts : Accounts id more ⟨snapshot, before ++ { ending with audience := audience } :: after⟩
      { ending with audience := audience }) :
    Ends id more ⟨snapshot, before ++ { ending with audience := audience } :: after⟩
      { ending with audience := audience } := by
  have only := (only_of_placed placed own ends.only).2 [{ ending with audience := audience }] snapshot
  have also : Ending.IsOf id { ending with audience := audience } := own
  rw [List.append_assoc, List.singleton_append, List.filter_cons_of_pos (by simpa using also)] at only
  exact ⟨only, executed, ends.rests, ends.rootless, accounts⟩

/-- Those who are looked up are those who will be called. -/
theorem Ends.list {before after : List Ending} {ending : Ending} (ends : Ends id moments state ending)
    (placed : state.endings = before ++ ending :: after) (own : ending.IsOf id)
    (awaited : ending.audience = .awaited hook) :
    let listed : Ending :=
      { ending with audience := .listed hook (state.snapshot.engine.callbacks hook) }
    let left : Session := ⟨state.snapshot, before ++ listed :: after⟩
    Ends id (moments ++ [⟨.listed ending.instanceId hook, left⟩]) left listed := by
  intro listed left
  have accounts := ends.accounts
  simp only [Accounts, awaited] at accounts
  obtain ⟨isHook, unseen, awaits⟩ := accounts
  refine ends.further placed own ends.executed ⟨isHook, [], ?_, ?_⟩
  · exact ⟨moments, _, [], rfl, awaits, by rw [own.1], rfl⟩
  · simp [showingsOf_concat, unseen, Incident.showing?]

/-- A callback that is called is the next one of those who were looked up. -/
theorem Ends.call {before after : List Ending} {ending : Ending} {callback : Callback}
    {rest : List Callback} {snapshot : Snapshot} (ends : Ends id moments state ending)
    (placed : state.endings = before ++ ending :: after) (own : ending.IsOf id)
    (listed : ending.audience = .listed hook (callback :: rest)) (executed : snapshot.Executed id) :
    let called : Ending := { ending with audience := .listed hook rest }
    let left : Session := ⟨snapshot, before ++ called :: after⟩
    Ends id (moments ++ [⟨.called ending.instanceId hook callback ending.subject, left⟩]) left
      called := by
  intro called left
  have accounts := ends.accounts
  simp only [Accounts, listed] at accounts
  obtain ⟨isHook, already, summons, shown⟩ := accounts
  refine ends.further placed own executed ⟨isHook, already ++ [callback], ?_, ?_⟩
  · rw [List.append_assoc, List.singleton_append]
    exact summons.mono _
  · simp [showingsOf_concat, shown, Incident.showing?, own.1]

/-- How the end of an execution goes on when something happens in a session. -/
inductive Proceeds (id : String) (state : Session) : Incident → Session → Prop where
  | elsewhere {incident : Incident} {next : Session} (unshown : incident.showing? id = none)
      (same : endingsOf id next = endingsOf id state)
      (grows : ∀ hook,
        state.snapshot.engine.callbacks hook <+: next.snapshot.engine.callbacks hook) :
      Proceeds id state incident next
  | settle {before after : List Run} {run : Run} {result : Result} {engine : Engine} {subject : Instance}
      {hook? : Option Hook} (own : run.instanceId = id) (ofStart : run.purpose ≠ .compensation)
      (placed : state.snapshot.runs = before ++ run :: after) (ended : run.thread = .ended result)
      (closed : state.snapshot.engine.close run result = some (engine, subject, hook?)) :
      Proceeds id state (.settled run.instanceId run.purpose result)
        ⟨⟨engine, before ++ after⟩,
          ⟨run.instanceId, run.purpose, subject, .of hook?⟩ :: state.endings⟩
  | list {before after : List Ending} {ending : Ending} {hook : Hook} (own : ending.IsOf id)
      (placed : state.endings = before ++ ending :: after) (awaited : ending.audience = .awaited hook) :
      Proceeds id state (.listed ending.instanceId hook)
        ⟨state.snapshot, before ++
          { ending with audience := .listed hook (state.snapshot.engine.callbacks hook) } :: after⟩
  | call {before after : List Ending} {ending : Ending} {hook : Hook} {callback : Callback}
      {rest : List Callback} {snapshot : Snapshot} (own : ending.IsOf id)
      (placed : state.endings = before ++ ending :: after)
      (listed : ending.audience = .listed hook (callback :: rest)) :
      Proceeds id state (.called ending.instanceId hook callback ending.subject)
        ⟨snapshot, before ++ { ending with audience := .listed hook rest } :: after⟩
  | answer {before after : List Ending} {ending : Ending} (own : ending.IsOf id)
      (placed : state.endings = before ++ ending :: after)
      (known : ending.audience = .nobody ∨ ∃ hook, ending.audience = .listed hook []) :
      Proceeds id state (.returned ending.instanceId ending.purpose ending.subject)
        ⟨state.snapshot, before ++ after⟩

/-- A step concerns the end of one execution at most. -/
theorem Step.proceeds (discreet : state.Discreet) (transition : Step state incident next) (id : String) :
    Proceeds id state incident next := by
  cases transition with
  | pass passing transition =>
      refine .elsewhere rfl rfl (transition.quiet ?_).callbacks
      rintro _ _ _ rfl
      exact passing
  | start _ accepted => exact .elsewhere rfl rfl (Engine.quiet_of_start accepted).callbacks
  | @settle before after run result engine subject hook? placed ended closed =>
      by_cases own : run.instanceId = id ∧ run.purpose ≠ .compensation
      · exact .settle own.1 own.2 placed ended closed
      · obtain ⟨_, _, _, _, quiet⟩ := Engine.close_spec closed
        have other : ¬ Ending.IsOf id ⟨run.instanceId, run.purpose, subject, .of hook?⟩ := own
        refine .elsewhere rfl ?_ quiet.callbacks
        unfold endingsOf
        rw [List.filter_cons_of_neg (by simpa using other)]
  | @list before after ending hook placed awaited =>
      by_cases own : ending.IsOf id
      · exact .list own placed awaited
      · exact .elsewhere rfl (endingsOf_replace placed own _) fun _ => List.prefix_rfl
  | @call before after ending hook callback rest placed listed =>
      by_cases own : ending.IsOf id
      · exact .call own placed listed
      · have elsewhere : ending.instanceId ≠ id := by
          intro same
          have undoes : ending.purpose = .compensation := by
            by_contra ofStart
            exact own ⟨same, ofStart⟩
          have silent := discreet ending (by simp [placed]) undoes
          rw [listed] at silent
          cases silent
        refine .elsewhere (if_neg elsewhere) (endingsOf_replace placed own _) fun hook => ?_
        cases hook <;> exact List.prefix_rfl
  | @answer before after ending placed known =>
      by_cases own : ending.IsOf id
      · exact .answer own placed known
      · refine .elsewhere rfl ?_ fun _ => List.prefix_rfl
        simpa using endingsOf_of_other placed own (List.forall_mem_nil _) state.snapshot

/-- Whatever happens in a session, the callbacks that are called of an instance are called in turn. -/
theorem Course.step (course : Course id moments state) (valid : state.snapshot.Valid)
    (sound : ∀ id situation, state.snapshot.situation? id = some situation →
      situation.Sound ∧ situation.Rootless)
    (evolves : Snapshot.Evolves id (state.snapshot.situation? id) incident.occurrence
      (next.snapshot.situation? id))
    (proceeds : Proceeds id state incident next) : Course id (moments ++ [⟨incident, next⟩]) next := by
  cases proceeds with
  | elsewhere unshown same grows => exact course.elsewhere unshown same grows evolves
  | settle own ofStart placed ended closed =>
      subst own
      exact .ends (course.settle valid (sound _) placed ofStart ended closed)
  | list own placed awaited => exact .ends ((course.ends_of_placed placed own).list placed own awaited)
  | call own placed listed =>
      have ends := course.ends_of_placed placed own
      exact .ends (ends.call placed own listed (ends.executed.evolves evolves))
  | answer own placed known =>
      have ends := course.ends_of_placed placed own
      have nothing := (only_of_placed placed own ends.only).2 [] state.snapshot
      rw [List.append_nil] at nothing
      exact .returned nothing ends.executed (ends.accounts.told.concat rfl)

/-- Nobody is shown anything of an instance whose end is known. -/
theorem Proceeds.silent (proceeds : Proceeds id state incident next) (valid : state.snapshot.Valid)
    (executed : state.snapshot.Executed id) (nothing : endingsOf id state = []) :
    incident.showing? id = none ∧ endingsOf id next = [] := by
  have absent {before after : List Ending} {ending : Ending} (own : ending.IsOf id)
      (placed : state.endings = before ++ ending :: after) : False := by
    have present : ending ∈ endingsOf id state := by
      simp [endingsOf, placed, own]
    simp [nothing] at present
  cases proceeds with
  | elsewhere unshown same => exact ⟨unshown, same.trans nothing⟩
  | settle own ofStart placed => exact absurd (executed.purpose_eq valid placed own) ofStart
  | list own placed => exact (absent own placed).elim
  | call own placed => exact (absent own placed).elim
  | answer own placed => exact (absent own placed).elim

/-- An end is that of a compensation only if it waits for nobody. -/
theorem Step.discreet (transition : Step state incident next) (discreet : state.Discreet) :
    next.Discreet := by
  have replaced {before after : List Ending} {ending : Ending} {audience : Audience}
      (placed : state.endings = before ++ ending :: after) (waits : ending.audience ≠ .nobody)
      (snapshot : Snapshot) :
      Discreet ⟨snapshot, before ++ { ending with audience := audience } :: after⟩ := by
    intro other present undoes
    simp only [List.mem_append, List.mem_cons] at present
    rcases present with earlier | rfl | later
    · exact discreet other (by simp [placed, earlier]) undoes
    · exact absurd (discreet ending (by simp [placed]) undoes) waits
    · exact discreet other (by simp [placed, later]) undoes
  cases transition with
  | pass | start => exact discreet
  | @settle _ _ run _ _ _ _ _ _ closed =>
      intro other present undoes
      rcases List.mem_cons.mp present with rfl | old
      · rw [Engine.hook?_of_compensation closed undoes]
        rfl
      · exact discreet other old undoes
  | list placed awaited => exact replaced placed (by simp [awaited]) _
  | call placed listed => exact replaced placed (by simp [listed]) _
  | answer placed _ =>
      intro other present undoes
      apply discreet other ?_ undoes
      simp only [placed, List.mem_append, List.mem_cons] at present ⊢
      tauto

/-- Every notice is of a call of a callback. -/
theorem Step.notices (transition : Step state incident next) :
    next.snapshot.engine.notices.toList =
      state.snapshot.engine.notices.toList ++ incident.notice?.toList := by
  cases transition with
  | pass passing transition =>
      have quiet := transition.quiet (by rintro _ _ _ rfl; exact passing)
      simp [quiet.notices, Incident.notice?]
  | start _ accepted => simp [(Engine.quiet_of_start accepted).notices, Incident.notice?]
  | settle _ _ closed =>
      obtain ⟨_, _, _, _, quiet⟩ := Engine.close_spec closed
      simp [quiet.notices, Incident.notice?]
  | call => simp [Engine.call, Incident.notice?]
  | list | answer => simp [Incident.notice?]

variable {settings : Settings} {naming : Naming} {now : Timestamp}

/-- In a session, the status of every instance goes with the purpose of its run. -/
theorem History.sound (history : History (.new settings naming now) moments state) (id : String)
    (situation : Situation) (found : state.snapshot.situation? id = some situation) :
    situation.Sound ∧ situation.Rootless :=
  ⟨(history.life found).sound, (history.life found).rootless⟩

/-- In a session, the ends of compensations wait for nobody. -/
theorem History.discreet (history : History (.new settings naming now) moments state) :
    state.Discreet := by
  induction history with
  | refl => simp [Discreet, new]
  | step _ transition inductionHypothesis => exact transition.discreet inductionHypothesis

/-- A step in a history is a step of the instance that it says. -/
theorem History.evolves (history : History (.new settings naming now) moments state)
    (transition : Step state incident next) (id : String) :
    Snapshot.Evolves id (state.snapshot.situation? id) incident.occurrence
      (next.snapshot.situation? id) :=
  (transition.evolves history.project.1 fun id situation found => (history.sound id situation found).1).2 id

/-- In every history callbacks are shown of every instance what its course is. -/
theorem History.course (history : History (.new settings naming now) moments state) (id : String) :
    Course id moments state := by
  induction history with
  | refl => exact .waits rfl rfl
  | step prior transition inductionHypothesis =>
      exact inductionHypothesis.step prior.project.1 prior.sound (prior.evolves transition id)
        (transition.proceeds prior.discreet id)

/-- In every history the notices are those of the calls of callbacks. -/
theorem History.notices (history : History (.new settings naming now) moments state) :
    state.snapshot.engine.notices.toList =
      moments.filterMap fun moment => moment.incident.notice? := by
  induction history with
  | refl => rfl
  | @step _ incident _ _ _ transition inductionHypothesis =>
      rw [transition.notices, inductionHypothesis, List.filterMap_append]
      cases isNotice : incident.notice? <;> simp [isNotice]

/-- Nobody is shown anything of an instance in what follows when its end is known. -/
theorem History.silent {final : Session} {later : List Moment}
    (reached : History (.new settings naming now) moments state)
    (executed : state.snapshot.Executed id) (nothing : endingsOf id state = [])
    (onward : History state later final) : showingsOf id later = [] := by
  suffices all : showingsOf id later = [] ∧ final.snapshot.Executed id ∧ endingsOf id final = [] from all.1
  induction onward with
  | refl => exact ⟨rfl, executed, nothing⟩
  | step prior transition inductionHypothesis =>
      obtain ⟨unseen, executed, nothing⟩ := inductionHypothesis
      have sofar := reached.trans prior
      obtain ⟨unshown, nothing⟩ :=
        (transition.proceeds sofar.discreet id).silent sofar.project.1 executed nothing
      refine ⟨?_, executed.evolves (sofar.evolves transition id), nothing⟩
      simp [showingsOf_concat, unseen, unshown]

/-- A call returns when those who waited for the end of its run have been shown it. -/
theorem Ends.returned {ending : Ending} (ends : Ends id moments state ending)
    (known : ending.audience = .nobody ∨ ∃ hook, ending.audience = .listed hook []) :
    (ending.subject.status.hook? = none → showingsOf id moments = []) ∧
      ∀ hook, ending.subject.status.hook? = some hook →
        ∃ callbacks, Summons id hook ending.subject callbacks moments ∧
          showingsOf id moments = callbacks.map fun callback => ⟨hook, callback, ending.subject⟩ := by
  have accounts := ends.accounts
  rcases known with nobody | ⟨listedHook, listed⟩
  · simp only [Accounts, nobody] at accounts
    refine ⟨fun _ => accounts.2, fun hook isHook => ?_⟩
    rw [accounts.1] at isHook
    cases isHook
  · simp only [Accounts, listed, List.append_nil] at accounts
    obtain ⟨known, called, summons, shown⟩ := accounts
    rw [known]
    refine ⟨nofun, fun hook isHook => ?_⟩
    cases isHook
    exact ⟨called, summons, shown⟩

/-- In every session, whatever callbacks do with what they are shown, those who wait for the end of an
instance are called once: when a call that started an instance returns, it returns with the instance as it
was when it was settled; if that was completed or faulted, those who waited for such an end when they were
looked up, with all among them who waited when the instance was settled, have been called in order and
shown the same, and otherwise nobody has been called; and nobody is called of it any more. Nobody was ever
called but so, and every end that is still to be made known can be, until the call returns. -/
theorem callbacks_called_once {settings : Settings} {naming : Naming} {now : Timestamp}
    {moments : List Moment} {state : Session} (history : History (.new settings naming now) moments state) :
    (∀ earlier later id purpose subject after,
      moments = earlier ++ ⟨.returned id purpose subject, after⟩ :: later → purpose ≠ .compensation →
        subject.status ∈ [InstanceStatus.completed, .faulted, .suspended, .terminated] ∧
        (purpose = .missingRoot → subject.status = .faulted) ∧
        (subject.status.hook? = none → showingsOf id earlier = []) ∧
        (∀ hook, subject.status.hook? = some hook →
          ∃ callbacks, Summons id hook subject callbacks earlier ∧
            showingsOf id earlier = callbacks.map fun callback => ⟨hook, callback, subject⟩) ∧
        showingsOf id later = []) ∧
      (∀ id, Told id moments) ∧
      state.snapshot.engine.notices.toList =
        moments.filterMap (fun moment => moment.incident.notice?) ∧
      ∀ ending ∈ state.endings, ∃ final, Returns state ending final := by
  refine ⟨?_, ?_, history.notices, ?_⟩
  · rintro earlier later id purpose subject after rfl ofStart
    obtain ⟨middle, reached, returns, onward⟩ := history.split
    generalize isReturn : Incident.returned id purpose subject = incident at returns
    cases returns with
    | @answer before after ending placed known =>
        obtain ⟨rfl, rfl, rfl⟩ := isReturn
        have own : ending.IsOf ending.instanceId := ⟨rfl, ofStart⟩
        have ends := (reached.course ending.instanceId).ends_of_placed placed own
        obtain ⟨unseen, shown⟩ := ends.returned known
        have nothing := (only_of_placed placed own ends.only).2 [] middle.snapshot
        rw [List.append_nil] at nothing
        refine ⟨ends.rests, ends.rootless, unseen, shown, ?_⟩
        exact (reached.step (.answer placed known)).silent ends.executed nothing onward
    | _ => cases isReturn
  · intro id
    cases history.course id with
    | waits _ unseen => exact .inl unseen
    | ends ends => exact ends.accounts.told
    | returned _ _ told => exact told
  · intro ending present
    obtain ⟨before, after, placed⟩ := List.append_of_mem present
    obtain ⟨⟨engine, runs⟩, endings⟩ := state
    subst placed
    exact ⟨_, returns_of_ending ending⟩

namespace Watched

/-- Does nothing. -/
def main : Activity := { id := "main", kind := .empty }

/-- A process that completes. -/
def definition : Definition := .ofActivities "p" "P" "main" [main]

/-- One who panics at whatever he is shown. -/
def frightened : Callback := ⟨"frightened", fun _ => .panicked⟩

/-- One who takes what he is shown. -/
def calm : Callback := ⟨"calm", fun _ => .accepted⟩

/-- Two wait for completed instances and one for faulted ones, an instance is started, and it completes. -/
theorem completes : ∃ moments state subject last,
    History (.new .default (.numbered "i-") ⟨0, 0⟩)
        (moments ++ [⟨.returned "i-1" .execution subject, last⟩]) state ∧
      subject.status = .completed ∧ showingsOf "i-1" moments =
        [⟨.completed, frightened, subject⟩, ⟨.completed, calm, subject⟩] := by
  have deployed := History.single (@Step.pass (.new .default (.numbered "i-") ⟨0, 0⟩) .administered _
    trivial (@Snapshot.Step.deploy _ definition _ rfl))
  have watched := ((deployed.step
    (@Step.pass _ .administered _ trivial (@Snapshot.Step.watchCompleted _ frightened))).step
    (@Step.pass _ .administered _ trivial (@Snapshot.Step.watchFaulted _ calm))).step
    (@Step.pass _ .administered _ trivial (@Snapshot.Step.watchCompleted _ calm))
  have started := watched.step (@Step.start _ "p" "oracle" [] _ [] [] _ rfl rfl)
  have entered := started.step (@Step.pass _ (.done _ (.moved _)) _ trivial
    (@Snapshot.Step.move _ [] [] _ _ _ _ _ rfl rfl (@Thread.Step.enter _ _ [] ⟨main, .part, _⟩)))
  have left := entered.step (@Step.pass _ (.done _ (.moved _)) _ trivial
    (@Snapshot.Step.move _ [] [] _ _ _ _ _ rfl rfl .leave))
  have ended := left.step (@Step.pass _ (.done _ (.moved _)) _ trivial
    (@Snapshot.Step.move _ [] [] _ _ _ _ _ rfl rfl .finish))
  have settled := ended.step (@Step.settle _ [] [] _ _ _ _ _ rfl rfl rfl)
  have listed := settled.step (@Step.list _ [] [] _ .completed rfl rfl)
  have called := (listed.step (@Step.call _ [] [] _ _ _ _ rfl rfl)).step
    (@Step.call _ [] [] _ _ _ _ rfl rfl)
  have returned := called.step (@Step.answer _ [] [] _ rfl (.inr ⟨_, rfl⟩))
  exact ⟨_, _, _, _, returned, rfl, rfl⟩

end Watched

/-- Two callbacks are called when an instance completes, although the first of them panics. -/
theorem exists_callbacks_called : ∃ moments state subject last,
    History (.new .default (.numbered "i-") ⟨0, 0⟩)
        (moments ++ [⟨.returned "i-1" .execution subject, last⟩]) state ∧
      Summons "i-1" .completed subject [Watched.frightened, Watched.calm] moments ∧
        showingsOf "i-1" moments =
          [Watched.frightened, Watched.calm].map fun callback => ⟨.completed, callback, subject⟩ := by
  obtain ⟨moments, state, subject, last, history, completed, shown⟩ := Watched.completes
  obtain ⟨_, _, _, called, _⟩ :=
    (callbacks_called_once history).1 moments [] "i-1" .execution subject last rfl nofun
  obtain ⟨callbacks, summons, same⟩ := called .completed (by rw [completed]; rfl)
  obtain rfl : callbacks = [Watched.frightened, Watched.calm] := by
    have known := congrArg (List.map Showing.callback) (same.symm.trans shown)
    simpa [Function.comp_def] using known
  exact ⟨moments, state, subject, last, history, summons, same⟩

end Session

end Orchestration
