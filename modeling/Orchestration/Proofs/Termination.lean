import Mathlib.Logic.Relation
import Orchestration.Proofs.Nesting

/-!
# Which runs come to an end

A course follows a thread move by move, with anything happening to the instance in between. Where
references are acyclic, a course ends exactly if the handlers that undo scopes nest within a bound on it.
Acyclic references do not see to that: a handler that compensates finds its own scope still completed,
and begins again.
-/

namespace Orchestration

/-- The task that a run of an instance begins with. -/
inductive Program.Begins (program : Program) : Task → Prop where
  | execution {root : Activity} (present : program.definition.root? = some root) :
      Begins program (program.run root)
  | compensation : Begins program program.compensateProcess

/-- The contract that allows to call activities of a definition, and as a part only those under some
ids. -/
def Definition.callsWithin (definition : Definition) (permitted : String → Prop) : Contract where
  calls activity role :=
    ∃ id, definition.activity? id = some activity ∧ (role = .part → permitted id)
  replies _ _ := True
  returns _ := True

/-- The contract grants what tasks need, and lets them fail with anything. -/
theorem Definition.callsWithin_admits (program : Program) (permitted : String → Prop) :
    (program.definition.callsWithin permitted).Admits program where
  completed := trivial
  failed _ := trivial
  stopped _ := trivial
  exited _ _ := trivial
  undoing _ _ _ step _ _ found := ⟨step.handlerId, found, fun part => by cases part⟩

/-- An activity may be called under an id that is permitted. -/
theorem Definition.callsWithin_grants {program : Program} {permitted : String → Prop} {id : String}
    (allowed : permitted id) : (program.definition.callsWithin permitted).Grants program id :=
  fun _ found => ⟨id, found, fun _ => allowed⟩

namespace Thread

variable {program : Program}

/-- Where references are acyclic, no activity keeps moving within a bound. A call of a part goes down
along a reference, and a call of a handler leaves less of the bound. -/
theorem acc_body (acyclic : program.definition.Acyclic) (bound : Nat) (id : String)
    {activity : Activity} (found : program.definition.activity? id = some activity) :
    Acc (Descends program bound) (.ready [] (program.body activity)) := by
  induction bound using Nat.strong_induction_on generalizing id activity with
  | _ bound boundHypothesis =>
      induction id using acyclic.wellFounded.induction generalizing activity with
      | _ id idHypothesis =>
          have obeys := Program.fresh_body (Definition.callsWithin_admits program activity.Mentions)
            activity fun _ mentioned => Definition.callsWithin_grants mentioned
          refine acc_of_obeys (fun _ _ => trivial) (fun _ => trivial) ?_ obeys.obeys
          rintro callee role ⟨calleeId, calleeFound, permitted⟩ fits
          cases role with
          | part =>
              exact idHypothesis calleeId ⟨activity, found, permitted rfl⟩ calleeFound
          | undoing scopeId =>
              have used : 1 ≤ bound := fits
              exact boundHypothesis (bound - 1) (by omega) calleeId calleeFound

/-- Where references are acyclic, no run keeps moving within a bound. -/
theorem acc_begins (acyclic : program.definition.Acyclic) (bound : Nat) {task : Task}
    (begins : program.Begins task) : Acc (Descends program bound) (.ofTask task) := by
  have admits := Definition.callsWithin_admits program fun _ => True
  have granted (id : String) : (program.definition.callsWithin fun _ => True).Grants program id :=
    Definition.callsWithin_grants trivial
  have obeys : task.Obeys (program.definition.callsWithin fun _ => True) false := by
    cases begins with
    | execution present =>
        have allowed := granted program.definition.rootActivityId _ present
        exact (Program.fresh_run admits allowed fun handler _ => granted handler.activity).obeys
    | compensation =>
        exact (Program.fresh_compensateProcess admits fun id _ => granted id).obeys
  refine acc_of_obeys (fun _ _ => trivial) (fun _ => trivial) ?_ obeys
  rintro callee role ⟨calleeId, calleeFound, _⟩ _
  exact acc_body acyclic _ calleeId calleeFound

end Thread

/-- That a thread moves on a scene. -/
def Thread.MovesTo (program : Program) (state next : Scene × Thread) : Prop :=
  ∃ move, Thread.Step program state.1 state.2 move next.1 next.2

/-- What becomes of a thread, move by move, for ever or up to some point. After every move others may
have done anything to the instance. -/
structure Course (program : Program) (thread : Thread) where
  stage : Nat → Option (Scene × Thread)
  begins : ∃ scene, stage 0 = some (scene, thread)
  moves : ∀ index nextScene nextThread, stage (index + 1) = some (nextScene, nextThread) →
    ∃ scene thread move left, stage index = some (scene, thread) ∧
      Thread.Step program scene thread move left nextThread

namespace Course

variable {program : Program} {thread : Thread}

/-- That a course comes to an end. -/
def Ends (course : Course program thread) : Prop := ∃ index, course.stage index = none

/-- That nobody but the thread does anything to the instance. -/
def Undisturbed (course : Course program thread) : Prop :=
  ∀ index scene thread nextScene nextThread, course.stage index = some (scene, thread) →
    course.stage (index + 1) = some (nextScene, nextThread) →
    Thread.MovesTo program (scene, thread) (nextScene, nextThread)

/-- That on a course nowhere more than so many handlers stand in one another. -/
def NestsAtMost (course : Course program thread) (bound : Nat) : Prop :=
  ∀ index scene thread, course.stage index = some (scene, thread) → thread.NestsAtMost bound

/-- A course that has ended does not go on. -/
theorem stage_eq_none_of_le {course : Course program thread} {first second : Nat}
    (absent : course.stage first = none) (later : first ≤ second) : course.stage second = none := by
  induction later with
  | refl => exact absent
  | @step second _ inductionHypothesis =>
      cases next : course.stage (second + 1) with
      | none => rfl
      | some stage =>
          obtain ⟨_, _, _, _, before, _⟩ := course.moves second stage.1 stage.2 next
          rw [inductionHypothesis] at before
          cases before

/-- A course that ends stays within a bound. -/
theorem Ends.nestsAtMost {course : Course program thread} (ends : course.Ends) :
    ∃ bound, course.NestsAtMost bound := by
  obtain ⟨length, absent⟩ := ends
  have upTo (count : Nat) : ∃ bound, ∀ index < count, ∀ scene thread,
      course.stage index = some (scene, thread) → thread.NestsAtMost bound := by
    induction count with
    | zero => exact ⟨0, by simp⟩
    | succ count inductionHypothesis =>
        obtain ⟨bound, within⟩ := inductionHypothesis
        cases last : course.stage count with
        | none =>
            refine ⟨bound, fun index small scene thread present => ?_⟩
            have before : index ≠ count := by
              rintro rfl
              rw [last] at present
              cases present
            exact within index (by omega) scene thread present
        | some stage =>
            obtain ⟨own, ownWithin⟩ := stage.2.exists_nestsAtMost
            refine ⟨max bound own, fun index small scene thread present => ?_⟩
            rcases Nat.lt_succ_iff_lt_or_eq.mp small with before | rfl
            · exact (within index before scene thread present).mono (Nat.le_max_left _ _)
            · rw [last] at present
              cases present
              exact ownWithin.mono (Nat.le_max_right _ _)
  obtain ⟨bound, within⟩ := upTo length
  refine ⟨bound, fun index scene thread present => ?_⟩
  rcases Nat.lt_or_ge index length with before | after
  · exact within index before scene thread present
  · rw [stage_eq_none_of_le absent after] at present
    cases present

/-- A course within a bound ends if its thread cannot descend for ever. -/
theorem ends_of_acc {course : Course program thread} {bound : Nat}
    (within : course.NestsAtMost bound) (accessible : Acc (Thread.Descends program bound) thread) :
    course.Ends := by
  have endsFrom (current : Thread) (accessible : Acc (Thread.Descends program bound) current) :
      ∀ index scene, course.stage index = some (scene, current) → course.Ends := by
    induction accessible with
    | intro current _ inductionHypothesis =>
        intro index scene present
        cases next : course.stage (index + 1) with
        | none => exact ⟨index + 1, next⟩
        | some stage =>
            obtain ⟨before, thread, move, left, isBefore, moved⟩ :=
              course.moves index stage.1 stage.2 next
            rw [present] at isBefore
            cases isBefore
            exact inductionHypothesis stage.2
              ⟨within (index + 1) stage.1 stage.2 next, _, move, left, moved⟩ (index + 1) stage.1 next
  obtain ⟨scene, first⟩ := course.begins
  exact endsFrom thread accessible 0 scene first

end Course

/-- Where references are acyclic, a run ends exactly if the handlers that undo scopes nest within a
bound, whatever others do to the instance in the meantime. -/
theorem course_ends_iff_nestsAtMost {program : Program} {task : Task}
    (acyclic : program.definition.Acyclic) (begins : program.Begins task)
    (course : Course program (.ofTask task)) :
    course.Ends ↔ ∃ bound, course.NestsAtMost bound := by
  constructor
  · exact Course.Ends.nestsAtMost
  · rintro ⟨bound, within⟩
    exact Course.ends_of_acc within (Thread.acc_begins acyclic bound begins)

/-- Where every state of a kind has a move to another, a course can go on for ever. -/
theorem Course.exists_endless {program : Program} {live : Scene × Thread → Prop}
    (goesOn : ∀ state, live state → ∃ next, live next ∧ Thread.MovesTo program state next)
    {scene : Scene} {thread : Thread} (begins : live (scene, thread)) :
    ∃ course : Course program thread,
      course.stage 0 = some (scene, thread) ∧ course.Undisturbed ∧ ¬ course.Ends := by
  let next (state : Subtype live) : Subtype live :=
    ⟨(goesOn state.1 state.2).choose, (goesOn state.1 state.2).choose_spec.1⟩
  let state (index : Nat) : Subtype live := next^[index] ⟨_, begins⟩
  have moved (index : Nat) : Thread.MovesTo program (state index).1 (state (index + 1)).1 := by
    have following : state (index + 1) = next (state index) :=
      Function.iterate_succ_apply' next index _
    rw [following]
    exact (goesOn (state index).1 (state index).2).choose_spec.2
  refine ⟨⟨fun index => some (state index).1, ⟨scene, rfl⟩, fun index nextScene nextThread after => ?_⟩,
    rfl, fun index scene thread nextScene nextThread before after => ?_, ?_⟩
  · have step := moved index
    rw [Option.some.inj after] at step
    obtain ⟨move, step⟩ := step
    exact ⟨_, _, move, _, rfl, step⟩
  · have step := moved index
    rwa [Option.some.inj before, Option.some.inj after] at step
  · rintro ⟨index, absent⟩
    cases absent

namespace SelfUndoing

/-- An activity that undoes everything that is completed. -/
def undo : Activity := { id := "undo", kind := .compensate }

/-- A scope that is undone by undoing everything that is completed. -/
def reserve : Activity := { id := "reserve", kind := .scope, compensationHandler := some "undo" }

/-- Runs the scope and undoes everything that is completed. -/
def main : Activity := { id := "main", kind := .sequence, children := ["reserve", "undo"] }

/-- A process whose scope is still completed while its handler undoes all that is. -/
def program : Program :=
  ⟨.ofActivities "p" "P" "main" [main, reserve, undo], .default, ⟨0, 0⟩⟩

/-- How far down the references an activity stands. -/
def depth (id : String) : Nat := if id = "main" then 0 else if id = "reserve" then 1 else 2

/-- References lead further down. -/
theorem depth_lt {source target : String} (refers : program.definition.Refers source target) :
    depth source < depth target := by
  obtain ⟨activity, found, reference, present, rfl⟩ := refers
  have known : activity ∈ [main, reserve, undo] := List.mem_of_find?_eq_some found
  have same := Definition.id_of_activity? found
  subst same
  simp only [List.mem_cons, List.not_mem_nil, or_false] at known
  rcases known with rfl | rfl | rfl
  · have targets : reference = (.children, "reserve") ∨ reference = (.children, "undo") := by
      simpa [Activity.references, main] using present
    rcases targets with rfl | rfl <;> decide
  · have targets : reference = (.compensationHandler, "undo") := by
      simpa [Activity.references, reserve] using present
    subst targets
    decide
  · simp [Activity.references, undo] at present

/-- The main activity refers to the scope and to the handler, and the scope to the handler. -/
theorem acyclic : program.definition.Acyclic := by
  have descends {source target : String}
      (path : Relation.TransGen program.definition.Refers source target) :
      depth source < depth target := by
    induction path with
    | single refers => exact depth_lt refers
    | tail _ refers inductionHypothesis => exact inductionHypothesis.trans (depth_lt refers)
  exact fun id path => Nat.lt_irrefl _ (descends path)

/-- The status of every activity while the handlers go on. -/
def statuses : List (String × ActivityStatus) :=
  [("main", .executing), ("reserve", .completed), ("undo", .executing)]

/-- The only plan that is ever read. -/
def step : CompensationStep := ⟨"reserve", "undo"⟩

/-- The plan has its one step as long as the statuses stand. -/
theorem plan_eq {subject : Instance} (stand : subject.activityStatuses = statuses) :
    subject.compensationPlan program.definition none = [step] := by
  unfold Instance.compensationPlan
  rw [stand]
  rfl

/-- The states in which one handler after the other begins, each inside of the one before. -/
inductive Nesting : Scene × Thread → Prop where
  | reads {scene : Scene} {calls : List Call} (stand : scene.subject.activityStatuses = statuses) :
      Nesting (scene, .ready calls (program.body undo))
  | announces {scene : Scene} {calls : List Call}
      (stand : scene.subject.activityStatuses = statuses) :
      Nesting (scene, .ready calls (program.runPlan [step]))
  | calls {scene : Scene} {calls : List Call} {next : Outcome → Task}
      (stand : scene.subject.activityStatuses = statuses) :
      Nesting (scene, .ready calls ((Task.call undo (.undoing "reserve") .done).andThen next))

/-- A handler leads to the next one. -/
theorem Nesting.goesOn {state : Scene × Thread} (nesting : Nesting state) :
    ∃ next, Nesting next ∧ Thread.MovesTo program state next := by
  cases nesting with
  | @reads scene calls stand =>
      have listed : (scene.perform (.plan program.definition undo.target)).2 = [step] :=
        plan_eq stand
      have moved : Thread.Step program scene (.ready calls (program.body undo)) _ _ _ := .act
      rw [listed] at moved
      exact ⟨(_, _), .announces stand, _, moved⟩
  | @announces scene calls stand =>
      have moved : Thread.Step program scene (.ready calls (program.runPlan [step])) _ _ _ := .act
      have kept : (scene.perform (.announce (.scopeCompensating "reserve" "undo"))).1.subject
          = scene.subject := rfl
      exact ⟨(_, _), .calls (kept ▸ stand), _, moved⟩
  | @calls scene calls next stand =>
      have moved : Thread.Step program scene
          (.ready calls ((Task.call undo (.undoing "reserve") .done).andThen next)) _ _ _ :=
        @Thread.Step.enter _ _ _ ⟨undo, .undoing "reserve", _⟩
      refine ⟨(_, _), .reads ?_, _, moved⟩
      change Instance.putStatus "undo" .executing scene.subject.activityStatuses = statuses
      rw [stand]
      rfl

/-- The states from which some moves lead to the handlers. -/
def Live (state : Scene × Thread) : Prop :=
  ∃ later, Nesting later ∧ Relation.ReflTransGen (Thread.MovesTo program) state later

/-- From a live state a move leads to another one. -/
theorem Live.goesOn (state : Scene × Thread) (live : Live state) :
    ∃ next, Live next ∧ Thread.MovesTo program state next := by
  obtain ⟨later, nesting, path⟩ := live
  rcases path.cases_head with rfl | ⟨next, moved, rest⟩
  · obtain ⟨next, nextNesting, moved⟩ := nesting.goesOn
    exact ⟨next, ⟨next, nextNesting, .refl⟩, moved⟩
  · exact ⟨next, ⟨later, nesting, rest⟩, moved⟩

/-- A state from which a move leads to a live one is live. -/
theorem Live.of_step {scene nextScene : Scene} {thread nextThread : Thread} {move : Move}
    (moved : Thread.Step program scene thread move nextScene nextThread)
    (live : Live (nextScene, nextThread)) : Live (scene, thread) := by
  obtain ⟨later, nesting, path⟩ := live
  exact ⟨later, nesting, .head ⟨move, moved⟩ path⟩

/-- An instance that has just begun comes to the handlers: the main activity calls the scope, which has
nothing to do, and then the handler. -/
theorem live_begins (bag : Bag) :
    Live (⟨Instance.new "i-1" "p" bag "oracle", #[]⟩, .ofTask (program.run main)) := by
  refine .of_step (@Thread.Step.enter _ _ [] ⟨main, .part, _⟩) ?_
  refine .of_step .act ?_
  refine .of_step (@Thread.Step.enter _ _ _ ⟨reserve, .part, _⟩) ?_
  refine .of_step .leave ?_
  refine .of_step .act ?_
  refine .of_step (@Thread.Step.enter _ _ _ ⟨undo, .part, _⟩) ?_
  exact ⟨_, .reads rfl, .refl⟩

end SelfUndoing

/-- Acyclic references do not make a run end: there is a definition with acyclic references whose
execution goes on for ever, with nobody doing anything to its instance. -/
theorem exists_acyclic_endless :
    ∃ (program : Program) (root : Activity) (course : Course program (.ofTask (program.run root))),
      program.definition.Acyclic ∧ program.definition.root? = some root ∧
        course.Undisturbed ∧ ¬ course.Ends := by
  obtain ⟨course, _, undisturbed, endless⟩ :=
    Course.exists_endless SelfUndoing.Live.goesOn (SelfUndoing.live_begins [])
  exact ⟨SelfUndoing.program, SelfUndoing.main, course, SelfUndoing.acyclic, rfl, undisturbed, endless⟩

/-- On a course that goes on for ever the handlers nest without a bound. -/
theorem exists_unbounded_nesting :
    ∃ course : Course SelfUndoing.program (.ofTask (SelfUndoing.program.run SelfUndoing.main)),
      course.Undisturbed ∧ ¬ ∃ bound, course.NestsAtMost bound := by
  obtain ⟨course, _, undisturbed, endless⟩ :=
    Course.exists_endless SelfUndoing.Live.goesOn (SelfUndoing.live_begins [])
  refine ⟨course, undisturbed, fun nested => endless ?_⟩
  exact (course_ends_iff_nestsAtMost SelfUndoing.acyclic (.execution rfl) course).mpr nested

end Orchestration
