import Orchestration.Proofs.Handling

/-!
# Where failures end up

A failure that no handler on its way takes goes up from the activity that raised it to the end of the
run, unchanged: through composites, through scopes none of whose handlers is for it, through recovery
activities, and out of the first branch that fails. `Record.Uncaught` describes such a way through what
was done, and by `Record.Owner.Does.uncaught_of_error` every failure that ends an execution has come such
a way.
-/

namespace Orchestration

/-- Results that are merged fail as the first of them that failed. -/
theorem Result.merge_eq_error_iff {results : List Result} {error : ActivityError} :
    Result.merge results = .error error ↔
      ∃ before after, results = before ++ .error error :: after ∧
        ∀ result ∈ before, ∀ other, result ≠ .error other := by
  induction results with
  | nil => simp [merge]
  | cons result results inductionHypothesis =>
      have skips (outcome : Outcome) :
          (∃ before after, (.ok outcome : Result) :: results = before ++ .error error :: after ∧
            ∀ result ∈ before, ∀ other, result ≠ .error other) ↔
          ∃ before after, results = before ++ .error error :: after ∧
            ∀ result ∈ before, ∀ other, result ≠ .error other := by
        constructor
        · rintro ⟨before, after, placed, unfailed⟩
          cases before with
          | nil => cases placed
          | cons first before =>
              obtain ⟨rfl, same⟩ := List.cons.inj placed
              exact ⟨before, after, same, fun other present => unfailed other (by simp [present])⟩
        · rintro ⟨before, after, rfl, unfailed⟩
          exact ⟨.ok outcome :: before, after, rfl, by simpa using unfailed⟩
      rcases result with first | outcome
      · constructor
        · rintro ⟨rfl⟩
          exact ⟨[], results, rfl, by simp⟩
        · rintro ⟨before, after, placed, unfailed⟩
          cases before with
          | nil =>
              cases placed
              rfl
          | cons other before =>
              obtain ⟨rfl, _⟩ := List.cons.inj placed
              exact absurd rfl (unfailed _ (by simp) first)
      · rw [skips, ← inductionHypothesis]
        cases outcome with
        | completed => rfl
        | halted =>
            cases merged : merge results <;> simp [merge, merged, Except.map]

namespace Record

/-- That something was done by others: an execution, or branches. -/
def IsPart : Record → Prop
  | .performed .. => False
  | _ => True

/-- That the recovery of a failure has begun. -/
def Recovering (before : List Record) : Prop :=
  ∃ handler fault, .performed (.catchFault handler fault) (.ok ()) ∈ before

/-- That a failure was raised somewhere in what was done, and that on its way to the top nothing takes
it. The handlers are those at the top, and the result is what was done came to. -/
inductive Uncaught (error : ActivityError) : List FaultHandler → List Record → Result → Prop where
  /-- It is raised at the top: what was done failed so, and no part of it had failed last. -/
  | raised {handlers : List FaultHandler} {records : List Record}
      (own : ∀ before last failure, records = before ++ [last] → last.IsPart →
        last.result? ≠ some (.error failure)) : Uncaught error handlers records (.error error)
  /-- It comes out of an execution: of the recovery of another failure, or where no handler takes it. -/
  | part {handlers : List FaultHandler} {before after within : List Record} {activity : Activity}
      {role : Role} {ended result : Result}
      (inside : Uncaught error activity.ownHandlers within ended)
      (untaken : Recovering before ∨ FaultHandler.Untaken handlers error.toFault) :
      Uncaught error handlers (before ++ .executed activity role within (some ended) :: after) result
  /-- It comes out of the first branch that fails. -/
  | side {handlers : List FaultHandler} {before after within : List Record}
      {earlier later : List (List Record × Option Result)} {ended result : Result}
      (inside : Uncaught error [] within ended)
      (first : ∀ side ∈ earlier, ∀ other, side.2 ≠ some (.error other))
      (untaken : Recovering before ∨ FaultHandler.Untaken handlers error.toFault) :
      Uncaught error handlers
        (before ++ .branched (earlier ++ (within, some ended) :: later) :: after) result

/-- The result of an execution that failed is its failure. -/
theorem result?_executed_error {activity : Activity} {role : Role} {within : List Record}
    {error : ActivityError} :
    (Record.executed activity role within (some (.error error))).result? = some (.error error) := by
  cases role <;> rfl

/-- An execution counts as failed only if it failed. -/
theorem of_result?_executed {activity : Activity} {role : Role} {within : List Record}
    {ended? : Option Result} {error : ActivityError}
    (fails : (Record.executed activity role within ended?).result? = some (.error error)) :
    ended? = some (.error error) := by
  cases role with
  | part => exact fails
  | undoing scopeId =>
      rcases ended? with _ | failure | outcome
      · cases fails
      · exact fails
      · cases fails

/-- Branches that have all ended failed exactly as the first of them that failed. -/
theorem branched_fails_iff {sides : List (List Record × Option Result)} {ended : Result}
    {error : ActivityError} (known : (Record.branched sides).result? = some ended) :
    ended = .error error ↔
      ∃ earlier within later, sides = earlier ++ (within, some (.error error)) :: later ∧
        ∀ side ∈ earlier, ∀ other, side.2 ≠ some (.error other) := by
  obtain ⟨results, allEnded, rfl⟩ := result?_branched_iff.mp known
  rw [Result.merge_eq_error_iff]
  constructor
  · rintro ⟨before, after, rfl, unfailed⟩
    rw [List.map_append, List.map_cons] at allEnded
    obtain ⟨earlier, others, rfl, isBefore, isRest⟩ := List.map_eq_append_iff.mp allEnded
    obtain ⟨⟨within, failed⟩, later, rfl, rfl, _⟩ := List.map_eq_cons_iff.mp isRest
    refine ⟨earlier, within, later, rfl, fun side present other fails => ?_⟩
    obtain ⟨result, isResult, same⟩ := exists_result_of_side isBefore present
    exact unfailed result isResult other (Option.some.inj (same.symm.trans fails))
  · rintro ⟨earlier, within, later, rfl, unfailed⟩
    rw [List.map_append, List.map_cons] at allEnded
    obtain ⟨before, others, rfl, isBefore, isRest⟩ := List.map_eq_append_iff.mp allEnded.symm
    obtain ⟨failed, after, rfl, isFailed, _⟩ := List.map_eq_cons_iff.mp isRest
    cases isFailed
    refine ⟨before, after, rfl, fun result present other => ?_⟩
    rintro rfl
    obtain ⟨side, isSide, fails⟩ := exists_side_of_result isBefore.symm present
    exact unfailed side isSide other fails

end Record

namespace Program

variable {program : Program} {handlers : List FaultHandler} {error : ActivityError}
  {before after level : List Record} {part : Record} {result : Result}

/-- A part that has ended while a failure is dealt with is the recovery activity, and what comes of the
failure. -/
theorem Routes.of_part {ended : Result} {records : List Record}
    (routes : program.Routes handlers error records (some result)) (present : part ∈ records)
    (isPart : part.IsPart) (stops : part.result? = some ended) : result = ended := by
  cases routes with
  | passed => cases present
  | missing =>
      simp only [List.mem_singleton] at present
      subst present
      exact isPart.elim
  | unbound =>
      simp only [List.mem_cons, List.not_mem_nil, or_false] at present
      rcases present with rfl | rfl <;> exact isPart.elim
  | relapsed _ _ ends =>
      simp only [List.mem_cons, List.not_mem_nil, or_false] at present
      rcases present with rfl | rfl | rfl
      · exact isPart.elim
      · exact isPart.elim
      · cases stops
        simpa using ends
  | recovered _ _ ends =>
      simp only [List.mem_cons, List.not_mem_nil, or_false] at present
      rcases present with rfl | rfl | rfl | rfl
      · exact isPart.elim
      · exact isPart.elim
      · cases stops
        simpa using ends
      · exact isPart.elim

/-- The parts of what has ended have ended. -/
theorem Handled.ended_of_mem (handled : program.Handled handlers level (some result))
    (present : part ∈ level) (isPart : part.IsPart) : ∃ ended, part.result? = some ended := by
  obtain ⟨task, permitted, orderly, uncaught, handles⟩ := handled
  rcases handles with ⟨unfolds, _⟩ | ⟨first, rest, failure, rfl, unfolds, routes⟩
  · exact (orderly.ordered unfolds).ended_of_mem present
  rcases List.mem_append.mp present with inFirst | inRest
  · exact (orderly.ordered unfolds).ended_of_mem inFirst
  · cases routes with
    | passed => cases inRest
    | missing =>
        simp only [List.mem_singleton] at inRest
        subst inRest
        exact ⟨_, rfl⟩
    | unbound =>
        simp only [List.mem_cons, List.not_mem_nil, or_false] at inRest
        rcases inRest with rfl | rfl <;> exact ⟨_, rfl⟩
    | relapsed =>
        simp only [List.mem_cons, List.not_mem_nil, or_false] at inRest
        rcases inRest with rfl | rfl | rfl <;> exact ⟨_, rfl⟩
    | recovered =>
        simp only [List.mem_cons, List.not_mem_nil, or_false] at inRest
        rcases inRest with rfl | rfl | rfl | rfl <;> exact ⟨_, rfl⟩

/-- A part that fails where nothing takes its failure ends what it is a part of. -/
theorem Handled.of_part (handled : program.Handled handlers (before ++ part :: after) (some result))
    (isPart : part.IsPart) (fails : part.result? = some (.error error))
    (untaken : Record.Recovering before ∨ FaultHandler.Untaken handlers error.toFault) :
    result = .error error := by
  obtain ⟨task, permitted, orderly, uncaught, handles⟩ := handled
  rcases handles with ⟨unfolds, _⟩ | ⟨first, rest, failure, placed, unfolds, routes⟩
  · simpa using ((orderly.ordered unfolds).of_incomplete fails nofun).2
  have ordered := orderly.ordered unfolds
  rcases ordered.of_incomplete_append placed fails nofun with inRest | ⟨rfl, rfl, same⟩
  · exact routes.of_part inRest isPart fails
  -- The part is what failed, and what follows is what was done about that.
  obtain rfl : failure = error := Except.error.inj same
  rcases untaken with ⟨handler, fault, caught⟩ | untaken
  · have allowed : permitted (.catchFault handler fault) = true :=
      (ordered.of_mem (List.mem_append_left _ caught)).1
    rw [uncaught] at allowed
    cases allowed
  · cases routes with
    | passed _ ends => simpa using ends
    | missing takes => exact absurd untaken takes.not_untaken
    | unbound takes => exact absurd untaken takes.not_untaken
    | relapsed takes => exact absurd untaken takes.not_untaken
    | recovered takes => exact absurd untaken takes.not_untaken

/-- What fails has raised its failure itself, or a part of it failed last and nothing took that. -/
theorem Handled.of_error (handled : program.Handled handlers level (some (.error error))) :
    (∀ before last failure, level = before ++ [last] → last.IsPart →
      last.result? ≠ some (.error failure)) ∨
      ∃ before part, level = before ++ [part] ∧ part.IsPart ∧
        part.result? = some (.error error) ∧
          (Record.Recovering before ∨ FaultHandler.Untaken handlers error.toFault) := by
  obtain ⟨task, permitted, orderly, uncaught, handles⟩ := handled
  rcases handles with ⟨_, noError⟩ | ⟨first, rest, failure, rfl, unfolds, routes⟩
  · exact absurd rfl (noError error)
  have raised (before : List Record) (last : Record) (unfailing : ¬ last.IsPart) :
      ∀ others other failure, before ++ [last] = others ++ [other] → other.IsPart →
        other.result? ≠ some (.error failure) := by
    intro others other failure same isPart
    obtain ⟨_, isLast⟩ := List.append_inj' same rfl
    cases isLast
    exact absurd isPart unfailing
  cases routes with
  | passed untaken ends =>
      obtain rfl : error = failure := by simpa using ends
      rw [List.append_nil]
      rcases List.eq_nil_or_concat first with rfl | ⟨before, last, rfl⟩
      · exact .inl fun before last _ impossible => by simp at impossible
      · rw [List.concat_eq_append] at unfolds ⊢
        by_cases isPart : last.IsPart
        · rcases (orderly.ordered unfolds).of_ended with fails | ⟨completed, _⟩
          · exact .inr ⟨before, last, rfl, isPart, fails, .inr untaken⟩
          · refine .inl fun others other failure same _ fails => ?_
            obtain ⟨_, isLast⟩ := List.append_inj' same rfl
            cases isLast
            cases completed.symm.trans fails
        · exact .inl (raised before last isPart)
  | missing => exact .inl (raised _ _ id)
  | @unbound handler event recovery failed =>
      have placed : first ++ [.performed (.announce event) (),
          .performed (.catchFault handler failure.toFault) (.error failed)] =
          (first ++ [.performed (.announce event) ()]) ++
            [.performed (.catchFault handler failure.toFault) (.error failed)] := by simp
      rw [placed]
      exact .inl (raised _ _ id)
  | @relapsed handler event recovery within failed _ _ _ ends =>
      obtain rfl : error = failed := by simpa using ends
      refine .inr ⟨first ++ [.performed (.announce event) (),
        .performed (.catchFault handler failure.toFault) (.ok ())],
        .executed recovery .part within (some (.error error)), by simp, trivial, rfl, .inl ?_⟩
      exact ⟨handler, failure.toFault, by simp⟩
  | recovered _ _ ends => simp at ends

end Program

namespace Record.Owner.Does

variable {program : Program} {task : Task} {purpose : RunPurpose} {owner : Owner}
  {level : List Record} {result : Result} {error : ActivityError}

/-- A failure that nothing takes on its way is what everything comes to. -/
theorem error_of_uncaught {handlers : List FaultHandler}
    (uncaught : Uncaught error handlers level result) (serves : program.Serves purpose task)
    (executes : owner = .whole → purpose = .execution)
    (does : owner.Does program task level (some result))
    (own : owner.handlers program.definition = handlers) : result = .error error := by
  induction uncaught generalizing owner with
  | raised => rfl
  | part _ untaken inductionHypothesis =>
      have handled := does.handled serves executes
      rw [own] at handled
      have inside := does.inside (List.mem_append_right _ List.mem_cons_self)
      obtain rfl := inductionHypothesis (by nofun) inside rfl
      exact handled.of_part trivial result?_executed_error untaken
  | @side _ before after within earlier later ended _ _ first untaken inductionHypothesis =>
      have handled := does.handled serves executes
      rw [own] at handled
      have forked : .branched (earlier ++ (within, some ended) :: later) ∈
          before ++ .branched (earlier ++ (within, some ended) :: later) :: after :=
        List.mem_append_right _ List.mem_cons_self
      have aside := does.aside serves forked (List.mem_append_right _ List.mem_cons_self)
      obtain rfl := inductionHypothesis (by nofun) aside rfl
      obtain ⟨ended, known⟩ := handled.ended_of_mem forked trivial
      have fails := (branched_fails_iff known).mpr ⟨_, _, _, rfl, first⟩
      exact handled.of_part trivial (fails ▸ known) untaken

/-- A failure that everything comes to was raised somewhere, and nothing took it on its way. -/
theorem uncaught_of_error (serves : program.Serves purpose task)
    (executes : owner = .whole → purpose = .execution)
    (does : owner.Does program task level (some (.error error))) :
    Uncaught error (owner.handlers program.definition) level (.error error) := by
  induction size : sizeOf level using Nat.strong_induction_on generalizing owner level with
  | _ bound inductionHypothesis =>
      rcases (does.handled serves executes).of_error with own |
        ⟨before, part, rfl, isPart, fails, untaken⟩
      · exact .raised own
      cases part with
      | performed => exact isPart.elim
      | executed activity role within ended? =>
          obtain rfl := of_result?_executed fails
          have present : .executed activity role within (some (.error error)) ∈
              before ++ [.executed activity role within (some (.error error))] :=
            List.mem_append_right _ List.mem_cons_self
          have smaller := List.sizeOf_lt_of_mem present
          rw [size, Record.executed.sizeOf_spec] at smaller
          exact .part
            (inductionHypothesis _ (by omega) (by nofun) (does.inside present) rfl) untaken
      | branched sides =>
          have forked : .branched sides ∈ before ++ [.branched sides] :=
            List.mem_append_right _ List.mem_cons_self
          have smaller := List.sizeOf_lt_of_mem forked
          rw [size, Record.branched.sizeOf_spec] at smaller
          obtain ⟨earlier, within, later, rfl, first⟩ := (branched_fails_iff fails).mp rfl
          have present : (within, some (.error error)) ∈
              earlier ++ (within, some (.error error)) :: later :=
            List.mem_append_right _ List.mem_cons_self
          have smallest := List.sizeOf_lt_of_mem present
          rw [Prod.mk.sizeOf_spec] at smallest
          have aside : Owner.side.Does program task within (some (.error error)) :=
            does.aside serves forked present
          exact .side (inductionHypothesis _ (by omega) (by nofun) aside rfl) first untaken

end Record.Owner.Does

/-- How failures are routed at a level of what a run has done. -/
structure Record.Owner.Routed (program : Program) (purpose : RunPurpose) (owner : Owner)
    (level : List Record) (result? : Option Result) : Prop where
  /-- A scope sends the failure of its children to its own handlers. -/
  scope : ∀ scope role, owner = .execution scope role → scope.kind = .scope →
    program.Handles (program.runSequence scope.children) scope.faultHandlers level result?
  /-- An execution of a process sends the failure of its root to the handlers of the process. -/
  process : owner = .whole → purpose = .execution →
    ∃ root, program.definition.root? = some root ∧
      program.Handles (.call root .part .done) program.definition.faultHandlers level result?
  /-- What has ended failed exactly as something failed in it that nothing took on its way. -/
  failure : ∀ result error, result? = some result → (owner = .whole → purpose = .execution) →
    (result = .error error ↔ Uncaught error (owner.handlers program.definition) level result)

/-- At every level of a run failures are routed as its owner has them handled. -/
theorem Record.Owner.Does.routed {program : Program} {task : Task} {purpose : RunPurpose}
    {owner : Owner} {level : List Record} {result? : Option Result}
    (does : owner.Does program task level result?) (serves : program.Serves purpose task) :
    owner.Routed program purpose level result? := by
  refine ⟨?scope, ?process, ?failure⟩
  case scope =>
    rintro scope role rfl isScope
    exact Program.handles_body isScope does
  case process =>
    rintro rfl rfl
    cases serves with
    | execution present => exact ⟨_, present, Program.handles_withHandlers does⟩
  case failure =>
    rintro result error rfl executes
    constructor
    · rintro rfl
      exact does.uncaught_of_error serves executes
    · exact fun uncaught => error_of_uncaught uncaught serves executes does rfl

namespace Situation

/-- An execution that failed faults its instance with its failure, unless that was terminated. -/
theorem Step.faulted {situation next : Situation} {error : ActivityError}
    (happened : situation.Step (.concluded .execution (.error error)) next)
    (open_ : situation.subject.status ≠ .terminated) :
    next.subject.status = .faulted ∧ next.subject.fault = some error.toFault := by
  obtain ⟨_, _, _, _, rfl⟩ := happened.of_concluded
  simp [RunPurpose.settle, Engine.executed, open_, Engine.fail, Instance.finish]

end Situation

open Snapshot (History stagesOf)

namespace FailingFlow

/-- Fails first, in the order of the branches. -/
def decline : Activity := { id := "decline", kind := .throw, faultName := some "Declined" }

/-- Takes another fault than the one that is thrown in it. -/
def left : Activity :=
  { id := "left", kind := .scope, children := ["pause", "decline"],
    faultHandlers := [⟨"Other", none, "pause"⟩] }

/-- Fails sooner, in a later branch. -/
def right : Activity := { id := "right", kind := .throw, faultName := some "Late" }

/-- Waits for a moment. -/
def pause : Activity := { id := "pause", kind := .wait, duration := some (.milliseconds 10) }

/-- Runs both sides at once. -/
def main : Activity := { id := "main", kind := .flow, children := ["left", "right"] }

/-- A process both sides of which fail. -/
def definition : Definition := .ofActivities "p" "P" "main" [main, left, right, pause, decline]

end FailingFlow

end Orchestration
