import Orchestration.Proofs.Projection

/-!
# Whether termination is final

The end of an execution leaves an instance alone that was terminated. The end of a compensation does
not look, nor does that of an instance without a root activity, and these two ends are all that ever
takes an instance out of the terminated status.
-/

namespace Orchestration

/-- That a deed is the end of a run that does not look whether its instance was terminated. -/
def Deed.Overwrites : Deed → Prop
  | .concluded .compensation _ => True
  | .concluded .missingRoot (.error _) => True
  | _ => False

namespace Situation

variable {situation next : Situation} {deed : Deed}

/-- Nothing takes an instance out of the terminated status but an end that does not look. -/
theorem Step.keeps_terminated (happened : situation.Step deed next)
    (terminated : situation.subject.status = .terminated) :
    next.subject.status = .terminated ↔ ¬ deed.Overwrites := by
  cases happened with
  | suspend active => simp [active] at terminated
  | resume suspended => simp [suspended] at terminated
  | terminate _ => exact ⟨fun _ => id, fun _ => rfl⟩
  | compensate closed => rcases closed with closed | closed <;> simp [closed] at terminated
  | move moved =>
      refine ⟨fun _ => id, fun _ => ?_⟩
      rcases moved.acts.status with same | stopped
      · exact same.trans terminated
      · exact stopped
  | @conclude subject run result ended =>
      cases run.purpose with
      | execution =>
          have kept : (RunPurpose.execution.settle result subject).status = .terminated := by
            simp only at terminated
            cases result <;> simp [RunPurpose.settle, Engine.executed, terminated]
          exact ⟨fun _ => id, fun _ => kept⟩
      | missingRoot =>
          cases result with
          | ok outcome => exact ⟨fun _ => id, fun _ => terminated⟩
          | error error => simp [RunPurpose.settle, Deed.Overwrites, Engine.fail, Instance.finish]
      | compensation =>
          cases result <;>
            simp [RunPurpose.settle, Deed.Overwrites, Engine.fail, Instance.finish]

/-- That no run is under way but an execution. -/
def OnlyExecutes (situation : Situation) : Prop :=
  ∀ run, situation.run? = some run → run.purpose = .execution

/-- An instance that was terminated while it was executed is not overwritten, and no other run of it
begins. -/
theorem Step.keeps_onlyExecutes (happened : situation.Step deed next)
    (terminated : situation.subject.status = .terminated) (only : situation.OnlyExecutes) :
    ¬ deed.Overwrites ∧ next.OnlyExecutes := by
  cases happened with
  | suspend active => exact ⟨id, only⟩
  | resume suspended => exact ⟨id, only⟩
  | terminate open_ => exact ⟨id, only⟩
  | compensate closed => rcases closed with closed | closed <;> simp [closed] at terminated
  | @move run =>
      have executes : run.purpose = .execution := only run rfl
      refine ⟨id, fun other isRun => ?_⟩
      cases isRun
      exact executes
  | @conclude _ run =>
      have executes : run.purpose = .execution := only run rfl
      rw [executes]
      refine ⟨id, fun other isRun => ?_⟩
      cases isRun

end Situation

namespace Snapshot

variable {settings : Settings} {naming : Naming} {now : Timestamp}
  {past moments : List Moment} {state final : Snapshot} {id : String}

/-- A transition keeps a terminated instance as it is if it does not overwrite it. -/
theorem Evolves.keeps_terminated {before after : Option Situation} {occurrence : Occurrence}
    (evolves : Evolves id before occurrence after)
    (terminated : before.map (fun situation => situation.subject.status) = some .terminated) :
    after.map (fun situation => situation.subject.status) = some .terminated ↔
      ∀ deed, occurrence = .done id deed → ¬ deed.Overwrites := by
  cases evolves with
  | elsewhere other => exact ⟨fun _ deed same => absurd same (other deed), fun _ => terminated⟩
  | born => cases terminated
  | @step situation next deed happened =>
      have kept := happened.keeps_terminated (by simpa using terminated)
      constructor
      · rintro stays _ same
        cases same
        exact kept.mp (by simpa using stays)
      · intro harmless
        simpa using kept.mpr (harmless deed rfl)

/-- An instance that was terminated stays so through a history exactly if no end in the history
overwrites it. -/
theorem History.terminated_iff (reached : History (.new settings naming now) past state)
    (terminated : state.status? id = some .terminated) (history : History state moments final) :
    ((∀ moment ∈ moments, moment.after.status? id = some .terminated) ↔
      ∀ moment ∈ moments, ∀ deed, moment.occurrence = .done id deed → ¬ deed.Overwrites) ∧
    ((∀ moment ∈ moments, moment.after.status? id = some .terminated) →
      final.status? id = some .terminated) := by
  induction history with
  | refl => exact ⟨by simp, fun _ => terminated⟩
  | @step moments occurrence middle next prior transition inductionHypothesis =>
      obtain ⟨sofar, middleTerminated⟩ := inductionHypothesis
      have evolves := (reached.trans prior).evolves transition id
      simp only [List.forall_mem_append, List.forall_mem_singleton]
      refine ⟨⟨fun stays => ?_, fun harmless => ?_⟩, fun stays => stays.2⟩
      · exact ⟨sofar.mp stays.1, (evolves.keeps_terminated (middleTerminated stays.1)).mp stays.2⟩
      · have stays := sofar.mpr harmless.1
        exact ⟨stays, (evolves.keeps_terminated (middleTerminated stays)).mpr harmless.2⟩

/-- An instance that is terminated while no run of it but an execution is under way is not overwritten
by what happens next, and this is so again afterwards. -/
theorem Evolves.keeps_onlyExecutes {situation : Situation} {after : Option Situation}
    {occurrence : Occurrence} (evolves : Evolves id (some situation) occurrence after)
    (terminated : situation.subject.status = .terminated) (only : situation.OnlyExecutes) :
    ∃ next, after = some next ∧ next.subject.status = .terminated ∧ next.OnlyExecutes := by
  cases evolves with
  | elsewhere other => exact ⟨situation, rfl, terminated, only⟩
  | step happened =>
      obtain ⟨harmless, nextOnly⟩ := happened.keeps_onlyExecutes terminated only
      exact ⟨_, rfl, (happened.keeps_terminated terminated).mpr harmless, nextOnly⟩

/-- An instance that is terminated while no run of it but an execution is under way stays terminated. -/
theorem History.stays_terminated {situation : Situation}
    (reached : History (.new settings naming now) past state)
    (found : state.situation? id = some situation)
    (terminated : situation.subject.status = .terminated) (only : situation.OnlyExecutes)
    (history : History state moments final) :
    (∀ moment ∈ moments, moment.after.status? id = some .terminated) ∧
      ∃ last, final.situation? id = some last ∧ last.subject.status = .terminated ∧
        last.OnlyExecutes := by
  induction history with
  | refl => exact ⟨by simp, situation, found, terminated, only⟩
  | step prior transition inductionHypothesis =>
      obtain ⟨sofar, last, isLast, lastTerminated, lastOnly⟩ := inductionHypothesis
      have evolves := (reached.trans prior).evolves transition id
      rw [isLast] at evolves
      obtain ⟨next, isNext, nextTerminated, nextOnly⟩ :=
        evolves.keeps_onlyExecutes lastTerminated lastOnly
      refine ⟨?_, next, isNext, nextTerminated, nextOnly⟩
      simp only [List.forall_mem_append, List.forall_mem_singleton]
      exact ⟨sofar, by simp [status?, isNext, nextTerminated]⟩

end Snapshot

open Snapshot (History Steps)

/-- An instance that was terminated stays so through a history exactly if no end of a compensation, and
no end for want of a root activity, overwrites it there. It always stays so if what was under way of it
when it was terminated was its execution, or nothing. -/
theorem terminated_stays_iff {settings : Settings} {naming : Naming} {now : Timestamp}
    {past moments : List Snapshot.Moment} {state final : Snapshot} {id : String}
    (reached : History (.new settings naming now) past state)
    (terminated : state.status? id = some .terminated) (history : History state moments final) :
    ((∀ moment ∈ moments, moment.after.status? id = some .terminated) ↔
      ∀ moment ∈ moments, ∀ deed, moment.occurrence = .done id deed → ¬ deed.Overwrites) ∧
    ((∀ run ∈ state.runs, run.instanceId = id → run.purpose = .execution) →
      ∀ moment ∈ moments, moment.after.status? id = some .terminated) := by
  refine ⟨(reached.terminated_iff terminated history).1, fun executes => ?_⟩
  obtain ⟨situation, found, isTerminated⟩ := Option.map_eq_some_iff.mp terminated
  refine (reached.stays_terminated found isTerminated (fun run isRun => ?_) history).1
  obtain ⟨subject, _, rfl⟩ := Option.map_eq_some_iff.mp found
  exact executes run (List.mem_of_find?_eq_some isRun) (by simpa using List.find?_some isRun)

namespace ExitingHandler

/-- Terminates the instance. -/
def stop : Activity := { id := "undo_a", kind := .exit }

/-- A scope whose handler terminates the instance. -/
def scope : Activity := { id := "a", kind := .scope, compensationHandler := some "undo_a" }

/-- Runs the scope. -/
def main : Activity := { id := "main", kind := .sequence, children := ["a"] }

/-- A process whose compensation terminates its instance. -/
def definition : Definition := .ofActivities "p" "P" "main" [main, scope, stop]

/-- The instance is terminated by the handler of its scope, and the end of the compensation follows. -/
theorem overwritten : ∃ past state occurrence final,
    History (.new .default (.numbered "i-") ⟨0, 0⟩) past state ∧
      state.status? "i-1" = some .terminated ∧ Snapshot.Step state occurrence final ∧
        final.status? "i-1" = some .compensated := by
  have started := Engine.steps_start .default (.numbered "i-") ⟨0, 0⟩ definition "oracle" rfl rfl rfl
  have completed := Engine.steps_conclude 0 started rfl
  have compensating := completed.step (@Snapshot.Step.compensate _ "i-1" _ [] [] _ rfl rfl)
  obtain ⟨past, undone⟩ := compensating.trans (Engine.steps_advance 0 _ _ [] [])
  exact ⟨past, _, _, _, undone, rfl, @Snapshot.Step.conclude _ [] [] _ _ rfl rfl, rfl⟩

end ExitingHandler

/-- Termination is not final: the status of an instance can be terminated and change again. -/
theorem exists_terminated_then_compensated :
    ∃ terminated final, Steps (.new .default (.numbered "i-") ⟨0, 0⟩) terminated ∧
      terminated.status? "i-1" = some .terminated ∧ Steps terminated final ∧
        final.status? "i-1" = some .compensated := by
  obtain ⟨past, terminated, _, final, reached, isTerminated, transition, isCompensated⟩ :=
    ExitingHandler.overwritten
  exact ⟨terminated, final, ⟨past, reached⟩, isTerminated, .single transition, isCompensated⟩

/-- The end of the compensation is one that does not look. -/
theorem exists_terminated_overwritten :
    ∃ past state moments final, History (.new .default (.numbered "i-") ⟨0, 0⟩) past state ∧
      state.status? "i-1" = some .terminated ∧ History state moments final ∧
        ¬ ∀ moment ∈ moments, ∀ deed, moment.occurrence = .done "i-1" deed → ¬ deed.Overwrites := by
  obtain ⟨past, state, occurrence, final, reached, terminated, transition, compensated⟩ :=
    ExitingHandler.overwritten
  have history : History state [⟨occurrence, final⟩] final := .step .refl transition
  refine ⟨past, state, _, final, reached, terminated, history, fun harmless => ?_⟩
  have stays := (terminated_stays_iff reached terminated history).1.mpr harmless
  have last := stays ⟨occurrence, final⟩ (by simp)
  rw [compensated] at last
  cases last

end Orchestration
