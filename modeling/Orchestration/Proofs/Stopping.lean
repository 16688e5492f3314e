import Orchestration.Proofs.Routing

/-!
# What cuts an execution short

An execution that did not fail has completed or halted. It halted exactly if it was cut short: by a
checkpoint that found the instance halting, by an exit, or by a part of it that was cut short, after which
it does nothing more. What a recovery activity comes to is what its scope comes to.
-/

namespace Orchestration

namespace Result

/-- Results that are merged fail only if one of them failed. -/
theorem exists_merge_eq_ok_iff {results : List Result} :
    (∃ outcome, merge results = .ok outcome) ↔
      ∀ result ∈ results, ∀ error, result ≠ .error error := by
  induction results with
  | nil => simp [merge]
  | cons result results inductionHypothesis =>
      rcases result with error | outcome
      · simp [merge]
      · cases outcome with
        | completed => simpa [merge] using inductionHypothesis
        | halted =>
            cases merged : merge results <;>
              simpa [merge, merged, Except.map] using inductionHypothesis

/-- Results that are merged come to a halt exactly if one of them halted and none failed. -/
theorem merge_eq_halted_iff {results : List Result} :
    merge results = .ok .halted ↔
      .ok .halted ∈ results ∧ ∀ result ∈ results, ∀ error, result ≠ .error error := by
  induction results with
  | nil => simp [merge]
  | cons result results inductionHypothesis =>
      rcases result with error | outcome
      · simp [merge]
      · cases outcome with
        | completed => simpa [merge] using inductionHypothesis
        | halted =>
            have unfailed := @exists_merge_eq_ok_iff results
            cases merged : merge results <;>
              simpa [merge, merged, Except.map] using unfailed

end Result

namespace Record

/-- That what was done was cut short. -/
inductive Stops : List Record → Prop where
  /-- By a checkpoint that found the instance suspended or terminated. -/
  | check {before : List Record} : Stops (before ++ [.performed .checkHalting true])
  /-- By an exit. -/
  | exit {before : List Record} {id : String} : Stops (before ++ [.performed (.exit id) ()])
  /-- By a part of it that was cut short. -/
  | part {before within : List Record} {activity : Activity} {ended? : Option Result}
      (inside : Stops within) : Stops (before ++ [.executed activity .part within ended?])
  /-- By a branch that was cut short, where none failed. -/
  | side {before within : List Record} {sides : List (List Record × Option Result)}
      {ended? : Option Result} (present : (within, ended?) ∈ sides) (inside : Stops within)
      (unfailed : ∀ side ∈ sides, ∀ error, side.2 ≠ some (.error error)) :
      Stops (before ++ [.branched sides])
  /-- By a recovery activity that was cut short. -/
  | recovery {before within : List Record} {handler : FaultHandler} {fault : Fault}
      {recovery : Activity} {ended? : Option Result} (inside : Stops within) :
      Stops (before ++ [.performed (.catchFault handler fault) (.ok ()),
        .executed recovery .part within ended?, .performed .clearFault ()])

/-- Only a checkpoint and an exit end with a halt. -/
theorem of_result_halted {action : Action} {reply : action.Reply}
    (halted : action.result reply = .ok .halted) :
    performed action reply = performed .checkHalting true ∨
      ∃ id, performed action reply = performed (.exit id) () := by
  have map_ne {α : Type} (computed : Except ActivityError α) :
      (computed.map fun _ => Outcome.completed) ≠ .ok .halted := by
    cases computed <;> nofun
  cases action with
  | checkHalting =>
      change Bool at reply
      cases reply with
      | true => exact .inl rfl
      | false => cases halted
  | exit id => exact .inr ⟨id, rfl⟩
  | test => exact absurd halted (map_ne reply)
  | measure => exact absurd halted (map_ne reply)
  | write => exact absurd halted (map_ne reply)
  | assign => exact absurd halted (map_ne reply)
  | invoke => exact absurd halted (map_ne reply)
  | receive => exact absurd halted (map_ne reply)
  | catchFault => exact absurd halted (map_ne reply)
  | _ => cases halted

/-- Branches that have all ended halted exactly if one of them did and none failed. -/
theorem branched_halts_iff {sides : List (List Record × Option Result)} {ended : Result}
    (known : (Record.branched sides).result? = some ended) :
    ended = .ok .halted ↔
      (∃ side ∈ sides, side.2 = some (.ok .halted)) ∧
        ∀ side ∈ sides, ∀ error, side.2 ≠ some (.error error) := by
  obtain ⟨results, allEnded, rfl⟩ := result?_branched_iff.mp known
  have ended_iff (result : Result) :
      result ∈ results ↔ ∃ side ∈ sides, side.2 = some result := by
    refine ⟨exists_side_of_result allEnded, fun ⟨side, present, same⟩ => ?_⟩
    obtain ⟨own, isOwn, owned⟩ := exists_result_of_side allEnded present
    exact Option.some.inj (same.symm.trans owned) ▸ isOwn
  rw [Result.merge_eq_halted_iff, ended_iff]
  refine and_congr_right fun _ => ⟨fun unfailed side present error fails => ?_,
    fun unfailed result present error fails => ?_⟩
  · exact unfailed _ ((ended_iff _).mpr ⟨side, present, fails⟩) error rfl
  · obtain ⟨side, isSide, same⟩ := (ended_iff result).mp present
    exact unfailed side isSide error (fails ▸ same)

/-- That the last that was done halted, or was the recovery activity of a handler that then halted. -/
def HaltsLast (level : List Record) : Prop :=
  (∃ before last, level = before ++ [last] ∧ last.result? = some (.ok .halted)) ∨
    ∃ before handler fault recovery within,
      level = before ++ [.performed (.catchFault handler fault) (.ok ()),
        .executed recovery .part within (some (.ok .halted)), .performed .clearFault ()]

/-- What ends with something that did not halt, and with no recovery activity, did not halt last. -/
theorem not_haltsLast {before : List Record} {last : Record}
    (unhalted : last.result? ≠ some (.ok .halted)) (uncleared : last ≠ .performed .clearFault ()) :
    ¬ HaltsLast (before ++ [last]) := by
  rintro (⟨_, other, placed, halted⟩ | ⟨_, _, _, _, _, placed⟩)
  · have isLast := congrArg List.getLast? placed
    simp only [List.getLast?_append, List.getLast?_singleton, Option.some_or] at isLast
    cases isLast
    exact unhalted halted
  · have isLast := congrArg List.getLast? placed
    simp only [List.getLast?_append, List.getLast?_singleton, List.getLast?_cons_cons,
      Option.some_or] at isLast
    exact uncleared (Option.some.inj isLast)

end Record

namespace Program

variable {program : Program} {handlers : List FaultHandler} {level : List Record} {result : Result}

/-- Where no fault is caught, a task that keeps to the order halts if the last that it did halted. -/
theorem halted_iff_of_ordered {permitted : Action → Bool}
    (ordered : Record.Ordered program permitted none level (some result))
    (uncaught : ∀ handler fault, permitted (.catchFault handler fault) = false) :
    result = .ok .halted ↔ Record.HaltsLast level := by
  constructor
  · rintro rfl
    rcases List.eq_nil_or_concat level with rfl | ⟨before, last, rfl⟩
    · cases ordered with
      | done _ unhalted => exact absurd rfl unhalted
    · rw [List.concat_eq_append] at ordered ⊢
      rcases ordered.of_ended with halted | ⟨_, unhalted⟩
      · exact .inl ⟨before, last, rfl, halted⟩
      · exact absurd rfl unhalted
  · rintro (⟨before, last, rfl, halted⟩ | ⟨before, handler, fault, recovery, within, rfl⟩)
    · simpa using (ordered.of_incomplete halted nofun).2
    · have allowed : permitted (.catchFault handler fault) = true :=
        (ordered.of_mem (List.mem_append_right _ List.mem_cons_self)).1
      rw [uncaught] at allowed
      cases allowed

/-- What a level comes to is a halt exactly if the last that was done there halted, or was the recovery
activity of a handler that then halted. -/
theorem Handled.halted_iff (handled : program.Handled handlers level (some result)) :
    result = .ok .halted ↔ Record.HaltsLast level := by
  obtain ⟨task, permitted, orderly, uncaught, handles⟩ := handled
  rcases handles with ⟨unfolds, _⟩ | ⟨first, rest, error, rfl, unfolds, routes⟩
  · exact halted_iff_of_ordered (orderly.ordered unfolds) uncaught
  have failed := halted_iff_of_ordered (orderly.ordered unfolds) uncaught
  cases routes with
  | passed _ ends =>
      obtain rfl : result = .error error := by simpa using ends
      rw [List.append_nil]
      exact failed
  | missing _ _ ends =>
      obtain rfl := (by simpa using ends : result = _)
      exact iff_of_false nofun (Record.not_haltsLast nofun nofun)
  | @unbound handler event recovery failure _ _ _ ends =>
      obtain rfl : result = .error failure := by simpa using ends
      have placed : first ++ [.performed (.announce event) (),
          .performed (.catchFault handler error.toFault) (.error failure)] =
          (first ++ [.performed (.announce event) ()]) ++
            [.performed (.catchFault handler error.toFault) (.error failure)] := by simp
      rw [placed]
      exact iff_of_false nofun (Record.not_haltsLast nofun nofun)
  | @relapsed handler event recovery within failure _ _ _ ends =>
      obtain rfl : result = .error failure := by simpa using ends
      have placed : first ++ [.performed (.announce event) (),
          .performed (.catchFault handler error.toFault) (.ok ()),
          .executed recovery .part within (some (.error failure))] =
          (first ++ [.performed (.announce event) (),
            .performed (.catchFault handler error.toFault) (.ok ())]) ++
            [.executed recovery .part within (some (.error failure))] := by simp
      rw [placed]
      exact iff_of_false nofun (Record.not_haltsLast nofun nofun)
  | @recovered handler event recovery within outcome _ _ _ ends =>
      obtain rfl : result = .ok outcome := by simpa using ends
      have placed : first ++ [.performed (.announce event) (),
          .performed (.catchFault handler error.toFault) (.ok ()),
          .executed recovery .part within (some (.ok outcome)), .performed .clearFault ()] =
          (first ++ [.performed (.announce event) ()]) ++
            [.performed (.catchFault handler error.toFault) (.ok ()),
              .executed recovery .part within (some (.ok outcome)),
              .performed .clearFault ()] := by simp
      rw [placed]
      constructor
      · rintro ⟨rfl⟩
        exact .inr ⟨_, handler, _, recovery, within, rfl⟩
      · rintro (⟨_, last, same, halted⟩ | ⟨_, _, _, _, _, same⟩)
        · have isLast := congrArg List.getLast? same
          simp only [List.getLast?_append, List.getLast?_singleton, List.getLast?_cons_cons,
            Option.some_or] at isLast
          cases isLast
          cases halted
        · obtain ⟨_, sameEnd⟩ := List.append_inj' same rfl
          cases sameEnd
          rfl

end Program

namespace Record.Owner.Does

variable {program : Program} {task : Task} {purpose : RunPurpose} {owner : Owner}
  {level : List Record} {result : Result}

/-- What was cut short has halted, if it has ended. -/
theorem halted_of_stops (stops : Stops level) (serves : program.Serves purpose task)
    (executes : owner = .whole → purpose = .execution)
    (does : owner.Does program task level (some result)) : result = .ok .halted := by
  induction stops generalizing owner result with
  | check => exact (does.handled serves executes).halted_iff.mpr (.inl ⟨_, _, rfl, rfl⟩)
  | exit => exact (does.handled serves executes).halted_iff.mpr (.inl ⟨_, _, rfl, rfl⟩)
  | @part before within activity ended? _ inductionHypothesis =>
      have handled := does.handled serves executes
      obtain ⟨ended, known⟩ := handled.ended_of_mem List.mem_concat_self trivial
      obtain rfl : ended? = some ended := known
      obtain rfl := inductionHypothesis (by nofun) (does.inside List.mem_concat_self)
      exact handled.halted_iff.mpr (.inl ⟨_, _, rfl, rfl⟩)
  | @side before within sides ended? present _ unfailed inductionHypothesis =>
      have handled := does.handled serves executes
      obtain ⟨ended, known⟩ := handled.ended_of_mem List.mem_concat_self trivial
      obtain ⟨results, allEnded, _⟩ := result?_branched_iff.mp known
      obtain ⟨own, _, ownResult⟩ := exists_result_of_side allEnded present
      obtain rfl : ended? = some own := ownResult
      obtain rfl := inductionHypothesis (by nofun) (does.aside serves List.mem_concat_self present)
      have halted := (branched_halts_iff known).mpr ⟨⟨_, present, rfl⟩, unfailed⟩
      rw [halted] at known
      exact handled.halted_iff.mpr (.inl ⟨_, _, rfl, known⟩)
  | @recovery before within handler fault recovery ended? _ inductionHypothesis =>
      have handled := does.handled serves executes
      have present : .executed recovery .part within ended? ∈
          before ++ [.performed (.catchFault handler fault) (.ok ()),
            .executed recovery .part within ended?, .performed .clearFault ()] := by simp
      obtain ⟨ended, known⟩ := handled.ended_of_mem present trivial
      obtain rfl : ended? = some ended := known
      obtain rfl := inductionHypothesis (by nofun) (does.inside present)
      exact handled.halted_iff.mpr (.inr ⟨_, _, _, _, _, rfl⟩)

/-- What has halted was cut short. -/
theorem stops_of_halted (serves : program.Serves purpose task)
    (executes : owner = .whole → purpose = .execution)
    (does : owner.Does program task level (some (.ok .halted))) : Stops level := by
  induction size : sizeOf level using Nat.strong_induction_on generalizing owner level with
  | _ bound inductionHypothesis =>
      rcases (does.handled serves executes).halted_iff.mp rfl with ⟨before, last, rfl, halted⟩ |
        ⟨before, handler, fault, recovery, within, rfl⟩
      · have smaller := List.sizeOf_lt_of_mem (@List.mem_concat_self _ before last)
        cases last with
        | performed action reply =>
            rcases of_result_halted (Option.some.inj halted) with same | ⟨id, same⟩
            · rw [same]
              exact .check
            · rw [same]
              exact .exit
        | executed activity role within ended? =>
            rw [size, Record.executed.sizeOf_spec] at smaller
            cases role with
            | part =>
                obtain rfl : ended? = some (.ok .halted) := halted
                exact .part (inductionHypothesis _ (by omega) (by nofun)
                  (does.inside List.mem_concat_self) rfl)
            | undoing scopeId => rcases ended? with _ | _ | _ <;> cases halted
        | branched sides =>
            rw [size, Record.branched.sizeOf_spec] at smaller
            obtain ⟨⟨⟨within, _⟩, present, rfl⟩, unfailed⟩ := (branched_halts_iff halted).mp rfl
            have smallest := List.sizeOf_lt_of_mem present
            rw [Prod.mk.sizeOf_spec] at smallest
            exact .side present (inductionHypothesis _ (by omega) (by nofun)
              (does.aside serves List.mem_concat_self present) rfl) unfailed
      · have present : .executed recovery .part within (some (.ok .halted)) ∈
            before ++ [.performed (.catchFault handler fault) (.ok ()),
              .executed recovery .part within (some (.ok .halted)), .performed .clearFault ()] := by
          simp
        have smaller := List.sizeOf_lt_of_mem present
        rw [size, Record.executed.sizeOf_spec] at smaller
        exact .recovery (inductionHypothesis _ (by omega) (by nofun) (does.inside present) rfl)

end Record.Owner.Does

end Orchestration
