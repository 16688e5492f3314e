import Orchestration.Proofs.Loops
import Orchestration.Proofs.Writes

/-!
# Counted loops

A counted loop learns its bounds once, before anything else, and holds the whole range against the limit. A
range that is too long makes it fail with nothing written. Else it takes one index after another, whatever
its body does to the counter or to the variables that the bounds came from: it asks whether to go on, writes
the index to its counter, and runs its body.
-/

namespace Orchestration

/-- That a loop always went on, no write of its counter was refused, and no run of its body failed or
halted. -/
structure Turn.Unhindered (turns : List Turn) : Prop where
  unhalted : .checked true ∉ turns
  written : ∀ index error, .counted index (.error error) ∉ turns
  completed : ∀ records result, .ran records (some result) ∈ turns → result = .ok .completed

/-- What a task has performed on its own level writes to none but its paths. -/
theorem Task.WritesWithin.of_mem {program : Program} {definition : Definition} {paths : List String}
    {task : Task} {records : List Record} {result? : Option Result} {action : Action}
    {reply : action.Reply} (within : task.WritesWithin definition paths)
    (unfolds : task.Unfolds program records result?) (present : .performed action reply ∈ records) :
    action.targets ⊆ paths := by
  induction unfolds with
  | rest => cases present
  | done => cases present
  | act _ inductionHypothesis =>
      cases within with
      | act writes continues =>
          rcases List.mem_cons.mp present with same | later
          · cases same
            exact writes
          · exact inductionHypothesis (continues _) later
  | inside => simp at present
  | call _ _ _ inductionHypothesis =>
      cases within with
      | call _ continues => exact inductionHypothesis (continues _) (by simpa using present)
  | wait _ inductionHypothesis =>
      cases within with
      | wait continues => exact inductionHypothesis continues present
  | aside => simp at present
  | fork _ _ _ _ _ inductionHypothesis =>
      cases within with
      | fork _ continues => exact inductionHypothesis (continues _) (by simpa using present)

namespace Program

variable {program : Program} {loop : Activity} {turns : List Turn} {records : List Record}
  {inner : Thread}

/-! ## Bounds -/

/-- That a bound of a loop has a value: the one that was declared, or one that was measured. -/
inductive Measures : Option LoopBound → Int → List Record → Prop where
  | fixed {value : Int} : Measures (some (.fixed value)) value []
  | measured {text : String} {value : Int} :
      Measures (some (.expression text)) value [.performed (.measure text) (.ok value)]

/-- That nothing was done but to measure bounds. -/
def OnlyMeasures (records : List Record) : Prop :=
  ∀ record ∈ records, ∃ text reply, record = .performed (.measure text) reply

/-- Where nothing was done nothing but measuring was. -/
theorem onlyMeasures_nil : OnlyMeasures [] := nofun

/-- To measure a bound is only to measure. -/
theorem onlyMeasures_singleton {text : String} {reply : (Action.measure text).Reply} :
    OnlyMeasures [.performed (.measure text) reply] := by
  rintro _ ⟨⟩
  · exact ⟨_, _, rfl⟩
  · contradiction

/-- A bound gets its value by measuring at most. -/
theorem Measures.only {bound : Option LoopBound} {value : Int} (measures : Measures bound value records) :
    OnlyMeasures records := by
  cases measures with
  | fixed => exact onlyMeasures_nil
  | measured => exact onlyMeasures_singleton

/-- That a bound of a loop has no value, at least by now, with what was done for it and where the loop stands:
the bound was not declared, it is about to be measured, or it was measured in vain. -/
inductive Lacks (loop : Activity) (bound : Option LoopBound) (complaint : String) :
    List Record → Thread → Prop where
  | undeclared {inner : Thread} (missing : bound = none)
      (endsIn : inner.EndsIn (.error (.invalid loop.id complaint))) : Lacks loop bound complaint [] inner
  | measuring {text : String} {following : (Action.measure text).Reply → Task}
      (isText : bound = some (.expression text)) :
      Lacks loop bound complaint [] (.ready [] (.act (.measure text) following))
  | unmeasured {text : String} {error : ActivityError} {inner : Thread}
      (isText : bound = some (.expression text)) (endsIn : inner.EndsIn (.error error)) :
      Lacks loop bound complaint [.performed (.measure text) (.error error)] inner

/-- Nothing but measuring is done for a bound that has no value. -/
theorem Lacks.only {bound : Option LoopBound} {complaint : String}
    (lacks : Lacks loop bound complaint records inner) : OnlyMeasures records := by
  cases lacks with
  | undeclared | measuring => exact onlyMeasures_nil
  | unmeasured => exact onlyMeasures_singleton

/-- That a loop has no range, at least by now: it has nothing to count with, or a value is lacking for its first
bound, or for the last one when the first one is known. -/
inductive Unbounded (loop : Activity) : List Record → Thread → Prop where
  | counter {inner : Thread} (missing : loop.counterVariable = none)
      (endsIn : inner.EndsIn (.error (.invalid loop.id "missing counterVariable"))) : Unbounded loop [] inner
  | start {counter : String} {records : List Record} {inner : Thread}
      (isCounter : loop.counterVariable = some counter)
      (lacks : Lacks loop loop.startValue "missing startValue" records inner) : Unbounded loop records inner
  | finish {counter : String} {start : Int} {first second : List Record} {inner : Thread}
      (isCounter : loop.counterVariable = some counter) (starts : Measures loop.startValue start first)
      (lacks : Lacks loop loop.endValue "missing endValue" second inner) :
      Unbounded loop (first ++ second) inner

/-- A loop that needs a bound lacks it, or it has its value and goes on. -/
theorem follows_measureBound {bound : Option LoopBound} {field : String} {next : Int → Task}
    (follows : inner.Follows program (measureBound loop bound field next) records) :
    Lacks loop bound s!"missing {field}" records inner ∨ ∃ value first rest, records = first ++ rest ∧
      Measures bound value first ∧ inner.Follows program (next value) rest := by
  unfold measureBound at follows
  split at follows
  · exact .inr ⟨_, [], records, rfl, .fixed, follows⟩
  · cases follows with
    | ready => exact .inl (.measuring rfl)
    | @act _ _ reply _ _ continues =>
        change Except ActivityError Int at reply
        cases reply with
        | error error =>
            obtain ⟨rfl, endsIn⟩ := continues.of_done
            exact .inl (.unmeasured rfl endsIn)
        | ok value => exact .inr ⟨value, _, _, rfl, .measured, continues⟩
  · obtain ⟨rfl, endsIn⟩ := follows.of_done
    exact .inl (.undeclared rfl endsIn)

/-! ## Iterations -/

/-- So many indexes after the next one comes the same index as one more after this one. -/
theorem index_succ (start : Int) (count : Nat) :
    start + 1 + (count : Int) = start + ((count + 1 : Nat) : Int) := by
  omega

/-- The turns of a counted loop that has had some runs, which all completed. -/
def iterations (index : Int) : List (List Record) → List Turn
  | [] => []
  | records :: runs =>
      .checked false :: .counted index (.ok ()) :: .ran records (some (.ok .completed)) ::
        iterations (index + 1) runs

/-- Where a loop stands that has so many indexes to count from a first one on, with its turns by then. -/
inductive Counting (program : Program) (loop : Activity) (counter : String) (count : Nat) (start : Int) :
    List Turn → Thread → Prop where
  /-- It is about to ask whether to go on. -/
  | checking {runs : List (List Record)} {following : Action.checkHalting.Reply → Task}
      (within : runs.length < count) :
      Counting program loop counter count start (iterations start runs)
        (.ready [] (.act .checkHalting following))
  /-- The instance was suspended or terminated. -/
  | halted {runs : List (List Record)} {inner : Thread} (within : runs.length < count)
      (endsIn : inner.EndsIn (.ok .halted)) :
      Counting program loop counter count start (iterations start runs ++ [.checked true]) inner
  /-- It is about to write an index. -/
  | writing {runs : List (List Record)} {index : Int}
      {following : (Action.write counter (.integer index)).Reply → Task}
      (within : runs.length < count) (isIndex : index = start + runs.length) :
      Counting program loop counter count start (iterations start runs ++ [.checked false])
        (.ready [] (.act (.write counter (.integer index)) following))
  /-- The index could not be written. -/
  | refused {runs : List (List Record)} {index : Int} {error : ActivityError} {inner : Thread}
      (within : runs.length < count) (isIndex : index = start + runs.length)
      (endsIn : inner.EndsIn (.error error)) :
      Counting program loop counter count start
        (iterations start runs ++ [.checked false, .counted index (.error error)]) inner
  /-- Its body is running. -/
  | running {runs : List (List Record)} {index : Int} {records : List Record} {inner : Thread}
      (within : runs.length < count) (isIndex : index = start + runs.length)
      (inRun : program.InRun loop records) (open_ : inner.result? = none) :
      Counting program loop counter count start
        (iterations start runs ++ [.checked false, .counted index (.ok ()), .ran records none]) inner
  /-- A run of its body failed or halted. -/
  | stopped {runs : List (List Record)} {index : Int} {records : List Record} {result : Result}
      {inner : Thread} (within : runs.length < count) (isIndex : index = start + runs.length)
      (incomplete : result ≠ .ok .completed) (endsIn : inner.EndsIn result) :
      Counting program loop counter count start
        (iterations start runs ++ [.checked false, .counted index (.ok ()), .ran records (some result)]) inner
  /-- It has had a run for every index. -/
  | completed {runs : List (List Record)} {inner : Thread} (within : runs.length = count)
      (endsIn : inner.EndsIn (.ok .completed)) :
      Counting program loop counter count start (iterations start runs) inner

variable {counter : String} {count : Nat} {start : Int}

/-- After a run that completed it stands as with one index less to count. -/
theorem Counting.again (counting : program.Counting loop counter count (start + 1) turns inner)
    (records : List Record) :
    program.Counting loop counter (count + 1) start
      (.checked false :: .counted start (.ok ()) :: .ran records (some (.ok .completed)) :: turns) inner := by
  cases counting with
  | @checking runs _ within =>
      exact @Counting.checking _ _ _ _ _ (records :: runs) _ (Nat.succ_lt_succ within)
  | @halted runs _ within endsIn =>
      exact @Counting.halted _ _ _ _ _ (records :: runs) _ (Nat.succ_lt_succ within) endsIn
  | @writing runs _ _ within isIndex =>
      exact @Counting.writing _ _ _ _ _ (records :: runs) _ _ (Nat.succ_lt_succ within)
        (isIndex.trans (index_succ start runs.length))
  | @refused runs _ _ _ within isIndex endsIn =>
      exact @Counting.refused _ _ _ _ _ (records :: runs) _ _ _ (Nat.succ_lt_succ within)
        (isIndex.trans (index_succ start runs.length)) endsIn
  | @running runs _ _ _ within isIndex inRun open_ =>
      exact @Counting.running _ _ _ _ _ (records :: runs) _ _ _ (Nat.succ_lt_succ within)
        (isIndex.trans (index_succ start runs.length)) inRun open_
  | @stopped runs _ _ _ _ within isIndex incomplete endsIn =>
      exact @Counting.stopped _ _ _ _ _ (records :: runs) _ _ _ _ (Nat.succ_lt_succ within)
        (isIndex.trans (index_succ start runs.length)) incomplete endsIn
  | @completed runs _ within endsIn =>
      exact @Counting.completed _ _ _ _ _ (records :: runs) _ (congrArg Nat.succ within) endsIn

/-- Where a loop stands that writes its counter: before that, after a write that failed, or behind it. -/
theorem follows_writeCounter {index : Int} {next : Task} (isCounter : loop.counterVariable = some counter)
    (follows : inner.Follows program (writeCounter counter index next) records) :
    (records = [] ∧ ∃ following, inner = .ready [] (.act (.write counter (.integer index)) following)) ∨
      (∃ error, records = (Turn.counted index (.error error)).records loop ∧
        inner.EndsIn (.error error)) ∨
      ∃ rest, records = (Turn.counted index (.ok ())).records loop ++ rest ∧
        inner.Follows program next rest := by
  cases follows with
  | ready => exact .inl ⟨rfl, _, rfl⟩
  | @act _ _ reply _ _ continues =>
      change Except ActivityError Unit at reply
      cases reply with
      | error error =>
          obtain ⟨rfl, endsIn⟩ := continues.of_done
          exact .inr (.inl ⟨error, by simp [Turn.records, isCounter], endsIn⟩)
      | ok written => exact .inr (.inr ⟨_, by simp [Turn.records, isCounter], continues⟩)

/-- Every loop that counts stands somewhere. -/
theorem exists_counting (isCounter : loop.counterVariable = some counter)
    (follows : inner.Follows program (program.runIterations counter loop.children count start) records) :
    ∃ turns, program.Takes loop turns records ∧ program.Counting loop counter count start turns inner := by
  induction count generalizing start records with
  | zero =>
      obtain ⟨rfl, endsIn⟩ := follows.of_done
      exact ⟨[], takes_nil, @Counting.completed _ _ _ _ _ [] _ rfl endsIn⟩
  | succ count inductionHypothesis =>
      have within : ([] : List (List Record)).length < count + 1 := Nat.succ_pos count
      have isIndex : start = start + (([] : List (List Record)).length : Int) := by simp
      cases follows with
      | ready => exact ⟨[], takes_nil, .checking within⟩
      | @act _ _ halting _ _ goesOn =>
          change Bool at halting
          cases halting with
          | true =>
              obtain ⟨rfl, endsIn⟩ := goesOn.of_done
              exact ⟨_, takes_singleton (.checked true) nofun, .halted within endsIn⟩
          | false =>
              rcases follows_writeCounter isCounter goesOn with ⟨rfl, following, rfl⟩ |
                ⟨error, rfl, endsIn⟩ | ⟨rest, rfl, continues⟩
              · exact ⟨_, takes_singleton (.checked false) nofun, .writing within isIndex⟩
              · exact ⟨_, (takes_singleton (.counted _ _) nofun).cons (.checked false) nofun,
                  .refused within isIndex endsIn⟩
              rcases continues.of_whenCompleted with ⟨open_, body, bodyFollows, going⟩ |
                ⟨result, incomplete, unfolds, endsIn⟩ | ⟨first, rest, rfl, unfolds, continues⟩
              · have unfolds := going.open_ ▸ bodyFollows.unfolds
                exact ⟨_, ((takes_run unfolds).cons (.counted _ _) nofun).cons (.checked false) nofun,
                  .running within isIndex ⟨body, bodyFollows, going⟩ open_⟩
              · exact ⟨_, ((takes_run unfolds).cons (.counted _ _) nofun).cons (.checked false) nofun,
                  .stopped within isIndex incomplete endsIn⟩
              · obtain ⟨turns, takes, counting⟩ := inductionHypothesis continues
                exact ⟨_, ((takes.run unfolds).cons (.counted _ _) nofun).cons (.checked false) nofun,
                  counting.again first⟩

/-- There is a run in each iteration. -/
@[simp]
theorem runs_iterations (start : Int) (runs : List (List Record)) :
    Turn.runs (iterations start runs) = runs.length := by
  induction runs generalizing start with
  | nil => rfl
  | cons records runs inductionHypothesis => simp [iterations, inductionHypothesis]

/-- That every run of the body comes directly after its index was written: the first one of the first index,
and so on. -/
def BeginsInOrder (start : Int) (turns : List Turn) : Prop :=
  ∀ before records result? after, turns = before ++ .ran records result? :: after →
    ∃ earlier, before = earlier ++ [.checked false, .counted (start + Turn.runs before) (.ok ())]

/-- Turns without a run are in order. -/
theorem beginsInOrder_of_runs_eq_zero (none : Turn.runs turns = 0) : BeginsInOrder start turns := by
  rintro before records result? after rfl
  simp at none

/-- An iteration before others that begin in order makes them begin one index earlier. -/
theorem BeginsInOrder.cons (inOrder : BeginsInOrder (start + 1) turns) (records : List Record)
    (result? : Option Result) :
    BeginsInOrder start
      (.checked false :: .counted start (.ok ()) :: .ran records result? :: turns) := by
  intro before within ended? after placed
  rcases before with _ | ⟨first, _ | ⟨second, _ | ⟨third, before⟩⟩⟩
  · cases placed
  · cases placed
  · cases placed
    exact ⟨[], by simp⟩
  · simp only [List.cons_append, List.cons.injEq] at placed
    obtain ⟨rfl, rfl, rfl, placed⟩ := placed
    obtain ⟨earlier, isBefore⟩ := inOrder before within ended? after placed
    refine ⟨.checked false :: .counted start (.ok ()) :: .ran records result? :: earlier, ?_⟩
    rw [index_succ] at isBefore
    simpa using isBefore

/-- What comes in order after the runs of the first indexes is in order. -/
theorem beginsInOrder_iterations {runs : List (List Record)}
    (inOrder : BeginsInOrder (start + runs.length) turns) :
    BeginsInOrder start (iterations start runs ++ turns) := by
  induction runs generalizing start with
  | nil => simpa [iterations] using inOrder
  | cons records runs inductionHypothesis =>
      refine BeginsInOrder.cons (inductionHypothesis ?_) records _
      rwa [index_succ]

/-- The indexes that were written are those of the runs. -/
theorem exists_of_counted_mem {runs : List (List Record)} {index : Int}
    {reply : Except ActivityError Unit} (present : .counted index reply ∈ iterations start runs) :
    ∃ offset < runs.length, index = start + offset := by
  induction runs generalizing start with
  | nil => cases present
  | cons records runs inductionHypothesis =>
      simp only [iterations, List.mem_cons, reduceCtorEq, false_or, Turn.counted.injEq] at present
      rcases present with ⟨rfl, _⟩ | later
      · exact ⟨0, Nat.succ_pos _, by simp⟩
      · obtain ⟨offset, within, rfl⟩ := inductionHypothesis later
        refine ⟨offset + 1, Nat.succ_lt_succ within, ?_⟩
        omega

namespace Counting

variable (counting : program.Counting loop counter count start turns inner)

include counting

/-- There are no more runs than indexes. -/
theorem bounded : Turn.runs turns ≤ count := by
  cases counting with
  | checking within | halted within | writing within | refused within => simpa using within.le
  | running within | stopped within => simpa using Nat.succ_le_of_lt within
  | completed within => simp [within]

/-- Each run comes directly after its own index was written. -/
theorem inOrder : BeginsInOrder start turns := by
  have ran {records : List Record} {result? : Option Result} {index : Int} {runs : List (List Record)}
      (isIndex : index = start + runs.length) : BeginsInOrder start
        (iterations start runs ++ [.checked false, .counted index (.ok ()), .ran records result?]) := by
    subst isIndex
    exact beginsInOrder_iterations ((beginsInOrder_of_runs_eq_zero rfl).cons records result?)
  cases counting with
  | @checking runs | @completed runs =>
      have inOrder := @beginsInOrder_iterations [] start runs (beginsInOrder_of_runs_eq_zero rfl)
      rwa [List.append_nil] at inOrder
  | halted | writing | refused => exact beginsInOrder_iterations (beginsInOrder_of_runs_eq_zero rfl)
  | running _ isIndex | stopped _ isIndex => exact ran isIndex

/-- Only indexes of the range are written. -/
theorem exists_of_mem {index : Int} {reply : Except ActivityError Unit}
    (present : .counted index reply ∈ turns) : ∃ offset < count, index = start + offset := by
  have earlier {runs : List (List Record)} (within : runs.length ≤ count)
      (present : .counted index reply ∈ iterations start runs) :
      ∃ offset < count, index = start + offset := by
    obtain ⟨offset, small, isIndex⟩ := exists_of_counted_mem present
    exact ⟨offset, small.trans_le within, isIndex⟩
  cases counting with
  | checking within => exact earlier within.le present
  | completed within => exact earlier within.le present
  | halted within | writing within => exact earlier within.le (by simpa using present)
  | refused within isIndex | running within isIndex | stopped within isIndex =>
      simp only [List.mem_append, List.mem_cons, List.not_mem_nil, or_false, reduceCtorEq, false_or,
        Turn.counted.injEq] at present
      rcases present with present | ⟨rfl, _⟩
      · exact earlier within.le present
      · exact ⟨_, within, isIndex⟩

/-- Once the runs of all indexes have completed, the loop completes. -/
theorem completes (all : Turn.runs turns = count)
    (completed : ∀ records result?, .ran records result? ∈ turns → result? = some (.ok .completed)) :
    inner.EndsIn (.ok .completed) := by
  cases counting with
  | checking within | halted within | writing within | refused within =>
      simp at all
      omega
  | @running runs index records => cases completed records none (by simp)
  | @stopped runs index records result _ _ _ incomplete =>
      exact absurd (Option.some.inj (completed records (some result) (by simp))) incomplete
  | completed _ endsIn => exact endsIn

/-- A loop that went on unhindered has ended only if it has had the runs of all indexes. -/
theorem ends (unhindered : Turn.Unhindered turns) {result : Result} (known : inner.result? = some result) :
    result = .ok .completed ∧ Turn.runs turns = count := by
  cases counting with
  | checking => cases known
  | halted => exact absurd (by simp) unhindered.unhalted
  | writing => cases known
  | @refused runs index error => exact absurd (by simp) (unhindered.written index error)
  | running _ _ _ open_ => cases open_.symm.trans known
  | @stopped runs index records own _ _ _ incomplete =>
      exact absurd (unhindered.completed records own (by simp)) incomplete
  | completed within endsIn => exact ⟨endsIn.eq_of_result? known, by simp [within]⟩

end Counting

/-! ## Ranges -/

/-- That a loop got to know its bounds and took turns after that. -/
inductive TakesBetween (program : Program) (loop : Activity) (start finish : Int) (turns : List Turn) :
    List Record → Prop where
  | measured {first second rest : List Record} (starts : Measures loop.startValue start first)
      (ends : Measures loop.endValue finish second) (takes : program.Takes loop turns rest) :
      TakesBetween program loop start finish turns (first ++ (second ++ rest))

/-- What is recorded of a turn is recorded of the loop. -/
theorem TakesBetween.mem {start finish : Int} {turn : Turn} {record : Record}
    (takes : program.TakesBetween loop start finish turns records) (present : turn ∈ turns)
    (isRecord : record ∈ turn.records loop) : record ∈ records := by
  obtain ⟨_, _, takes⟩ := takes
  exact List.mem_append_right _ (List.mem_append_right _ (takes.mem present isRecord))

/-- The runs of a loop are runs of its children in order. -/
theorem TakesBetween.runs {start finish : Int} {within : List Record} {result? : Option Result}
    (takes : program.TakesBetween loop start finish turns records) (present : .ran within result? ∈ turns) :
    (program.runSequence loop.children).Unfolds program within result? := by
  obtain ⟨_, _, takes⟩ := takes
  exact takes.runs within result? present

/-- Where a loop stands that knows its bounds, with its turns by then. -/
inductive RangeStands (program : Program) (loop : Activity) (counter : String) (start finish : Int)
    (turns : List Turn) (inner : Thread) : Prop where
  /-- The range is longer than the limit allows. -/
  | exceeded (beyond : (program.settings.maxLoopIterations : Int) < finish - start + 1)
      (givesUp : program.GivesUp loop turns) (endsIn : inner.EndsIn (.error (program.limitError loop)))
  /-- It counts, perhaps no index at all. -/
  | counting (within : finish - start + 1 ≤ program.settings.maxLoopIterations)
      (counting : program.Counting loop counter (finish - start + 1).toNat start turns inner)

/-- Every execution of a counted loop whose runs come one after another has no range, or stands somewhere between
its bounds. -/
theorem exists_rangeStands (sequential : loop.parallel = false)
    (follows : inner.Follows program (program.runForEach loop) records) :
    Unbounded loop records inner ∨ ∃ counter start finish turns, loop.counterVariable = some counter ∧
      program.TakesBetween loop start finish turns records ∧
        program.RangeStands loop counter start finish turns inner := by
  unfold runForEach at follows
  cases isCounter : loop.counterVariable with
  | none =>
      rw [isCounter] at follows
      obtain ⟨rfl, endsIn⟩ := follows.of_done
      exact .inl (.counter isCounter endsIn)
  | some counter =>
      rw [isCounter] at follows
      rcases follows_measureBound follows with lacks | ⟨start, first, rest, rfl, starts, measures⟩
      · exact .inl (.start isCounter lacks)
      rcases follows_measureBound measures with lacks | ⟨finish, second, rest, rfl, ends, goesOn⟩
      · exact .inl (.finish isCounter starts lacks)
      simp only [sequential, Bool.false_eq_true, if_false] at goesOn
      refine .inr ⟨counter, start, finish, ?_⟩
      split at goesOn
      · rename_i beyond
        obtain ⟨turns, takes, givesUp, endsIn⟩ := exists_givesUp goesOn
        exact ⟨turns, rfl, .measured starts ends takes, .exceeded beyond givesUp endsIn⟩
      · rename_i within
        obtain ⟨turns, takes, counting⟩ := exists_counting isCounter goesOn
        exact ⟨turns, rfl, .measured starts ends takes, .counting (not_lt.mp within) counting⟩

/-- What the bounds of a loop say of its runs and of its end. -/
structure RangeCounts (program : Program) (loop : Activity) (start finish : Int) (turns : List Turn)
    (within : List Record) (inner : Thread) : Prop where
  /-- A range that is too long makes it fail, and nothing that it did changes an instance. -/
  exceeds : (program.settings.maxLoopIterations : Int) < finish - start + 1 →
    Turn.runs turns = 0 ∧ inner.EndsIn (.error (program.limitError loop)) ∧
      ∀ record ∈ within, ∃ action reply, record = .performed action reply ∧
        ∀ subject, (action.perform subject).subject = subject
  bounded : (Turn.runs turns : Int) ≤ max 0 (finish - start + 1)
  /-- The runs are those of the indexes of the range in order, and each begins when its index is written. -/
  inOrder : BeginsInOrder start turns
  indexes : ∀ index reply, .counted index reply ∈ turns → start ≤ index ∧ index ≤ finish
  completes : (Turn.runs turns : Int) = max 0 (finish - start + 1) →
    (∀ records result?, .ran records result? ∈ turns → result? = some (.ok .completed)) →
      finish - start + 1 ≤ program.settings.maxLoopIterations → inner.EndsIn (.ok .completed)
  ends : Turn.Unhindered turns → ∀ result, inner.result? = some result →
    finish - start + 1 ≤ program.settings.maxLoopIterations →
      result = .ok .completed ∧ (Turn.runs turns : Int) = max 0 (finish - start + 1)
  /-- All numbers fit: the indexes a signed word, and the length of the range two words. -/
  fits : Word.isSigned start = true → Word.isSigned finish = true →
    (∀ index reply, .counted index reply ∈ turns → Word.isSigned index = true) ∧
      -(Word.count * Word.signedLimit : Int) ≤ finish - start + 1 ∧
        finish - start + 1 < Word.count * Word.signedLimit

/-- Giving up counts nothing. -/
theorem GivesUp.counted_not_mem (givesUp : program.GivesUp loop turns) {index : Int}
    {reply : Except ActivityError Unit} : .counted index reply ∉ turns := by
  rcases givesUp with rfl | rfl <;> simp

/-- What a loop records that gives up leaves every instance as it was. -/
theorem exists_performed_of_mem {start finish : Int}
    (takes : program.TakesBetween loop start finish turns records) (givesUp : program.GivesUp loop turns)
    {record : Record} (present : record ∈ records) :
    ∃ action reply, record = .performed action reply ∧
      ∀ subject, (action.perform subject).subject = subject := by
  obtain ⟨starts, ends, takes⟩ := takes
  have measured {records : List Record} (only : OnlyMeasures records) (present : record ∈ records) :
      ∃ action reply, record = .performed action reply ∧
        ∀ subject, (action.perform subject).subject = subject := by
    obtain ⟨text, reply, rfl⟩ := only record present
    exact ⟨_, reply, rfl, fun _ => rfl⟩
  rcases List.mem_append.mp present with first | rest
  · exact measured starts.only first
  rcases List.mem_append.mp rest with second | rest
  · exact measured ends.only second
  rw [takes.recorded] at rest
  rcases givesUp with rfl | rfl
  · cases rest
  · simp only [List.flatMap_cons, List.flatMap_nil, List.append_nil, Turn.records,
      List.mem_singleton] at rest
    exact ⟨_, _, rest, fun _ => rfl⟩

/-- Where a loop stands says what its runs and its end are. -/
theorem RangeStands.counts {start finish : Int} (takes : program.TakesBetween loop start finish turns records)
    (stands : program.RangeStands loop counter start finish turns inner) :
    program.RangeCounts loop start finish turns records inner := by
  have indexes : ∀ index reply, .counted index reply ∈ turns → start ≤ index ∧ index ≤ finish := by
    intro index reply present
    cases stands with
    | exceeded _ givesUp => exact absurd present givesUp.counted_not_mem
    | counting _ counting =>
        obtain ⟨offset, within, rfl⟩ := counting.exists_of_mem present
        omega
  have length_eq : ((finish - start + 1).toNat : Int) = max 0 (finish - start + 1) := by omega
  refine
    { exceeds := fun beyond => ?exceeds
      bounded := ?bounded
      inOrder := ?inOrder
      indexes := indexes
      completes := fun all completed within => ?completes
      ends := fun unhindered result known within => ?ends
      fits := fun fitsStart fitsFinish => ?fits }
  case exceeds =>
    cases stands with
    | exceeded _ givesUp endsIn =>
        exact ⟨givesUp.runs_eq, endsIn, fun record => exists_performed_of_mem takes givesUp⟩
    | counting within => omega
  case bounded =>
    cases stands with
    | exceeded _ givesUp => simp [givesUp.runs_eq]
    | counting _ counting =>
        have bounded := counting.bounded
        omega
  case inOrder =>
    cases stands with
    | exceeded _ givesUp => exact beginsInOrder_of_runs_eq_zero givesUp.runs_eq
    | counting _ counting => exact counting.inOrder
  case completes =>
    cases stands with
    | exceeded beyond => omega
    | counting _ counting => exact counting.completes (by omega) completed
  case ends =>
    cases stands with
    | exceeded beyond => omega
    | counting _ counting =>
        obtain ⟨isCompleted, all⟩ := counting.ends unhindered known
        exact ⟨isCompleted, by omega⟩
  case fits =>
    rw [Word.isSigned_iff] at fitsStart fitsFinish
    have twoWords : (Word.count * Word.signedLimit : Int) = 170141183460469231731687303715884105728 := rfl
    refine ⟨fun index reply present => ?_, by omega, by omega⟩
    have between := indexes index reply present
    exact Word.isSigned_iff.mpr (by omega)

/-! ## Runs begin -/

/-- A run of the body writes nothing on the level of its loop. -/
theorem not_mem_run {children : List String} {result? : Option Result} {path : String} {value : Value}
    {reply : Except ActivityError Unit}
    (unfolds : (program.runSequence children).Unfolds program records result?) :
    .performed (.write path value) reply ∉ records := by
  intro present
  have targets := (@writesWithin_runSequence program [] children).of_mem unfolds present
  exact absurd (targets List.mem_cons_self) List.not_mem_nil

/-- Where two lists in a row end with something that is not in the first, the second one does. -/
theorem exists_concat_of_append {before first rest : List Record} {last : Record}
    (placed : before ++ [last] = first ++ rest) (absent : last ∉ first) :
    ∃ middle, rest = middle ++ [last] ∧ before = first ++ middle := by
  rcases List.eq_nil_or_concat rest with rfl | ⟨middle, other, rfl⟩
  · rw [List.append_nil] at placed
    exact absurd (placed ▸ List.mem_concat_self) absent
  · rw [List.concat_eq_append, ← List.append_assoc] at placed
    obtain ⟨rfl, isLast⟩ := List.append_inj' placed rfl
    cases isLast
    exact ⟨middle, List.concat_eq_append, rfl⟩

section Writing

variable {before : List Record} {path : String} {value : Value} {reply : Except ActivityError Unit}

/-- What a loop that writes its counter has done, with a write as the last: that of the counter, or it went on
to another one. -/
theorem follows_writeCounter_concat {index : Int} {next : Task}
    (follows : inner.Follows program (writeCounter counter index next)
      (before ++ [.performed (.write path value) reply])) :
    (before = [] ∧ path = counter ∧ value = .integer index) ∨
      ∃ rest, before = .performed (.write counter (.integer index)) (.ok ()) :: rest ∧
        inner.Follows program next (rest ++ [.performed (.write path value) reply]) := by
  generalize isWhole : before ++ [.performed (.write path value) reply] = whole at follows
  cases follows with
  | ready => simp at isWhole
  | @act _ _ own _ _ continues =>
      cases before with
      | nil =>
          cases isWhole
          exact .inl ⟨rfl, rfl, rfl⟩
      | cons first rest =>
          obtain ⟨rfl, rfl⟩ := List.cons_eq_cons.mp isWhole
          change Except ActivityError Unit at own
          cases own with
          | error error =>
              obtain ⟨isNil, _⟩ := continues.of_done
              simp at isNil
          | ok written => exact .inr ⟨rest, rfl, continues⟩

/-- What a loop that counts has written last is the next index, after it had asked whether to go on. -/
theorem exists_iterations_of_write (isCounter : loop.counterVariable = some counter)
    (follows : inner.Follows program (program.runIterations counter loop.children count start)
      (before ++ [.performed (.write path value) reply])) :
    ∃ runs, program.Takes loop (iterations start runs ++ [.checked false]) before ∧ path = counter ∧
      value = .integer (start + runs.length) := by
  induction count generalizing start before with
  | zero =>
      obtain ⟨isNil, _⟩ := follows.of_done
      simp at isNil
  | succ count inductionHypothesis =>
      generalize isWhole : before ++ [.performed (.write path value) reply] = whole at follows
      cases follows with
      | ready => simp at isWhole
      | @act _ _ halting rest _ goesOn =>
          obtain ⟨middle, rfl, rfl⟩ := @exists_concat_of_append _ [_] _ _ isWhole
            fun present => by cases List.mem_singleton.mp present
          change Bool at halting
          cases halting with
          | true =>
              obtain ⟨isNil, _⟩ := goesOn.of_done
              simp at isNil
          | false =>
              rcases follows_writeCounter_concat goesOn with ⟨rfl, rfl, rfl⟩ | ⟨rest, rfl, runs⟩
              · exact ⟨[], takes_singleton (.checked false) nofun, rfl, by simp⟩
              rcases runs.of_whenCompleted with ⟨_, body, bodyFollows, _⟩ | ⟨result, _, unfolds, _⟩ |
                ⟨first, last, isRest, unfolds, counts⟩
              · exact absurd List.mem_concat_self (not_mem_run bodyFollows.unfolds)
              · exact absurd List.mem_concat_self (not_mem_run unfolds)
              obtain ⟨middle, rfl, rfl⟩ := exists_concat_of_append isRest (not_mem_run unfolds)
              obtain ⟨runs, takes, isPath, isValue⟩ := inductionHypothesis counts
              have takes :=
                ((takes.run unfolds).cons (.counted start (.ok ())) nofun).cons (.checked false) nofun
              exact ⟨first :: runs, by simpa [Turn.records, isCounter, iterations] using takes, isPath,
                isValue.trans (congrArg Value.integer (index_succ start runs.length))⟩

/-- What a counted loop has written last is the next index of its range. -/
theorem exists_range_of_write (sequential : loop.parallel = false)
    (follows : inner.Follows program (program.runForEach loop)
      (before ++ [.performed (.write path value) reply])) :
    ∃ start finish runs, loop.counterVariable = some path ∧
      program.TakesBetween loop start finish (iterations start runs ++ [.checked false]) before ∧
        value = .integer (start + runs.length) := by
  have unmeasured {records : List Record} (only : OnlyMeasures records) :
      .performed (.write path value) reply ∉ records := by
    intro present
    obtain ⟨_, _, same⟩ := only _ present
    cases same
  unfold runForEach at follows
  cases isCounter : loop.counterVariable with
  | none =>
      rw [isCounter] at follows
      obtain ⟨isNil, _⟩ := follows.of_done
      simp at isNil
  | some counter =>
      rw [isCounter] at follows
      rcases follows_measureBound follows with lacks | ⟨start, first, rest, isWhole, starts, measures⟩
      · exact absurd List.mem_concat_self (unmeasured lacks.only)
      obtain ⟨middle, rfl, rfl⟩ := exists_concat_of_append isWhole (unmeasured starts.only)
      rcases follows_measureBound measures with lacks | ⟨finish, second, rest, isWhole, ends, goesOn⟩
      · exact absurd List.mem_concat_self (unmeasured lacks.only)
      obtain ⟨middle, rfl, rfl⟩ := exists_concat_of_append isWhole (unmeasured ends.only)
      simp only [sequential, Bool.false_eq_true, if_false] at goesOn
      split at goesOn
      · generalize isLast : middle ++ [.performed (.write path value) reply] = last at goesOn
        obtain ⟨turns, takes, rfl | rfl, _⟩ := exists_givesUp goesOn
        · simp [takes.recorded] at isLast
        · have present : .performed (.write path value) reply ∈ last := isLast ▸ List.mem_concat_self
          rw [takes.recorded] at present
          cases List.mem_singleton.mp present
      · obtain ⟨runs, takes, rfl, isValue⟩ := exists_iterations_of_write isCounter goesOn
        exact ⟨start, finish, runs, rfl, .measured starts ends takes, isValue⟩

end Writing

end Program

/-- A write that succeeded is read. -/
theorem Instance.get?_of_write {path : String} {value : Value} {subject : Instance}
    (written : ((Action.write path value).perform subject).reply = .ok ()) :
    ((Action.write path value).perform subject).subject.bag.get? path = some value := by
  simp only [Action.perform, writeVariable, Bag.assignPath] at written ⊢
  cases isSet : subject.bag.set path value with
  | error error =>
      rw [isSet] at written
      cases written
  | ok bag => exact Bag.get?_of_set isSet

/-- The statuses that stop an instance at its checkpoints. -/
theorem InstanceStatus.isHalting_iff {status : InstanceStatus} :
    status.isHalting = true ↔ status = .suspended ∨ status = .terminated := by
  cases status <;> simp [isHalting]

open Snapshot (History stagesOf)

/-- Whenever a counted loop is executed whose runs come one after another, whatever its body does and whatever
else happens to the variables: it has no range only while it is about to measure a bound, or when it fails for
want of a counter or of a bound, or because a bound could not be measured. If the range is longer than the limit
allows, it fails, and nothing that it did has changed an instance. Else it completes after as many runs as there
are indexes in the range, and ends in no other way unless it is asked to halt between two runs, a write of its
counter is refused, or a run of its body fails or halts. Its runs begin in the order of the indexes, each when
its index has been written to the counter, which then has that index. It is asked to halt when the instance has
been suspended or terminated by then, and not otherwise. All numbers fit a signed word, and the length of the
range fits two. -/
theorem range_counted_in_order {settings : Settings} {naming : Naming} {now : Timestamp}
    {moments : List Snapshot.Moment} {state : Snapshot} {id : String} {situation : Situation}
    {run : Run} (history : History (.new settings naming now) moments state)
    (found : state.situation? id = some situation) (isRun : situation.run? = some run) :
    (∃ task records, run.Recorded (Stage.movesOf (stagesOf id moments)) task records) ∧
    (∀ task records, run.Recorded (Stage.movesOf (stagesOf id moments)) task records →
      ∀ loop role within ended?, (Record.executed loop role within ended?).Among records →
        loop.kind = .forEach → loop.parallel = false →
          ∃ inner, state.Stands id run.program loop role within ended? inner ∧
            (Program.Unbounded loop within inner ∨
              ∃ counter start finish turns, loop.counterVariable = some counter ∧
                run.program.TakesBetween loop start finish turns within ∧
                  run.program.RangeStands loop counter start finish turns inner ∧
                    run.program.RangeCounts loop start finish turns within inner)) ∧
    (∀ next path value,
      Snapshot.Step state (.done id (.moved (.performed (.write path value) (.ok ())))) next →
        ∀ place loop role before nextRun,
          run.Performs (Stage.movesOf (stagesOf id moments)) place (.execution loop role) before
            (.write path value) (.ok ()) nextRun →
          loop.kind = .forEach → loop.parallel = false →
            ∃ start finish runs nextSituation, loop.counterVariable = some path ∧
              run.program.TakesBetween loop start finish (Program.iterations start runs ++ [.checked false])
                before ∧
                value = .integer (start + runs.length) ∧ next.situation? id = some nextSituation ∧
                  nextSituation.subject.bag.get? path = some (.integer (start + runs.length))) ∧
    ∀ next halting, Snapshot.Step state (.done id (.moved (.performed .checkHalting halting))) next →
      (halting = true ↔ situation.subject.status = .suspended ∨ situation.subject.status = .terminated) := by
  refine ⟨(history.life found).hasRecord run isRun, ?_, ?_, ?_⟩
  · intro task records recorded loop role within ended? among isLoop sequential
    obtain ⟨inner, stands⟩ := history.exists_stands found isRun recorded among
    have follows := stands.follows
    rw [Program.body, isLoop] at follows
    refine ⟨inner, stands, (Program.exists_rangeStands sequential follows).imp_right ?_⟩
    rintro ⟨counter, start, finish, turns, isCounter, takes, rangeStands⟩
    exact ⟨counter, start, finish, turns, isCounter, takes, rangeStands, rangeStands.counts takes⟩
  · intro next path value transition place loop role before nextRun performs isLoop sequential
    obtain ⟨_, _, _, does⟩ := performs.does
    obtain ⟨inner, follows, _⟩ := Thread.Follows.exists_of_unfolds does
    rw [Program.body, isLoop] at follows
    obtain ⟨start, finish, runs, isCounter, takes, rfl⟩ := Program.exists_range_of_write sequential follows
    obtain ⟨nextSituation, isNext, happened⟩ := history.exists_step found transition
    obtain ⟨⟨written, left⟩, _⟩ := (history.life found).performs happened
    refine ⟨start, finish, runs, nextSituation, isCounter, takes, rfl, isNext, ?_⟩
    rw [← left]
    exact Instance.get?_of_write written
  · intro next halting transition
    obtain ⟨_, _, happened⟩ := history.exists_step found transition
    obtain ⟨⟨replied, _⟩, _⟩ := (history.life found).performs happened
    have isReply : situation.subject.status.isHalting = halting := replied
    rw [← isReply]
    exact InstanceStatus.isHalting_iff

namespace CountingToTwo

/-- Counts from one to two. -/
def loop : Activity :=
  { id := "main", kind := .forEach, counterVariable := some "i", startValue := some (.fixed 1),
    endValue := some (.expression "2"), children := ["reset"] }

/-- What it writes to the counter. -/
def copies : List Copy := [⟨.literal (.integer 7), "i"⟩]

/-- Meddles with the counter. -/
def reset : Activity := { id := "reset", kind := .assign, copies }

def definition : Definition := .ofActivities "p" "P" "main" [loop, reset]

/-- The program of the process. -/
def program : Program := ⟨definition, .default, ⟨0, 0⟩⟩

/-- What is done of the body in each run. -/
def ran : List Record :=
  [.performed .checkHalting false,
    .executed reset .part [.performed (.assign copies) (.ok ())] (some (.ok .completed))]

/-- What the loop does. -/
def within : List Record :=
  .performed (.measure "2") (.ok 2) ::
    (.performed .checkHalting false :: .performed (.write "i" (.integer 1)) (.ok ()) :: ran ++
      .performed .checkHalting false :: .performed (.write "i" (.integer 2)) (.ok ()) :: ran)

/-- The records of a loop that nothing gets in the way of. -/
inductive IsSmooth : Record → Prop where
  | measured : IsSmooth (.performed (.measure "2") (.ok 2))
  | unhalted : IsSmooth (.performed .checkHalting false)
  | counted {index : Value} : IsSmooth (.performed (.write "i" index) (.ok ()))
  | completed {records : List Record} : IsSmooth (.executed reset .part records (some (.ok .completed)))

/-- All that the loop records is smooth. -/
theorem isSmooth_of_mem : ∀ record ∈ within, IsSmooth record := by
  simp [within, ran, IsSmooth.measured, IsSmooth.unhalted, IsSmooth.counted, IsSmooth.completed]

/-- Nothing gets in the way of the loop. -/
theorem unhindered {turns : List Turn} (takes : program.TakesBetween loop 1 2 turns within) :
    Turn.Unhindered turns where
  unhalted := by
    intro present
    cases isSmooth_of_mem _ (takes.mem present List.mem_cons_self)
  written := by
    intro index error present
    cases isSmooth_of_mem _ (takes.mem present List.mem_cons_self)
  completed := by
    intro records result present
    have smooth {record : Record} (isRecord : record ∈ records) : IsSmooth record :=
      isSmooth_of_mem record (takes.mem present isRecord)
    cases takes.runs present with
    | @act _ _ halting _ _ continues =>
        cases halting with
        | true => cases smooth List.mem_cons_self
        | false =>
            change Task.Unfolds program ((Task.call reset .part .done).whenCompleted .completed) _ _
              at continues
            cases continues with
            | call ended rest =>
                cases smooth (List.mem_cons_of_mem _ List.mem_cons_self)
                exact rest.of_ended.2

/-- The loop has a range. -/
theorem bounded (inner : Thread) : ¬ Program.Unbounded loop within inner := by
  generalize isWithin : within = records
  rintro (⟨missing, -⟩ | ⟨-, lacks⟩ | ⟨-, starts, lacks⟩)
  · cases missing
  · cases lacks with
    | undeclared missing => cases missing
    | measuring isText => cases isText
    | unmeasured isText => cases isText
  · cases starts
    cases lacks with
    | undeclared missing => cases missing
    | measuring => cases isWithin
    | unmeasured => cases isWithin

/-- It has the range that it is to have. -/
theorem known {start finish : Int} {turns : List Turn}
    (takes : program.TakesBetween loop start finish turns within) : start = 1 ∧ finish = 2 := by
  generalize isWithin : within = records at takes
  obtain ⟨starts, ends, takes⟩ := takes
  cases starts
  cases ends
  cases isWithin
  exact ⟨rfl, rfl⟩

/-- The loop completes. -/
theorem kept (events : Array Event) : ∃ nextScene thread,
    Thread.Kept program ⟨.new "i-1" "p" [] "oracle", events⟩ (program.run loop) nextScene thread
        [.executed loop .part within (some (.ok .completed))] ∧
      thread.Follows program (program.run loop) [.executed loop .part within (some (.ok .completed))] := by
  have kept := @Thread.Kept.refl program ⟨.new "i-1" "p" [] "oracle", events⟩ (program.run loop)
  have kept := @Thread.Kept.enter _ _ _ _ _ [] _ _ _ _ kept
  have kept := @Thread.Kept.act_of_reply _ _ _ _ _ [_] _ (.measure "2") _ (.ok 2) kept rfl
  have kept := @Thread.Kept.act_of_reply _ _ _ _ _ [_] _ .checkHalting _ false kept rfl
  have kept := @Thread.Kept.act_of_reply _ _ _ _ _ [_] _ (.write "i" (.integer 1)) _ (.ok ()) kept rfl
  have kept := @Thread.Kept.act_of_reply _ _ _ _ _ [_] _ .checkHalting _ false kept rfl
  have kept := @Thread.Kept.enter _ _ _ _ _ [_] _ _ _ _ kept
  have kept := @Thread.Kept.act_of_reply _ _ _ _ _ [_, _] _ (.assign copies) _ (.ok ()) kept rfl
  have kept := @Thread.Kept.leave _ _ _ _ _ [_] _ _ _ _ _ _ kept
  have kept := @Thread.Kept.act_of_reply _ _ _ _ _ [_] _ .checkHalting _ false kept rfl
  have kept := @Thread.Kept.act_of_reply _ _ _ _ _ [_] _ (.write "i" (.integer 2)) _ (.ok ()) kept rfl
  have kept := @Thread.Kept.act_of_reply _ _ _ _ _ [_] _ .checkHalting _ false kept rfl
  have kept := @Thread.Kept.enter _ _ _ _ _ [_] _ _ _ _ kept
  have kept := @Thread.Kept.act_of_reply _ _ _ _ _ [_, _] _ (.assign copies) _ (.ok ()) kept rfl
  have kept := @Thread.Kept.leave _ _ _ _ _ [_] _ _ _ _ _ _ kept
  have kept := @Thread.Kept.leave _ _ _ _ _ [] _ _ _ _ _ _ kept
  have bodyDone : (program.body reset).Unfolds program [.performed (.assign copies) (.ok ())]
      (some (.ok .completed)) := .act .done
  have loopDone : (program.body loop).Unfolds program within (some (.ok .completed)) :=
    .act (.act (.act (.act (.call bodyDone (.act (.act (.act (.call bodyDone .done))))))))
  exact ⟨_, _, kept, .call loopDone .ready⟩

end CountingToTwo

open CountingToTwo in
/-- A loop that counts from one to two has had two runs when it has completed, although each of them overwrites the
counter. -/
theorem exists_range_counted : ∃ moments state situation run task records turns,
    History (.new .default (.numbered "i-") ⟨0, 0⟩) moments state ∧
      state.situation? "i-1" = some situation ∧ situation.run? = some run ∧
        run.Recorded (Stage.movesOf (stagesOf "i-1" moments)) task records ∧
          (Record.executed loop .part within (some (.ok .completed))).Among records ∧
            run.program.TakesBetween loop 1 2 turns within ∧ (Turn.runs turns : Int) = 2 := by
  obtain ⟨moments, state, situation, thread, history, found, isRun, recorded⟩ :=
    @History.exists_recorded program loop _ (.numbered "i-") "oracle" rfl rfl kept
  have among : (Record.executed loop .part within (some (.ok .completed))).Among
      [.executed loop .part within (some (.ok .completed))] := .here List.mem_cons_self
  obtain ⟨inner, stands, unbounded | ⟨_, start, finish, turns, _, takes, _, counts⟩⟩ :=
    (range_counted_in_order history found isRun).2.1 _ _ recorded loop .part within _ among rfl rfl
  · exact absurd unbounded (bounded inner)
  · obtain ⟨rfl, rfl⟩ := known takes
    have fits : (2 - 1 + 1 : Int) ≤ program.settings.maxLoopIterations := by decide
    obtain ⟨_, isTwo⟩ := counts.ends (unhindered takes) _ stands.known fits
    exact ⟨moments, _, _, _, _, _, turns, history, found, isRun, recorded, among, takes, isTwo⟩

namespace CutShortRange

/-- Counts from one to three. -/
def loop : Activity :=
  { id := "loop", kind := .forEach, counterVariable := some "i", startValue := some (.fixed 1),
    endValue := some (.fixed 3), children := ["pause"] }

/-- Waits a little. -/
def pause : Activity := { id := "pause", kind := .wait, duration := some (.milliseconds 10) }

/-- Terminates the instance. -/
def leave : Activity := { id := "leave", kind := .exit }

/-- Runs both side by side. -/
def main : Activity := { id := "main", kind := .flow, children := ["loop", "leave"] }

def definition : Definition := .ofActivities "p" "P" "main" [main, loop, pause, leave]

/-- The program of the process. -/
def program : Program := ⟨definition, .default, ⟨0, 0⟩⟩

/-- What was done in the two branches. -/
def records (first second : List Record) : List Record :=
  [.executed main .part [.branched [(first, none), (second, none)]] none]

/-- What is done of the body in a run. -/
def ran : List Record :=
  [.performed .checkHalting false,
    .executed pause .part [.performed (.announce (.waiting "pause" 10)) ()] (some (.ok .completed))]

/-- What the loop does. -/
def within : List Record :=
  .performed .checkHalting false :: .performed (.write "i" (.integer 1)) (.ok ()) :: ran ++
    [.performed .checkHalting true]

/-- What is left to do when the branches have ended. -/
def join (results : List Result) : Task := .done (Result.merge results)

section Branches

variable {start scene nextScene : Scene} {task : Task} {calls : List Call} {first second later : List Record}
  {counts leaves nextThread : Thread} {move : Move} {path : List (List Record)}

/-- The branch that counts moves. -/
theorem kept_first
    (kept : Thread.Kept program start task scene (.joined calls [counts, leaves] join) (records first second))
    (moved : Thread.Step program scene counts move nextScene nextThread)
    (grows : Record.Grows path first move later) :
    Thread.Kept program start task nextScene (.joined calls [nextThread, leaves] join)
      (records later second) :=
  kept.step (@Thread.Step.branch _ _ _ _ _ _ 0 _ _ _ rfl moved)
    (@Record.Grows.inside _ [] _ _ _ _ _ (@Record.Grows.aside _ [] _ _ _ _ 0 none rfl grows))

/-- The branch that terminates the instance moves. -/
theorem kept_second
    (kept : Thread.Kept program start task scene (.joined calls [counts, leaves] join) (records first second))
    (moved : Thread.Step program scene leaves move nextScene nextThread)
    (grows : Record.Grows path second move later) :
    Thread.Kept program start task nextScene (.joined calls [counts, nextThread] join)
      (records first later) :=
  kept.step (@Thread.Step.branch _ _ _ _ _ _ 1 _ _ _ rfl moved)
    (@Record.Grows.inside _ [] _ _ _ _ _ (@Record.Grows.aside _ [] _ _ _ _ 1 none rfl grows))

end Branches

/-- What was done in the two branches when the instance was terminated and the loop has ended. -/
def branched : List Record :=
  records [.executed loop .part within (some (.ok .halted))]
    [.executed leave .part [.performed (.exit "leave") ()] none]

/-- A wait completes. -/
theorem paused : (program.body pause).Unfolds program [.performed (.announce (.waiting "pause" 10)) ()]
    (some (.ok .completed)) :=
  .act (.wait .done)

/-- A run of the body completes. -/
theorem runs : (program.runSequence loop.children).Unfolds program ran (some (.ok .completed)) :=
  .act (.call paused .done)

/-- The loop has taken one run. -/
theorem takes : program.TakesBetween loop 1 3
    [.checked false, .counted 1 (.ok ()), .ran ran (some (.ok .completed)), .checked true] within :=
  have ended : program.Takes loop [.checked true] [.performed .checkHalting true] :=
    Program.takes_singleton (.checked true) nofun
  @Program.TakesBetween.measured _ _ _ _ _ [] [] _ .fixed .fixed
    (((ended.run runs).cons (.counted 1 (.ok ())) nofun).cons (.checked false) nofun)

/-- Where the two branches stand by then, that is where the process does. -/
theorem follows (next : Result → Task) :
    (Thread.joined [⟨main, .part, next⟩] [.ready [] .halted, .ready [⟨leave, .part, .done⟩] .halted]
      join).Follows program (.call main .part next) branched := by
  have counts : (Thread.ready [] .halted).Follows program (.call loop .part .done)
      [.executed loop .part within (some (.ok .halted))] :=
    .call (.act (.act (.act (.call paused (.act .done)))) :
      (program.body loop).Unfolds program within (some (.ok .halted))) .ready
  have leaves : (Thread.ready [⟨leave, .part, .done⟩] .halted).Follows program (.call leave .part .done)
      [.executed leave .part [.performed (.exit "leave") ()] none] :=
    .inside (.act .ready) (@Thread.Under.ready _ [] _)
  refine .inside (.aside rfl ?_ rfl) (@Thread.Under.joined _ [] _ _)
  intro index branch side thread isBranch isSide isThread
  match index with
  | 0 =>
      cases isBranch
      cases isSide
      cases isThread
      exact counts
  | 1 =>
      cases isBranch
      cases isSide
      cases isThread
      exact leaves
  | _ + 2 => cases isSide

/-- The instance is terminated while the body of the loop runs for the first time. -/
theorem kept (events : Array Event) : ∃ nextScene thread,
    Thread.Kept program ⟨.new "i-1" "p" [] "oracle", events⟩ (program.run main) nextScene thread branched ∧
      thread.Follows program (program.run main) branched := by
  have inLoop {path : List (List Record)} {current later : List Record} {move : Move}
      (grows : Record.Grows path current move later) := grows.within [⟨[], loop, .part⟩]
  have kept := @Thread.Kept.refl program ⟨.new "i-1" "p" [] "oracle", events⟩ (program.run main)
  have kept := @Thread.Kept.enter _ _ _ _ _ [] _ _ _ _ kept
  have kept := kept.step .fork (@Record.Grows.inside _ [] _ _ _ _ _ (@Record.Grows.forked [] 2))
  have kept := kept_first kept (@Thread.Step.enter _ _ _ ⟨loop, .part, .done⟩) (@Record.Grows.entered [] _)
  have kept := kept_first kept (@Thread.Step.act_of_reply _ _ _ .checkHalting _ false rfl)
    (inLoop (@Record.Grows.performed [] _ _))
  have kept := kept_first kept (@Thread.Step.act_of_reply _ _ _ (.write "i" (.integer 1)) _ (.ok ()) rfl)
    (inLoop (@Record.Grows.performed [_] _ _))
  have kept := kept_first kept (@Thread.Step.act_of_reply _ _ _ .checkHalting _ false rfl)
    (inLoop (@Record.Grows.performed [_, _] _ _))
  have kept := kept_first kept (@Thread.Step.enter _ _ _ ⟨pause, .part, _⟩)
    (inLoop (@Record.Grows.entered [_, _, _] _))
  have kept := kept_first kept (@Thread.Step.act_of_reply _ _ _ (.announce (.waiting "pause" 10)) _ () rfl)
    (inLoop (@Record.Grows.inside _ [_, _, _] _ _ _ _ _ (@Record.Grows.performed [] _ _)))
  have kept := kept_first kept (@Thread.Step.rest _ _ _ _ _ 10) .silent
  -- The other branch terminates the instance while this one sleeps.
  have kept := kept_second kept (@Thread.Step.enter _ _ _ ⟨leave, .part, .done⟩) (@Record.Grows.entered [] _)
  have kept := kept_second kept .act (@Record.Grows.inside _ [] _ _ _ _ _ (@Record.Grows.performed [] _ _))
  have kept := kept_first kept .wake .silent
  have kept := kept_first kept .leave (inLoop (@Record.Grows.left [_, _, _] _ _ _))
  have kept := kept_first kept (@Thread.Step.act_of_reply _ _ _ .checkHalting _ true rfl)
    (inLoop (@Record.Grows.performed [_, _, _, _] _ _))
  have kept := kept_first kept .leave (@Record.Grows.left [] within ⟨loop, .part, .done⟩ (.ok .halted))
  exact ⟨_, _, kept, follows _⟩

end CutShortRange

open CutShortRange in
/-- A loop that is to count from one to three has ended after one run when the instance was terminated during that
one, with no write of its counter refused and no run of its body failed or halted. -/
theorem exists_range_cut_short : ∃ moments state situation run task records turns,
    History (.new .default (.numbered "i-") ⟨0, 0⟩) moments state ∧
      state.situation? "i-1" = some situation ∧ situation.run? = some run ∧
        run.Recorded (Stage.movesOf (stagesOf "i-1" moments)) task records ∧
          (Record.executed loop .part within (some (.ok .halted))).Among records ∧
            run.program.TakesBetween loop 1 3 turns within ∧
              (3 - 1 + 1 : Int) ≤ run.program.settings.maxLoopIterations ∧
                (∀ index error, .counted index (.error error) ∉ turns) ∧
                  (∀ records result, .ran records (some result) ∈ turns → result = .ok .completed) ∧
                    Turn.runs turns = 1 ∧ (Turn.runs turns : Int) ≠ max 0 (3 - 1 + 1) := by
  obtain ⟨moments, state, situation, thread, history, found, isRun, recorded⟩ :=
    @History.exists_recorded program main _ (.numbered "i-") "oracle" rfl rfl kept
  have among : (Record.executed loop .part within (some (.ok .halted))).Among branched :=
    .inside List.mem_cons_self (.aside List.mem_cons_self List.mem_cons_self (.here List.mem_cons_self))
  have fits : (3 - 1 + 1 : Int) ≤ program.settings.maxLoopIterations := by decide
  exact ⟨moments, _, _, _, _, _, _, history, found, isRun, recorded, among, takes, fits, by simp, by simp,
    rfl, by decide⟩

end Orchestration
