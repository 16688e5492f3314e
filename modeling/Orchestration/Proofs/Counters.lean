import Orchestration.Proofs.Footprints
import Orchestration.Proofs.Recording

/-!
# Counters of parallel loops

Every iteration of a parallel loop writes the counter before it does anything else, and all of them write
the one counter. What an iteration reads there is what was written last. So it reads its own index exactly
if no other iteration has begun since it did itself.
-/

namespace Orchestration

namespace Action

/-- The paths that an action may write. -/
def targets : Action → List String
  | .write path _ => [path]
  | .assign copies => copies.map Copy.target
  | .invoke activity => activity.outputVariable.toList
  | .receive activity => activity.outputVariable.toList
  | .catchFault handler _ => handler.faultVariable.toList
  | _ => []

/-- The bags that an action reads: the one that it finds, and those that the copies of an assignment leave
to the copies behind them. -/
inductive Sees (bag : Bag) : Action → Bag → Prop where
  | found {action : Action} : Sees bag action bag
  | between {performed rest : List Copy} {left : Bag} (leaves : Copy.performAll performed bag = .ok left) :
      Sees bag (.assign (performed ++ rest)) left

end Action

/-- Writing a variable leaves other variables alone. -/
theorem Instance.find?_writeVariable {path key : String} (different : key ≠ Path.root path) (value : Value)
    (subject : Instance) :
    (subject.writeVariable path value).1.bag.find? key = subject.bag.find? key := by
  unfold writeVariable Bag.assignPath
  cases written : subject.bag.set path value with
  | error error => rfl
  | ok bag => exact Bag.find?_of_set written different

/-- Copies leave variables alone that they do not write. -/
theorem Bag.find?_assignAll {copies : List Copy} {key : String} (unwritten : key ∉ copies.map Copy.writes)
    (bag : Bag) : (Bag.assignAll copies bag).1.find? key = bag.find? key := by
  induction copies generalizing bag with
  | nil => rfl
  | cons copy copies inductionHypothesis =>
      rw [List.map_cons, List.mem_cons, not_or] at unwritten
      unfold assignAll
      cases copy.source.resolve bag with
      | error error => rfl
      | ok value =>
          cases written : bag.set copy.target value with
          | error error => simp only [assignPath, written, Except.mapError]
          | ok next =>
              simp only [assignPath, written, Except.mapError]
              rw [inductionHypothesis unwritten.2, find?_of_set written unwritten.1]

/-- An action leaves variables alone that none of its targets is about. -/
theorem Action.find?_perform {action : Action} {key : String}
    (untouched : key ∉ action.targets.map Path.root) (subject : Instance) :
    (action.perform subject).subject.bag.find? key = subject.bag.find? key := by
  cases action with
  | write path value =>
      exact Instance.find?_writeVariable (by simpa [targets] using untouched) value subject
  | assign copies =>
      refine Bag.find?_assignAll ?_ subject.bag
      simpa [targets, Copy.writes] using untouched
  | invoke activity =>
      cases isOutput : activity.outputVariable with
      | none => simp only [perform, isOutput]
      | some path =>
          simp only [perform, isOutput]
          exact Instance.find?_writeVariable (by simpa [targets, isOutput] using untouched) _ subject
  | receive activity =>
      cases isOutput : activity.outputVariable with
      | none => simp only [perform, isOutput]
      | some path =>
          simp only [perform, isOutput]
          split
          · rfl
          · exact Instance.find?_writeVariable (by simpa [targets, isOutput] using untouched) _ subject
  | catchFault handler fault =>
      cases isVariable : handler.faultVariable with
      | none => simp only [perform, FaultHandler.bind, isVariable]
      | some path =>
          simp only [perform, FaultHandler.bind, isVariable]
          cases written : subject.bag.set path fault.toValue with
          | error error => rfl
          | ok bag => exact Bag.find?_of_set written (by simpa [targets, isVariable] using untouched)
  | _ => rfl

namespace Move

/-- That a counter is given an index. -/
def Counts (counter : String) (index : Int) : Move → Prop
  | .performed (.write path (.integer written)) (reply : Except ActivityError Unit) =>
      path = counter ∧ written = index ∧ reply = .ok ()
  | _ => False

/-- That a counter is given another index. -/
def CountsElse (counter : String) (index : Int) (move : Move) : Prop :=
  ∃ other, other ≠ index ∧ move.Counts counter other

/-- That the variable of a counter is written otherwise. -/
def Meddles (counter : String) : Move → Prop
  | .performed action _ => Path.root counter ∈ action.targets.map Path.root ∧
      ∀ index, action ≠ .write counter (.integer index)
  | _ => False

/-- A write counts when it is one of the index to the counter and is not refused. -/
@[simp]
theorem counts_write_iff {counter path : String} {index written : Int} {reply : Except ActivityError Unit} :
    (Move.performed (.write path (.integer written)) reply).Counts counter index ↔
      path = counter ∧ written = index ∧ reply = .ok () := Iff.rfl

/-- Only a write of the counter gives it an index. -/
theorem Counts.performed {counter : String} {index : Int} {action : Action} {reply : action.Reply}
    (counts : (Move.performed action reply).Counts counter index) :
    action = .write counter (.integer index) := by
  unfold Counts at counts
  split at counts
  · rename_i same
    obtain ⟨rfl, rfl, _⟩ := counts
    cases same
    rfl
  · exact counts.elim

/-- Giving a counter its index is not to meddle with it. -/
theorem Counts.not_meddles {counter : String} {index : Int} {move : Move}
    (counts : move.Counts counter index) : ¬ move.Meddles counter := by
  cases move with
  | performed action reply => exact fun meddles => meddles.2 index counts.performed
  | _ => exact counts.elim

section Acts

variable {scene nextScene : Scene} {move : Move} {counter : String} {index : Int}

/-- A move that gives a counter an index leaves it there, unless the write is refused. -/
theorem Acts.get?_eq_iff_of_write {other : Int} {reply : Except ActivityError Unit}
    (acts : (Move.performed (.write counter (.integer other)) reply).Acts scene nextScene) :
    nextScene.subject.bag.get? counter = some (.integer index) ↔
      (Move.performed (.write counter (.integer other)) reply).Counts counter index ∨
        (scene.subject.bag.get? counter = some (.integer index) ∧
          ¬ (Move.performed (.write counter (.integer other)) reply).CountsElse counter index) := by
  simp only [Acts, Scene.perform, Action.perform, Instance.writeVariable, Bag.assignPath] at acts
  cases written : scene.subject.bag.set counter (.integer other) with
  | error error =>
      simp only [written, Except.mapError] at acts
      obtain ⟨rfl, rfl⟩ := Prod.mk.inj acts
      simp [CountsElse]
  | ok bag =>
      simp only [written, Except.mapError] at acts
      obtain ⟨rfl, rfl⟩ := Prod.mk.inj acts
      have same : Value.integer other = Value.integer index ↔ other = index := by
        simp [Value.integer]
      by_cases isIndex : other = index <;> simp [CountsElse, Bag.get?_of_set written, same, isIndex]

/-- A move that is no write of a counter and leaves it alone gives it no index. -/
theorem get?_eq_iff_of_same
    (same : nextScene.subject.bag.get? counter = scene.subject.bag.get? counter)
    (never : ∀ other, ¬ move.Counts counter other) :
    nextScene.subject.bag.get? counter = some (.integer index) ↔
      move.Counts counter index ∨
        (scene.subject.bag.get? counter = some (.integer index) ∧ ¬ move.CountsElse counter index) := by
  simp [same, CountsElse, never]

/-- What a counter has after a move: the index that it was given, or what it had. -/
theorem Acts.get?_eq_iff (acts : move.Acts scene nextScene) (unmeddled : ¬ move.Meddles counter) :
    nextScene.subject.bag.get? counter = some (.integer index) ↔
      move.Counts counter index ∨
        (scene.subject.bag.get? counter = some (.integer index) ∧ ¬ move.CountsElse counter index) := by
  cases move with
  | performed action reply =>
      by_cases counting : ∃ other, action = .write counter (.integer other)
      · obtain ⟨other, rfl⟩ := counting
        exact acts.get?_eq_iff_of_write
      · have untouched : Path.root counter ∉ action.targets.map Path.root := fun touched =>
          unmeddled ⟨touched, fun other isWrite => counting ⟨other, isWrite⟩⟩
        obtain rfl : nextScene = (scene.perform action).1 := (congrArg Prod.fst acts).symm
        refine get?_eq_iff_of_same ?_ fun other counts => counting ⟨other, counts.performed⟩
        rw [Bag.get?_eq, Bag.get?_eq, ← Action.find?_perform untouched scene.subject]
        rfl
  | entered call =>
      cases acts
      exact get?_eq_iff_of_same rfl nofun
  | left call result =>
      cases acts
      exact get?_eq_iff_of_same rfl nofun
  | silent =>
      cases acts
      exact get?_eq_iff_of_same rfl nofun

end Acts

end Move

namespace Situation

/-- That counters have the indexes that they were given last, unless their variables were written
otherwise since. -/
def CountsLast (moves : List Move) (situation : Situation) : Prop :=
  situation.run?.isSome → ∀ counter index,
    Since (Move.Counts counter index) (Move.Meddles counter) moves →
      (situation.subject.bag.get? counter = some (.integer index) ↔
        Since (Move.Counts counter index) (Move.CountsElse counter index) moves)

/-- Counters keep the indexes that they were given last, whatever happens. -/
theorem Step.countsLast {situation next : Situation} {deed : Deed} {moves : List Move}
    (happened : situation.Step deed next) (counts : situation.CountsLast moves) :
    next.CountsLast (deed.extend moves) := by
  cases happened with
  | suspend => exact counts
  | resume => exact counts
  | terminate => exact counts
  | compensate => exact fun _ _ _ since => absurd since Since.not_nil
  | conclude => nofun
  | @move run scene nextScene nextThread move moved =>
      intro _ counter index since
      rw [Deed.extend, Since.concat_iff] at since ⊢
      rcases since with isCount | ⟨earlier, unmeddled⟩
      · simp [moved.acts.get?_eq_iff isCount.not_meddles, isCount]
      · rw [moved.acts.get?_eq_iff unmeddled]
        have sofar : scene.subject.bag.get? counter = some (.integer index) ↔ _ :=
          counts rfl counter index earlier
        rw [sofar]

end Situation

/-- Counters have the indexes that they were given last, all along the life of an instance. -/
theorem Life.countsLast {stages : List Stage} {situation : Situation} (life : Life stages situation) :
    situation.CountsLast (Stage.movesOf stages) := by
  induction life with
  | born => exact fun _ _ _ since => absurd since Since.not_nil
  | step _ happened inductionHypothesis =>
      rw [Stage.movesOf_concat]
      exact happened.countsLast inductionHypothesis

namespace Thread

/-- That a thread is another one, or stands in one of its branches. -/
inductive IsPart (part : Thread) : Thread → Prop where
  | whole : IsPart part part
  | branch {calls : List Call} {branches : List Thread} {join : List Result → Task} {index : Nat}
      {branch : Thread} (present : branches[index]? = some branch) (inside : IsPart part branch) :
      IsPart part (.joined calls branches join)

namespace Follows

variable {program : Program} {task : Task} {records : List Record} {thread : Thread}
  {branches : List Thread} {join : List Result → Task}

/-- Branches that stand in a thread, inside of a call, stand where the task of the called activity does. -/
theorem part {call : Call} {calls : List Call} (follows : thread.Follows program task records)
    (isPart : IsPart (.joined (call :: calls) branches join) thread) :
    ∃ within, Follows program (program.body call.activity) within (.joined [] branches join) ∧
      ∀ record : Record, record.Among within → record.Among records := by
  induction follows generalizing calls with
  | ready => cases isPart
  | asleep => cases isPart
  | ended => cases isPart
  | act _ inductionHypothesis =>
      obtain ⟨within, inside, among⟩ := inductionHypothesis isPart
      exact ⟨within, inside, fun record isRecord => (among record isRecord).cons⟩
  | wait _ inductionHypothesis => exact inductionHypothesis isPart
  | @inside activity role next within inner outer begun under inductionHypothesis =>
      cases under with
      | ready => cases isPart
      | asleep => cases isPart
      | @joined innerCalls innerBranches innerJoin =>
          have within_ (record : Record) (isRecord : record.Among within) :
              record.Among [.executed activity role within none] :=
            .inside List.mem_cons_self isRecord
          generalize isOuter : Thread.joined (innerCalls ++ [⟨activity, role, next⟩]) innerBranches
            innerJoin = outer at isPart
          cases isPart with
          | whole =>
              injection isOuter with sameCalls sameBranches sameJoin
              subst sameBranches sameJoin
              cases innerCalls with
              | nil =>
                  obtain ⟨rfl, _⟩ := List.cons_eq_cons.mp sameCalls
                  exact ⟨within, begun, within_⟩
              | cons innermost others =>
                  obtain ⟨rfl, _⟩ := List.cons_eq_cons.mp sameCalls
                  obtain ⟨deeper, inside, among⟩ := inductionHypothesis .whole
                  exact ⟨deeper, inside, fun record isRecord => within_ record (among record isRecord)⟩
          | branch present inside =>
              injection isOuter with _ sameBranches _
              subst sameBranches
              obtain ⟨deeper, inside, among⟩ := inductionHypothesis (.branch present inside)
              exact ⟨deeper, inside, fun record isRecord => within_ record (among record isRecord)⟩
  | call _ _ inductionHypothesis =>
      obtain ⟨within, inside, among⟩ := inductionHypothesis isPart
      exact ⟨within, inside, fun record isRecord => (among record isRecord).cons⟩
  | @aside branches _ sides threads paired _ known inductionHypothesis =>
      cases isPart with
      | @branch _ _ _ index branch present inside =>
          obtain ⟨side, isSide, _⟩ := getElem?_of_map_eq known.symm present
          obtain ⟨inSides, _⟩ := List.getElem?_eq_some_iff.mp isSide
          have inBranches : index < branches.length := paired ▸ inSides
          have isBranch : branches[index]? = some branches[index] := List.getElem?_eq_getElem inBranches
          obtain ⟨within, begun, among⟩ := inductionHypothesis index _ side branch isBranch isSide present inside
          exact ⟨within, begun, fun record isRecord => .aside List.mem_cons_self
            (List.mem_of_getElem? isSide) (among record isRecord)⟩
  | fork _ _ _ _ inductionHypothesis =>
      obtain ⟨within, inside, among⟩ := inductionHypothesis isPart
      exact ⟨within, inside, fun record isRecord => (among record isRecord).cons⟩

/-- Branches that a loop bound comes before stand behind its value. -/
theorem measured {activity : Activity} {bound : Option LoopBound} {field : String} {next : Int → Task}
    (follows : Follows program (Program.measureBound activity bound field next) records
      (.joined [] branches join)) :
    ∃ value rest, (bound = some (.fixed value) ∨ ∃ text, bound = some (.expression text) ∧
        .performed (.measure text) (.ok value) ∈ records) ∧
      Follows program (next value) rest (.joined [] branches join) ∧ rest ⊆ records := by
  unfold Program.measureBound at follows
  split at follows
  · exact ⟨_, records, .inl rfl, follows, fun _ => id⟩
  · rename_i text
    cases follows with
    | @act _ _ reply rest _ continues =>
        change Except ActivityError Int at reply
        cases reply with
        | error error => cases continues
        | ok value =>
            exact ⟨value, rest, .inr ⟨text, rfl, List.mem_cons_self⟩, continues,
              fun _ present => List.mem_cons_of_mem _ present⟩
  · cases follows

/-- Branches of a parallel loop are its iterations: each of them writes the counter first. -/
theorem iterations {loop : Activity} {within : List Record} (isLoop : loop.kind = .forEach)
    (isParallel : loop.parallel = true)
    (follows : Follows program (program.body loop) within (.joined [] branches join)) :
    ∃ counter start, loop.counterVariable = some counter ∧
      (loop.startValue = some (.fixed start) ∨ ∃ text, loop.startValue = some (.expression text) ∧
        .performed (.measure text) (.ok start) ∈ within) ∧
      ∀ (offset : Nat) (branch : Thread), branches[offset]? = some branch →
        ∃ side, Follows program
            (Program.writeCounter counter (start + offset) (program.runFlow loop.children)) side branch ∧
          ∀ record : Record, record.Among side → record.Among within := by
  simp only [Program.body, isLoop, Program.runForEach] at follows
  split at follows
  · cases follows
  · rename_i counter isCounter
    obtain ⟨start, rest, starts, follows, fewer⟩ := follows.measured
    obtain ⟨finish, last, _, follows, fewest⟩ := follows.measured
    refine ⟨counter, start, isCounter, starts, ?_⟩
    split at follows
    · cases follows with
      | act continues => cases continues
    · simp only [Program.runIterationsInParallel] at follows
      cases follows with
      | fork _ _ _ continues => cases continues
      | @aside _ _ sides threads paired follow known =>
          intro offset branch present
          obtain ⟨side, isSide, _⟩ := getElem?_of_map_eq known.symm present
          obtain ⟨inSides, _⟩ := List.getElem?_eq_some_iff.mp isSide
          have inRange : offset < (finish - start + 1).toNat := by simpa [paired] using inSides
          refine ⟨side.1, follow offset _ side branch ?_ isSide present, fun record isRecord => ?_⟩
          · rw [List.getElem?_map, List.getElem?_range inRange, Option.map_some]
          · exact .aside (fewer (fewest List.mem_cons_self)) (List.mem_of_getElem? isSide) isRecord

/-- What an iteration does is the write of its index, or stands behind that. -/
theorem begun {counter : String} {index : Int} {next : Task} {scene after : Scene}
    {nextThread : Thread} {action : Action} {reply : action.Reply}
    (follows : Follows program (Program.writeCounter counter index next) records thread)
    (moved : Step program scene thread (.performed action reply) after nextThread) :
    action = .write counter (.integer index) ∨
      .performed (.write counter (.integer index)) (.ok ()) ∈ records := by
  cases follows with
  | ready =>
      cases moved
      exact .inl rfl
  | @act _ _ written rest _ continues =>
      change Except ActivityError Unit at written
      cases written with
      | ok => exact .inr List.mem_cons_self
      | error error => cases continues <;> cases moved

end Follows

end Thread

/-- Copies leave variables alone that they do not write. -/
theorem Copy.get?_performAll {copies : List Copy} {path : String} {bag left : Bag}
    (unwritten : Path.root path ∉ copies.map Copy.writes) (leaves : performAll copies bag = .ok left) :
    left.get? path = bag.get? path := by
  have assigned : (Bag.assignAll copies bag).1 = left :=
    congrArg Prod.fst ((assignAll_eq_ok_iff copies bag left).mpr leaves)
  rw [Bag.get?_eq, Bag.get?_eq, ← assigned, Bag.find?_assignAll unwritten]

/-- An action that does not write a counter finds the same in it wherever it reads. -/
theorem Action.Sees.get?_eq {action : Action} {reply : action.Reply} {bag seen : Bag} {counter : String}
    (sees : action.Sees bag seen) (unmeddled : ¬ (Move.performed action reply).Meddles counter) :
    seen.get? counter = bag.get? counter := by
  cases sees with
  | found => rfl
  | between leaves =>
      refine Copy.get?_performAll (fun written => unmeddled ⟨?_, nofun⟩) leaves
      simp only [targets, List.map_append, List.map_map, List.mem_append]
      exact .inl written

/-- That a run has got to the iterations of a parallel loop, which are branches under way. -/
structure Run.Iterates (run : Run) (loop : Activity) (branches : List Thread) : Prop where
  isLoop : loop.kind = .forEach
  isParallel : loop.parallel = true
  under : ∃ calls role next join,
    Thread.IsPart (.joined (⟨loop, role, next⟩ :: calls) branches join) run.thread

open Snapshot (History Steps stagesOf)

/-- The iterations of a parallel loop begin by writing their indexes to the counter, which count from the
start of the loop. Whatever an iteration does later finds its own index there exactly if, since the counter
was given that index last, it was given no other one, unless something else has written the variable. -/
theorem iteration_finds_index_iff {settings : Settings} {naming : Naming} {now : Timestamp}
    {moments : List Snapshot.Moment} {state : Snapshot} {id : String} {subject : Instance} {run : Run}
    {loop : Activity} {branches : List Thread}
    (history : History (.new settings naming now) moments state)
    (found : state.situation? id = some ⟨subject, some run⟩) (iterates : run.Iterates loop branches) :
    ∃ counter start, loop.counterVariable = some counter ∧
      (loop.startValue = some (.fixed start) ∨ ∃ text, loop.startValue = some (.expression text) ∧
        .performed (.measure text) (.ok start) ∈ Stage.movesOf (stagesOf id moments)) ∧
      ∀ (offset : Nat) (branch nextBranch : Thread) (action : Action) (reply : action.Reply)
        (scene after : Scene), branches[offset]? = some branch → scene.subject = subject →
          Thread.Step run.program scene branch (.performed action reply) after nextBranch →
            action = .write counter (.integer (start + offset)) ∨
              ((∃ move ∈ Stage.movesOf (stagesOf id moments), move.Counts counter (start + offset)) ∧
                ∀ seen, action.Sees subject.bag seen →
                  ¬ (Move.performed action reply).Meddles counter →
                    ¬ Since (Move.Meddles counter) (Move.Counts counter (start + offset))
                        (Stage.movesOf (stagesOf id moments)) →
                      (seen.get? counter = some (.integer (start + offset)) ↔
                        Since (Move.Counts counter (start + offset))
                          (Move.CountsElse counter (start + offset))
                          (Stage.movesOf (stagesOf id moments)))) := by
  have life := history.life found
  obtain ⟨task, records, recorded⟩ := life.hasRecord run rfl
  obtain ⟨calls, role, next, join, isPart⟩ := iterates.under
  obtain ⟨within, inside, among⟩ := recorded.follows.part isPart
  obtain ⟨counter, start, isCounter, starts, iterations⟩ :=
    inside.iterations iterates.isLoop iterates.isParallel
  have isMove {action : Action} {reply : action.Reply}
      (isRecord : (Record.performed action reply).Among within) :
      .performed action reply ∈ Stage.movesOf (stagesOf id moments) :=
    recorded.keeps.among_performed_iff.mp (among _ isRecord)
  refine ⟨counter, start, isCounter, ?_, ?_⟩
  · exact starts.imp_right fun ⟨text, isText, measured⟩ => ⟨text, isText, isMove (.here measured)⟩
  intro offset branch nextBranch action reply scene after present isSubject moved
  obtain ⟨side, follows, amongSide⟩ := iterations offset branch present
  refine (follows.begun moved).imp_right fun written => ?_
  have counted : ∃ move ∈ Stage.movesOf (stagesOf id moments), move.Counts counter (start + offset) :=
    ⟨_, isMove (amongSide _ (.here written)), rfl, rfl, rfl⟩
  refine ⟨counted, fun seen sees keeps unmeddled => ?_⟩
  rw [sees.get?_eq keeps]
  exact life.countsLast rfl counter (start + offset) ((Since.or_symm counted).resolve_right unmeddled)

namespace OvertakenCounter

/-- Counts from zero to one, both at once. -/
def loop : Activity :=
  { id := "main", kind := .forEach, parallel := true, counterVariable := some "i",
    startValue := some (.fixed 0), endValue := some (.fixed 1), children := ["body"] }

/-- Looks at the counter after a while. -/
def body : Activity := { id := "body", kind := .sequence, children := ["pause", "test"] }

/-- Waits a little. -/
def pause : Activity := { id := "pause", kind := .wait, duration := some (.milliseconds 10) }

/-- Is for the first iteration only. -/
def test : Activity := { id := "test", kind := .choice, condition := some "i == 0", children := ["zero"] }

/-- Does nothing. -/
def zero : Activity := { id := "zero", kind := .empty }

/-- A process whose iterations wait before they look at the counter. -/
def definition : Definition := .ofActivities "p" "P" "main" [loop, body, pause, test, zero]

/-- The program of the process. -/
def program : Program := ⟨definition, .default, ⟨0, 0⟩⟩

/-- The instance when it has just been started. -/
def scene (events : Array Event) : Scene := ⟨Instance.new "i-1" "p" [] "oracle", events⟩

/-- Both iterations have begun, and the first one is about to look at the counter. -/
theorem overtaken (events : Array Event) :
    ∃ moves next branches branch after nextBranch reply calls role join, ∃ following : Result → Task,
      Thread.Steps program (scene events) (.ofTask (program.run loop)) moves next
          (.joined (⟨loop, role, following⟩ :: calls) branches join) ∧
        (∀ move ∈ moves, ¬ move.Meddles "i") ∧ branches[0]? = some branch ∧
          Thread.Step program next branch (.performed (.test "i == 0") reply) after nextBranch ∧
            next.subject.bag.get? "i" = some (.integer 1) := by
  have first {scene next : Scene} {branches : List Thread} {thread nextThread : Thread} {move : Move}
      {calls : List Call} {join : List Result → Task} (present : branches[0]? = some thread)
      (moved : Thread.Step program scene thread move next nextThread) :=
    @Thread.Step.branch program scene next calls branches join 0 thread nextThread move present moved
  have moved := @Thread.Steps.refl program (scene events) (.ofTask (program.run loop))
  have moved := moved.step (@Thread.Step.enter _ _ _ ⟨loop, .part, _⟩)
  have moved := moved.step .fork
  have moved := moved.step (first rfl .act)
  have moved := moved.step (first rfl .fork)
  have moved := moved.step (first rfl (first rfl (@Thread.Step.enter _ _ _ ⟨body, .part, _⟩)))
  have moved := moved.step (first rfl (first rfl .act))
  have moved := moved.step (first rfl (first rfl (@Thread.Step.enter _ _ _ ⟨pause, .part, _⟩)))
  have moved := moved.step (first rfl (first rfl .act))
  have moved := moved.step (first rfl (first rfl (@Thread.Step.rest _ _ _ _ _ 10)))
  -- The second iteration begins while the first one sleeps.
  have moved := moved.step (@Thread.Step.branch _ _ _ _ _ _ 1 _ _ _ rfl .act)
  have moved := moved.step (first rfl (first rfl .wake))
  have moved := moved.step (first rfl (first rfl .leave))
  have moved := moved.step (first rfl (first rfl .act))
  have moved := moved.step (first rfl (first rfl (@Thread.Step.enter _ _ _ ⟨test, .part, _⟩)))
  refine ⟨_, _, _, _, _, _, _, _, _, _, _, moved, ?_, rfl, first rfl .act, rfl⟩
  simp [Move.Meddles, Action.targets]

/-- The run of the process. -/
def run : Run := ⟨"i-1", .execution, program, .ofTask (program.run loop)⟩

/-- The first iteration is about to look at the counter, which has the index of the second one. -/
theorem reached : ∃ moments state subject scene underWay branches branch after nextBranch reply,
    History (.new .default (.numbered "i-") ⟨0, 0⟩) moments state ∧
      state.situation? "i-1" = some ⟨subject, some underWay⟩ ∧ underWay.Iterates loop branches ∧
        branches[0]? = some branch ∧ scene.subject = subject ∧
          Thread.Step underWay.program scene branch (.performed (.test "i == 0") reply) after nextBranch ∧
            (∀ move ∈ Stage.movesOf (stagesOf "i-1" moments), ¬ move.Meddles "i") ∧
              subject.bag.get? "i" = some (.integer 1) := by
  obtain ⟨first, engine, prior, fresh, present⟩ :=
    @History.exists_started program loop (.numbered "i-") "oracle" rfl rfl
  obtain ⟨moves, next, branches, branch, after, nextBranch, reply, calls, role, join, following, moved,
    unmeddled, isBranch, looks, isOne⟩ := overtaken engine.journal
  obtain ⟨moments, history, made, found⟩ :=
    @Thread.Steps.history _ _ _ _ _ run _ _ _ _ moved prior fresh present
  refine ⟨moments, _, next.subject, next, _, branches, branch, after, nextBranch, reply, history,
    Snapshot.situation?_of_scene? found, ⟨rfl, rfl, calls, role, following, join, .whole⟩, isBranch, rfl,
    looks, ?_, isOne⟩
  exact fun move isMove => unmeddled move (made ▸ isMove)

end OvertakenCounter

/-- An iteration can find the index of another one in the counter, although nothing but the loop has
written it. -/
theorem exists_iteration_misled :
    ∃ moments state subject scene run loop branches branch after nextBranch condition reply counter,
      ∃ (start : Int) (offset : Nat), History (.new .default (.numbered "i-") ⟨0, 0⟩) moments state ∧
        state.situation? "i-1" = some ⟨subject, some run⟩ ∧ run.Iterates loop branches ∧
          loop.counterVariable = some counter ∧ loop.startValue = some (.fixed start) ∧
            branches[offset]? = some branch ∧ scene.subject = subject ∧
              Thread.Step run.program scene branch (.performed (.test condition) reply) after nextBranch ∧
                (∀ move ∈ Stage.movesOf (stagesOf "i-1" moments), ¬ move.Meddles counter) ∧
                  subject.bag.get? counter ≠ some (.integer (start + offset)) := by
  obtain ⟨moments, state, subject, scene, run, branches, branch, after, nextBranch, reply, history, found,
    iterates, present, isSubject, looks, unmeddled, isOne⟩ := OvertakenCounter.reached
  refine ⟨moments, state, subject, scene, run, OvertakenCounter.loop, branches, branch, after, nextBranch,
    "i == 0", reply, "i", 0, 0, history, found, iterates, rfl, rfl, present, isSubject, looks, unmeddled, ?_⟩
  simp [isOne, Value.integer]

/-- The iteration that was misled had begun, and another one has begun since. -/
theorem exists_iteration_overtaken :
    ∃ moments state,
      History (.new .default (.numbered "i-") ⟨0, 0⟩) moments state ∧
        (∃ move ∈ Stage.movesOf (stagesOf "i-1" moments), move.Counts "i" 0) ∧
          ¬ Since (Move.Counts "i" 0) (Move.CountsElse "i" 0)
            (Stage.movesOf (stagesOf "i-1" moments)) := by
  obtain ⟨moments, state, subject, scene, run, branches, branch, after, nextBranch, reply, history, found,
    iterates, present, isSubject, looks, unmeddled, isOne⟩ := OvertakenCounter.reached
  obtain ⟨counter, start, isCounter, isStart, iterations⟩ := iteration_finds_index_iff history found iterates
  cases isCounter
  obtain ⟨⟨⟩⟩ | ⟨text, impossible, _⟩ := isStart
  · obtain impossible | ⟨counted, finds⟩ :=
      iterations 0 branch nextBranch (.test "i == 0") reply scene after present isSubject looks
    · cases impossible
    simp only [Int.natCast_zero, Int.add_zero] at counted finds
    refine ⟨moments, state, history, counted, ?_⟩
    have keeps : ¬ (Move.performed (.test "i == 0") reply).Meddles "i" := fun meddles =>
      absurd meddles.1 (by simp [Action.targets])
    rw [← finds subject.bag .found keeps fun since => ?_, isOne]
    · simp [Value.integer]
    · obtain ⟨move, isMove, meddles⟩ := since.exists_mem
      exact unmeddled move isMove meddles
  · cases impossible

end Orchestration
