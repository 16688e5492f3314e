import Orchestration.Proofs.Counters
import Orchestration.Proofs.Inheritance
import Orchestration.Proofs.Routing
import Orchestration.Proofs.Undoing

/-!
# Flows wait for all of their branches

A flow executes its children side by side, each in a branch of its own. It executes none of them unless
all exist, and it ends only when all of them have. What it comes to depends on the order of its children
and not on the order in which they ended.

What a branch comes to changes nothing for the others: a thread of its own within the thread of the run,
it stays there until it ends, nothing but its own moves happen to it, and it can always make one.
-/

namespace Orchestration

/-! ## What is done of a flow -/

namespace Record

/-- How branches that have all ended come to one result. -/
structure Settles (sides : List (List Record × Option Result)) (result : Result) : Prop where
  ended : ∀ side ∈ sides, ∃ own, side.2 = some own
  /-- The first branch that failed, in the order of the branches, has the last word. -/
  failed_iff : ∀ error, result = .error error ↔
    ∃ earlier within later, sides = earlier ++ (within, some (.error error)) :: later ∧
      ∀ side ∈ earlier, ∀ other, side.2 ≠ some (.error other)
  halted_iff : result = .ok .halted ↔
    (∃ side ∈ sides, side.2 = some (.ok .halted)) ∧
      ∀ side ∈ sides, ∀ error, side.2 ≠ some (.error error)
  completed_iff : result = .ok .completed ↔ ∀ side ∈ sides, side.2 = some (.ok .completed)

/-- Branches that have all ended come to their results merged. -/
theorem settles {sides : List (List Record × Option Result)} {results : List Result}
    (ended : sides.map Prod.snd = results.map some) : Settles sides (Result.merge results) := by
  have known : (branched sides).result? = some (Result.merge results) :=
    result?_branched_iff.mpr ⟨results, ended, rfl⟩
  have failed_iff (error : ActivityError) := @branched_fails_iff sides _ error known
  have halted_iff := branched_halts_iff known
  refine ⟨fun side present => ?_, failed_iff, halted_iff, ?_⟩
  · obtain ⟨own, _, isOwn⟩ := exists_result_of_side ended present
    exact ⟨own, isOwn⟩
  · constructor
    · intro completed side present
      obtain ⟨own, isOwn, same⟩ := exists_result_of_side ended present
      rw [same, Result.completed_of_merge completed own isOwn]
    · intro completed
      -- Neither a failure nor a halt is the result of any branch.
      cases merged : Result.merge results with
      | error error =>
          obtain ⟨earlier, within, later, rfl, _⟩ := (failed_iff error).mp merged
          cases completed _ List.mem_append_cons_self
      | ok outcome =>
          cases outcome with
          | completed => rfl
          | halted =>
              obtain ⟨⟨side, present, halts⟩, _⟩ := halted_iff.mp merged
              cases (completed side present).symm.trans halts

/-- What has been done in the branch of a child: nothing yet, or its one execution. The branch ends with
the execution, as it did. -/
inductive Side (child : Activity) : List Record × Option Result → Prop where
  | idle : Side child ([], none)
  | underWay {within : List Record} : Side child ([.executed child .part within none], none)
  | returned {within : List Record} {own : Result} :
      Side child ([.executed child .part within (some own)], none)
  | ended {within : List Record} {own : Result} :
      Side child ([.executed child .part within (some own)], some own)

/-- A branch does no more than to execute its child. -/
theorem side_of_unfolds {program : Program} {child : Activity} {side : List Record × Option Result}
    (unfolds : (Task.call child .part .done).Unfolds program side.1 side.2) : Side child side := by
  obtain ⟨records, result?⟩ := side
  cases unfolds with
  | rest => exact .idle
  | inside => exact .underWay
  | call _ continues =>
      obtain ⟨rfl, rfl | rfl⟩ := continues.of_done
      · exact .returned
      · exact .ended

end Record

namespace Program

variable {program : Program} {children : List String} {records : List Record}
  {result? : Option Result}

/-- How far a flow is, and what it came to if it has ended. -/
inductive Flows (program : Program) (children : List String) :
    List Record → Option Result → Prop where
  /-- A child does not exist. Nothing is executed, and the first such child is the failure. -/
  | missing {before after : List String} {id : String} {result? : Option Result}
      (declared : children = before ++ id :: after)
      (resolved : ∀ earlier ∈ before, program.definition.activity? earlier ≠ none)
      (absent : program.definition.activity? id = none)
      (ends : result? = none ∨ result? = some (.error (.childNotFound id))) :
      Flows program children [] result?
  /-- All children exist, and no branch is under way yet. -/
  | unforked {branches : List Activity}
      (resolved : children.map program.definition.activity? = branches.map some) :
      Flows program children [] none
  /-- Every child has a branch of its own, and the flow ends when all branches have. -/
  | forked {branches : List Activity} {sides : List (List Record × Option Result)}
      {result? : Option Result}
      (resolved : children.map program.definition.activity? = branches.map some)
      (paired : sides.length = branches.length)
      (each : ∀ (index : Nat) (branch : Activity) (side : List Record × Option Result),
        branches[index]? = some branch → sides[index]? = some side → Record.Side branch side)
      (ends : ∀ result, result? = some result → Record.Settles sides result) :
      Flows program children [.branched sides] result?

/-- What can have been done of a flow. -/
theorem flows_of_unfolds (unfolds : (program.runFlow children).Unfolds program records result?) :
    program.Flows children records result? := by
  rw [runFlow] at unfolds
  cases found : program.lookupAll children with
  | error error =>
      rw [found] at unfolds
      obtain ⟨before, id, after, declared, resolved, absent, rfl⟩ := lookupAll_eq_error_iff.mp found
      obtain ⟨rfl, ends⟩ := unfolds.of_done
      exact .missing declared resolved absent ends
  | ok branches =>
      rw [found] at unfolds
      have resolved := lookupAll_eq_ok_iff.mp found
      have each {sides : List (List Record × Option Result)}
          (unfold : ∀ (index : Nat) (task : Task) (side : List Record × Option Result),
            (branches.map fun branch => Task.call branch .part .done)[index]? = some task →
              sides[index]? = some side → task.Unfolds program side.1 side.2) :
          ∀ (index : Nat) (branch : Activity) (side : List Record × Option Result),
            branches[index]? = some branch → sides[index]? = some side → Record.Side branch side := by
        intro index branch side isBranch isSide
        exact Record.side_of_unfolds (unfold index _ side (by simp [isBranch]) isSide)
      cases unfolds with
      | rest => exact .unforked resolved
      | aside paired unfold => exact .forked resolved (by simpa using paired) (each unfold) nofun
      | fork paired ended unfold continues =>
          obtain ⟨rfl, ends⟩ := continues.of_done
          refine .forked resolved (by simpa using paired) (each unfold) fun result isResult => ?_
          rcases ends with rfl | rfl
          · cases isResult
          · cases isResult
            exact Record.settles ended

end Program

/-! ## Threads within a thread -/

namespace Task.Unfolds

/-- What has ended leaves no execution under way. -/
theorem ended_of_among {program : Program} {task : Task} {records within : List Record}
    {activity : Activity} {role : Role} {result : Result} {ended? : Option Result}
    (unfolds : task.Unfolds program records (some result))
    (among : (Record.executed activity role within ended?).Among records) : ended? ≠ none := by
  generalize isResult : some result = result? at unfolds
  induction unfolds generalizing result with
  | rest => cases isResult
  | done => exact absurd among (Record.not_among_nil _)
  | act _ inductionHypothesis =>
      rcases Record.among_cons_iff.mp among with (impossible | impossible) | among
      · cases impossible
      · exact impossible.elim
      · exact inductionHypothesis among isResult
  | inside => cases isResult
  | call _ _ bodyHypothesis inductionHypothesis =>
      rcases Record.among_cons_iff.mp among with (same | among) | among
      · cases same
        nofun
      · exact bodyHypothesis among rfl
      · exact inductionHypothesis among isResult
  | wait _ inductionHypothesis => exact inductionHypothesis among isResult
  | aside => cases isResult
  | fork paired ended _ _ sidesHypothesis inductionHypothesis =>
      rcases Record.among_cons_iff.mp among with (impossible | ⟨side, present, among⟩) | among
      · cases impossible
      · obtain ⟨own, _, isOwn⟩ := Record.exists_result_of_side ended present
        obtain ⟨index, branch, isSide, isBranch⟩ := exists_getElem?_of_mem paired present
        exact sidesHypothesis index branch side isBranch isSide among isOwn.symm
      · exact inductionHypothesis among isResult

end Task.Unfolds

namespace Thread

/-- That nothing happens to branches but that one of them may move. -/
inductive AdvancesOne (program : Program) (branches : List Thread) : List Thread → Prop where
  | same : AdvancesOne program branches branches
  | moved {scene nextScene : Scene} {index : Nat} {branch nextBranch : Thread} {move : Move}
      (present : branches[index]? = some branch)
      (moved : Step program scene branch move nextScene nextBranch) :
      AdvancesOne program branches (branches.set index nextBranch)

/-- That a second thread is what a first one is inside of more calls. -/
inductive Inside (calls : List Call) : Thread → Thread → Prop where
  | ready {own : List Call} {task : Task} : Inside calls (.ready own task) (.ready (own ++ calls) task)
  | asleep {own : List Call} {wake : Nat} {task : Task} :
      Inside calls (.asleep own wake task) (.asleep (own ++ calls) wake task)
  | joined {own : List Call} {branches : List Thread} {join : List Result → Task} :
      Inside calls (.joined own branches join) (.joined (own ++ calls) branches join)

variable {program : Program} {scene nextScene : Scene} {move : Move} {call : Call}
  {calls : List Call} {branches : List Thread} {join : List Result → Task}
  {part nextPart inner thread outer whole nextWhole : Thread} {task : Task} {records : List Record}

/-- A part of a part is a part of the whole. -/
theorem IsPart.trans (isPart : part.IsPart thread) (further : thread.IsPart whole) :
    part.IsPart whole := by
  induction further with
  | whole => exact isPart
  | branch present _ inductionHypothesis => exact .branch present inductionHypothesis

/-- A move of a part is a move of the whole. -/
theorem IsPart.step (isPart : part.IsPart whole)
    (moved : Step program scene part move nextScene nextPart) :
    ∃ nextWhole, Step program scene whole move nextScene nextWhole ∧ nextPart.IsPart nextWhole := by
  induction isPart with
  | whole => exact ⟨nextPart, moved, .whole⟩
  | @branch calls branches join index branch present _ inductionHypothesis =>
      obtain ⟨nextBranch, branchMoved, isPart⟩ := inductionHypothesis
      obtain ⟨inRange, _⟩ := List.getElem?_eq_some_iff.mp present
      exact ⟨_, .branch present branchMoved, .branch (List.getElem?_set_self inRange) isPart⟩

/-- A thread with a part that has branches has not ended. -/
theorem IsPart.open (isPart : (joined calls branches join).IsPart whole) : whole.result? = none := by
  cases isPart <;> rfl

/-- Branches that have not all ended are not joined. -/
theorem results?_eq_none {branch : Thread} (present : branch ∈ branches)
    (going : branch.result? = none) : results? branches = none := by
  cases known : results? branches with
  | none => rfl
  | some results =>
      obtain ⟨result, rfl⟩ := ended_of_results? known branch present
      cases going

/-- Whatever move the whole makes, as long as a branch has not ended all branches stay where they are, and
one of them at most has moved. -/
theorem IsPart.of_step (isPart : (joined calls branches join).IsPart whole)
    (going : ∃ branch ∈ branches, branch.result? = none)
    (moved : Step program scene whole move nextScene nextWhole) :
    ∃ later, AdvancesOne program branches later ∧ (joined calls later join).IsPart nextWhole := by
  induction isPart generalizing nextWhole with
  | whole =>
      cases moved with
      | branch present branchMoved => exact ⟨_, .moved present branchMoved, .whole⟩
      | join known =>
          obtain ⟨branch, present, going⟩ := going
          rw [results?_eq_none present going] at known
          cases known
  | @branch _ _ _ index branch present isPart inductionHypothesis =>
      cases moved with
      | @branch _ _ _ _ other _ _ _ otherPresent otherMoved =>
          rcases same_or_getElem?_set _ otherPresent present with ⟨rfl, rfl⟩ | stays
          · obtain ⟨later, advances, isPart⟩ := inductionHypothesis otherMoved
            obtain ⟨inRange, _⟩ := List.getElem?_eq_some_iff.mp present
            exact ⟨later, advances, .branch (List.getElem?_set_self inRange) isPart⟩
          · exact ⟨_, .same, .branch stays isPart⟩
      | join known =>
          rw [results?_eq_none (List.mem_of_getElem? present) isPart.open] at known
          cases known

/-- What is inside of one more call is inside of that one. -/
theorem Under.inside (under : Under call inner outer) : Inside [call] inner outer := by
  cases under with
  | ready => exact .ready
  | asleep => exact .asleep
  | joined => exact .joined

/-- A part of what is inside of a call is a part of the whole, perhaps inside of the call as well. -/
theorem IsPart.under (inside : Inside calls inner part) (isPart : part.IsPart thread)
    (under : Under call thread outer) :
    ∃ more next, Inside (calls ++ more) inner next ∧ next.IsPart outer := by
  cases isPart with
  | whole =>
      refine ⟨[call], outer, ?_, .whole⟩
      cases inside with
      | ready =>
          cases under with
          | ready =>
              rw [List.append_assoc]
              exact .ready
      | asleep =>
          cases under with
          | asleep =>
              rw [List.append_assoc]
              exact .asleep
      | joined =>
          cases under with
          | joined =>
              rw [List.append_assoc]
              exact .joined
  | branch present isPart =>
      cases under with
      | joined => exact ⟨[], part, by rwa [List.append_nil], .branch present isPart⟩

/-- An execution that has not ended is the work of a part of the thread, inside of the call that it began
with. -/
theorem Follows.exists_part {activity : Activity} {role : Role} {within : List Record}
    (follows : thread.Follows program task records)
    (among : (Record.executed activity role within none).Among records) :
    ∃ inner next calls part, inner.Follows program (program.body activity) within ∧
      Inside (⟨activity, role, next⟩ :: calls) inner part ∧ part.IsPart thread := by
  induction follows with
  | ready => exact absurd among (Record.not_among_nil _)
  | asleep => exact absurd among (Record.not_among_nil _)
  | ended => exact absurd among (Record.not_among_nil _)
  | act _ inductionHypothesis =>
      rcases Record.among_cons_iff.mp among with (impossible | impossible) | among
      · cases impossible
      · exact impossible.elim
      · exact inductionHypothesis among
  | wait _ inductionHypothesis => exact inductionHypothesis among
  | @inside _ _ next _ inner outer begun under inductionHypothesis =>
      rcases Record.among_singleton_iff.mp among with same | among
      · cases same
        exact ⟨inner, next, [], outer, begun, under.inside, .whole⟩
      · obtain ⟨inner, next, calls, part, follows, inside, isPart⟩ := inductionHypothesis among
        obtain ⟨more, outerPart, inside, isPart⟩ := isPart.under inside under
        exact ⟨inner, next, calls ++ more, outerPart, follows, inside, isPart⟩
  | call ended _ inductionHypothesis =>
      rcases Record.among_cons_iff.mp among with (same | among) | among
      · cases same
      · exact absurd rfl (ended.ended_of_among among)
      · exact inductionHypothesis among
  | @aside branches join sides threads paired follow known inductionHypothesis =>
      rcases Record.among_singleton_iff.mp among with impossible | ⟨side, present, among⟩
      · cases impossible
      · obtain ⟨index, branch, isSide, isBranch⟩ := exists_getElem?_of_mem paired present
        obtain ⟨thread, isThread, _⟩ := getElem?_of_map_eq known isSide
        obtain ⟨inner, next, calls, part, follows, inside, isPart⟩ :=
          inductionHypothesis index branch side thread isBranch isSide isThread among
        exact ⟨inner, next, calls, part, follows, inside, .branch isThread isPart⟩
  | fork paired ended unfold _ inductionHypothesis =>
      rcases Record.among_cons_iff.mp among with (impossible | ⟨side, present, among⟩) | among
      · cases impossible
      · obtain ⟨own, _, isOwn⟩ := Record.exists_result_of_side ended present
        obtain ⟨index, branch, isSide, isBranch⟩ := exists_getElem?_of_mem paired present
        have unfolds := unfold index branch side isBranch isSide
        rw [isOwn] at unfolds
        exact absurd rfl (unfolds.ended_of_among among)
      · exact inductionHypothesis among

end Thread

namespace Program

/-- Where the execution of a flow stands that has not ended, with what has been done of it by then. The
calls are those that it is inside of, the innermost coming first. -/
inductive FlowStands (program : Program) (children : List String) (calls : List Call) :
    List Record → Thread → Prop where
  /-- It is about to fail. -/
  | missing {error : ActivityError} (failed : program.lookupAll children = .error error) :
      FlowStands program children calls [] (.ready calls (.done (.error error)))
  /-- All of its branches are about to begin. -/
  | unforked {branches : List Activity}
      (resolved : children.map program.definition.activity? = branches.map some) :
      FlowStands program children calls [] (.ready calls
        (.fork (branches.map fun branch => .call branch .part .done) fun results =>
          .done (Result.merge results)))
  /-- Its branches are under way. -/
  | forked {branches : List Activity} {sides : List (List Record × Option Result)}
      {threads : List Thread}
      (resolved : children.map program.definition.activity? = branches.map some)
      (paired : sides.length = branches.length)
      (follow : ∀ (index : Nat) (branch : Activity) (side : List Record × Option Result)
        (thread : Thread), branches[index]? = some branch → sides[index]? = some side →
          threads[index]? = some thread → thread.Follows program (.call branch .part .done) side.1)
      (known : sides.map Prod.snd = threads.map Thread.result?) :
      FlowStands program children calls [.branched sides]
        (.joined calls threads fun results => .done (Result.merge results))
  /-- It is about to end as its branches did. -/
  | joined {sides : List (List Record × Option Result)} {result : Result}
      (settles : Record.Settles sides result) :
      FlowStands program children calls [.branched sides] (.ready calls (.done result))

/-- What a thread can be that stands where a flow does, inside of the calls of the flow. -/
theorem flowStands_of_follows {program : Program} {children : List String} {calls : List Call}
    {records : List Record} {inner part : Thread}
    (follows : inner.Follows program (program.runFlow children) records)
    (inside : Thread.Inside calls inner part) : program.FlowStands children calls records part := by
  rw [runFlow] at follows
  cases found : program.lookupAll children with
  | error error =>
      rw [found] at follows
      cases follows with
      | ready =>
          cases inside with
          | ready => exact .missing found
      | ended => cases inside
  | ok branches =>
      rw [found] at follows
      have resolved := lookupAll_eq_ok_iff.mp found
      cases follows with
      | ready =>
          cases inside with
          | ready => exact .unforked resolved
      | aside paired follow known =>
          cases inside with
          | joined =>
              refine .forked resolved (by simpa using paired) ?_ known
              intro index branch side thread isBranch isSide isThread
              exact follow index _ side thread (by simp [isBranch]) isSide isThread
      | fork _ ended _ continues =>
          cases continues with
          | ready =>
              cases inside with
              | ready => exact .joined (Record.settles ended)
          | ended => cases inside

end Program

/-! ## Branches go on -/

namespace Snapshot

/-- That a thread is within the run of an instance. -/
def Hosts (state : Snapshot) (id : String) (part : Thread) : Prop :=
  ∃ situation run, state.situation? id = some situation ∧ situation.run? = some run ∧
    part.IsPart run.thread

/-- That a thread within the run of an instance goes on by itself, and so do its branches if it has any. -/
structure Sustains (state : Snapshot) (id : String) (program : Program) (thread : Thread) : Prop where
  hosts : state.Hosts id thread
  /-- Each part that has not ended can move. -/
  moves : ∀ part : Thread, part.IsPart thread → part.result? = none →
    ∃ scene move nextScene nextPart next, Thread.Step program scene part move nextScene nextPart ∧
      Step state (.done id (.moved move)) next ∧ next.Hosts id nextPart
  /-- As long as one of the branches has not ended, nothing happens to any of them but its own moves. -/
  stays : ∀ calls branches join, thread = .joined calls branches join →
    (∃ branch ∈ branches, branch.result? = none) → ∀ occurrence next, Step state occurrence next →
      ∃ later, Thread.AdvancesOne program branches later ∧ next.Hosts id (.joined calls later join)

variable {settings : Settings} {naming : Naming} {now : Timestamp} {moments : List Moment}
  {state : Snapshot} {id : String} {situation : Situation} {run : Run}

/-- What is within a run goes on by itself, whatever else happens in the engine. -/
theorem History.sustains {thread : Thread} (history : History (.new settings naming now) moments state)
    (found : state.situation? id = some situation) (isRun : situation.run? = some run)
    (isPart : thread.IsPart run.thread) : state.Sustains id run.program thread := by
  refine ⟨⟨situation, run, found, isRun, isPart⟩, ?moves, ?stays⟩
  case moves =>
    intro part further going
    rcases part.ended_or_moves run.program ⟨situation.subject, state.engine.journal⟩ with
      ⟨result, rfl⟩ | ⟨move, nextScene, nextPart, moved⟩
    · cases going
    · obtain ⟨nextThread, threadMoved, nextIsPart⟩ := (further.trans isPart).step moved
      obtain ⟨next, transition, isNext⟩ := exists_step_of_thread found isRun threadMoved
      exact ⟨_, move, nextScene, nextPart, next, moved, transition, _, _, isNext, rfl, nextIsPart⟩
  case stays =>
    rintro calls branches join rfl going occurrence next transition
    have evolves := history.evolves transition id
    rw [found] at evolves
    generalize isNext : next.situation? id = after at evolves
    cases evolves with
    | elsewhere => exact ⟨branches, .same, situation, run, isNext, isRun, isPart⟩
    | step happened =>
        cases happened with
        | suspend => exact ⟨branches, .same, _, run, isNext, isRun, isPart⟩
        | resume => exact ⟨branches, .same, _, run, isNext, isRun, isPart⟩
        | terminate => exact ⟨branches, .same, _, run, isNext, isRun, isPart⟩
        | compensate => cases isRun
        | move moved =>
            cases isRun
            obtain ⟨later, advances, isPart⟩ := isPart.of_step going moved
            exact ⟨later, advances, _, _, isNext, rfl, isPart⟩
        | conclude ended =>
            cases isRun
            have open_ := isPart.open
            rw [ended] at open_
            cases open_

end Snapshot

open Snapshot (History stagesOf)

/-- Whenever a flow is executed, however its branches behave and take turns: if a child does not exist, it
executes nothing and fails with the first such child. Else every child is executed in a branch of its own,
once and to its end by the time that the flow ends, and what the flow comes to is the failure of the first
branch that failed, or else a halt if one halted. As long as it has not ended it goes on by itself, and so
does each of its branches, whatever has become of the others. -/
theorem flow_waits_for_branches {settings : Settings} {naming : Naming} {now : Timestamp}
    {moments : List Snapshot.Moment} {state : Snapshot} {id : String} {situation : Situation}
    {run : Run} (history : History (.new settings naming now) moments state)
    (found : state.situation? id = some situation) (isRun : situation.run? = some run) :
    ∃ task records, run.Recorded (Stage.movesOf (stagesOf id moments)) task records ∧
      ∀ flow role within ended?, (Record.executed flow role within ended?).Among records →
        flow.kind = .flow →
          run.program.Flows flow.children within ended? ∧
            (ended? = none → ∃ next calls thread,
              run.program.FlowStands flow.children (⟨flow, role, next⟩ :: calls) within thread ∧
                state.Sustains id run.program thread) := by
  obtain ⟨task, records, recorded⟩ := (history.life found).hasRecord run isRun
  refine ⟨task, records, recorded, fun flow role within ended? among isFlow => ?_⟩
  have isBody : run.program.body flow = run.program.runFlow flow.children := by
    rw [Program.body, isFlow]
  constructor
  · obtain ⟨owner, level, level?, isLevel, present⟩ := among.level run.thread.result?
    have does := (isLevel.does recorded.serves recorded.unfolds).inside present
    exact Program.flows_of_unfolds (isBody ▸ does)
  · rintro rfl
    obtain ⟨inner, next, calls, part, follows, inside, isPart⟩ := recorded.follows.exists_part among
    rw [isBody] at follows
    exact ⟨next, calls, part, Program.flowStands_of_follows follows inside,
      history.sustains found isRun isPart⟩

namespace StaggeredFlow

/-- Terminates the instance. -/
def stop : Activity := { id := "stop", kind := .exit }

/-- Fails at once. -/
def fail : Activity := { id := "fail", kind := .throw }

/-- Takes its time. -/
def slow : Activity := { id := "slow", kind := .wait, duration := some (.milliseconds 10) }

/-- Runs all three side by side. -/
def main : Activity := { id := "main", kind := .flow, children := ["stop", "fail", "slow"] }

def definition : Definition := .ofActivities "p" "P" "main" [main, stop, fail, slow]

/-- The branches when one has halted, one has failed, and the third one waits. -/
def branches : List Thread :=
  [.ended (.ok .halted), .ended (.error (.raised (Program.thrownFault fail none))),
    .asleep [⟨slow, .part, .done⟩] 10 .completed]

/-- A history leads to the instance with all its branches under way. -/
theorem started : ∃ moments state situation run next,
    History (.new .default (.numbered "i-") ⟨0, 0⟩) moments state ∧
      state.situation? "i-1" = some situation ∧ situation.run? = some run ∧
        run.program.definition = definition ∧ run.purpose = .execution ∧
          run.thread = .joined [⟨main, .part, next⟩] branches
            fun results => .done (Result.merge results) := by
  have started := Engine.steps_start .default (.numbered "i-") ⟨0, 0⟩ definition "oracle" rfl rfl rfl
  obtain ⟨moments, waiting⟩ := started.trans (Engine.steps_advance 0 _ _ [] [])
  exact ⟨moments, _, _, _, _, waiting, rfl, rfl, rfl, rfl, rfl⟩

/-- What is recorded by then is that the flow is under way. -/
theorem among {moves : List Move} {run : Run} {task : Task} {records : List Record}
    {calls : List Call} {join : List Result → Task} (recorded : run.Recorded moves task records)
    (isProgram : run.program.definition = definition) (executes : run.purpose = .execution)
    (stands : run.thread = .joined calls branches join) :
    ∃ within, (Record.executed main .part within none).Among records := by
  obtain ⟨serves, _, follows⟩ := recorded
  rw [executes] at serves
  rw [stands] at follows
  cases serves with
  | execution present =>
      rw [isProgram] at present
      obtain rfl : main = _ := Option.some.inj present
      have noHandlers : run.program.definition.faultHandlers = [] := by
        rw [isProgram]
        rfl
      rw [Program.run, noHandlers] at follows
      cases follows with
      | inside => exact ⟨_, .here List.mem_cons_self⟩
      | @call _ _ _ _ _ result _ _ continues => rcases result with error | outcome <;> cases continues

/-- A flow is nothing that stands in one of the branches. -/
theorem eq_of_stands {program : Program} {calls own : List Call} {records : List Record}
    {thread : Thread} {join : List Result → Task}
    (stands : program.FlowStands main.children calls records thread)
    (isPart : thread.IsPart (.joined own branches join)) : thread = .joined own branches join := by
  cases isPart with
  | whole => rfl
  | branch present isPart =>
      have among := List.mem_of_getElem? present
      simp only [branches, List.mem_cons, List.not_mem_nil, or_false] at among
      rcases among with rfl | rfl | rfl <;> cases isPart <;> cases stands

end StaggeredFlow

open StaggeredFlow in
/-- A branch that waits can move although one before it has failed and one has halted. -/
theorem exists_flow_going_on : ∃ moments state situation run calls join move later part,
    History (.new .default (.numbered "i-") ⟨0, 0⟩) moments state ∧
      state.situation? "i-1" = some situation ∧ situation.run? = some run ∧
        run.thread = .joined calls branches join ∧
          (∃ scene nextScene, Thread.Step run.program scene
            (.asleep [⟨slow, .part, .done⟩] 10 .completed) move nextScene part) ∧
              Snapshot.Step state (.done "i-1" (.moved move)) later ∧ later.Hosts "i-1" part := by
  obtain ⟨moments, state, situation, run, next, history, found, isRun, isProgram, executes, joined⟩ :=
    started
  obtain ⟨task, records, recorded, each⟩ := flow_waits_for_branches history found isRun
  obtain ⟨within, underWay⟩ := among recorded isProgram executes joined
  obtain ⟨_, goesOn⟩ := each main .part within none underWay rfl
  obtain ⟨_, calls, thread, stands, sustains⟩ := goesOn rfl
  obtain ⟨own, ownRun, isOwn, isOwnRun, isPart⟩ := sustains.hosts
  cases found.symm.trans isOwn
  cases isRun.symm.trans isOwnRun
  rw [joined] at isPart
  obtain rfl := eq_of_stands stands isPart
  obtain ⟨scene, move, nextScene, part, later, moved, transition, hosts⟩ :=
    sustains.moves (.asleep [⟨slow, .part, .done⟩] 10 .completed)
      (@Thread.IsPart.branch _ _ _ _ 2 _ rfl .whole) rfl
  exact ⟨moments, state, situation, run, _, _, move, later, part, history, found, isRun, joined,
    ⟨scene, nextScene, moved⟩, transition, hosts⟩

end Orchestration
