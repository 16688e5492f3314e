import Mathlib.Data.Fintype.Card
import Mathlib.Data.Fintype.EquivFin
import Mathlib.Data.Fintype.Sets
import Orchestration.Proofs.Programs
import Orchestration.Proofs.Threads

/-!
# Nested handlers

How deep the handlers that undo scopes stand inside of each other, and that this is all that can keep a
thread going. Where references are acyclic, a thread whose nesting stays within a bound moves finitely
often: a call either goes down along a reference or uses up one of the handlers that the bound leaves.
-/

namespace Orchestration

/-- How many handlers a call adds to those that it stands in. -/
def Role.nesting : Role → Nat
  | .part => 0
  | .undoing _ => 1

/-- How many handlers stand in one another among calls. -/
def Call.nesting : List Call → Nat
  | [] => 0
  | call :: calls => call.role.nesting + Call.nesting calls

/-- No handler stands in nothing. -/
@[simp]
theorem Call.nesting_nil : Call.nesting [] = 0 := rfl

/-- A call adds the handlers of its own role. -/
@[simp]
theorem Call.nesting_cons (call : Call) (calls : List Call) :
    Call.nesting (call :: calls) = call.role.nesting + Call.nesting calls := rfl

/-- The handlers of calls add up. -/
@[simp]
theorem Call.nesting_append (first second : List Call) :
    Call.nesting (first ++ second) = Call.nesting first + Call.nesting second := by
  induction first with
  | nil => simp
  | cons call calls inductionHypothesis =>
      rw [List.cons_append, nesting_cons, nesting_cons, inductionHypothesis, Nat.add_assoc]

namespace Definition

/-- That the activity under one id has another id in a reference. -/
def Refers (definition : Definition) (source target : String) : Prop :=
  ∃ activity, definition.activity? source = some activity ∧ activity.Mentions target

/-- That no activity refers to itself, through others or directly. -/
def Acyclic (definition : Definition) : Prop :=
  ∀ id, ¬ Relation.TransGen definition.Refers id id

/-- The ids of the activities of a definition. -/
abbrev KnownId (definition : Definition) : Type :=
  { id : String // id ∈ definition.activities.map Activity.id }

/-- Only activities of the definition refer to anything. -/
theorem Refers.known {definition : Definition} {source target : String}
    (refers : definition.Refers source target) :
    source ∈ definition.activities.map Activity.id := by
  obtain ⟨activity, found, _⟩ := refers
  have present := List.mem_of_find?_eq_some found
  exact List.mem_map.mpr ⟨activity, present, id_of_activity? found⟩

/-- There are finitely many activities, so references that never come back come to an end. -/
theorem Acyclic.wellFounded {definition : Definition} (acyclic : definition.Acyclic) :
    WellFounded fun target source => definition.Refers source target := by
  have : IsTrans definition.KnownId fun target source =>
      Relation.TransGen definition.Refers source.1 target.1 :=
    ⟨fun _ _ _ lower upper => upper.trans lower⟩
  have : Std.Irrefl fun target source : definition.KnownId =>
      Relation.TransGen definition.Refers source.1 target.1 := ⟨fun id => acyclic id.1⟩
  have below := Finite.wellFounded_of_trans_of_irrefl fun target source : definition.KnownId =>
    Relation.TransGen definition.Refers source.1 target.1
  have accessible (source : definition.KnownId) :
      Acc (fun target source => definition.Refers source target) source.1 := by
    induction source using below.induction with
    | _ source inductionHypothesis =>
        refine Acc.intro _ fun target refers => ?_
        -- A target that is no activity of the definition refers to nothing.
        by_cases known : target ∈ definition.activities.map Activity.id
        · exact inductionHypothesis ⟨target, known⟩ (.single refers)
        · exact Acc.intro _ fun _ further => absurd further.known known
  refine ⟨fun source => Acc.intro _ fun target refers => ?_⟩
  exact (accessible ⟨source, refers.known⟩).inv refers

end Definition

namespace Thread

/-- That nowhere in a thread more than so many handlers stand in one another. -/
inductive NestsAtMost : Nat → Thread → Prop where
  | ready {bound : Nat} {calls : List Call} {task : Task} (within : Call.nesting calls ≤ bound) :
      NestsAtMost bound (.ready calls task)
  | asleep {bound : Nat} {calls : List Call} {wake : Nat} {task : Task}
      (within : Call.nesting calls ≤ bound) : NestsAtMost bound (.asleep calls wake task)
  | joined {bound : Nat} {calls : List Call} {branches : List Thread} {join : List Result → Task}
      (within : Call.nesting calls ≤ bound)
      (branchesNest : ∀ branch ∈ branches, NestsAtMost (bound - Call.nesting calls) branch) :
      NestsAtMost bound (.joined calls branches join)
  | ended {bound : Nat} {result : Result} : NestsAtMost bound (.ended result)

/-- A larger bound holds as well. -/
theorem NestsAtMost.mono {thread : Thread} {bound larger : Nat} (nests : thread.NestsAtMost bound)
    (smaller : bound ≤ larger) : thread.NestsAtMost larger := by
  induction nests generalizing larger with
  | ready within => exact .ready (within.trans smaller)
  | asleep within => exact .asleep (within.trans smaller)
  | joined within _ inductionHypothesis =>
      exact .joined (within.trans smaller) fun branch present =>
        inductionHypothesis branch present (Nat.sub_le_sub_right smaller _)
  | ended => exact .ended

/-- Every thread is within some bound. -/
theorem exists_nestsAtMost (thread : Thread) : ∃ bound, thread.NestsAtMost bound := by
  induction thread using Thread.rec (motive_2 := fun branches =>
      ∃ bound, ∀ branch ∈ branches, branch.NestsAtMost bound) with
  | ready calls task => exact ⟨_, .ready (Nat.le_refl _)⟩
  | asleep calls wake task => exact ⟨_, .asleep (Nat.le_refl _)⟩
  | joined calls branches join inductionHypothesis =>
      obtain ⟨bound, within⟩ := inductionHypothesis
      refine ⟨Call.nesting calls + bound, .joined (Nat.le_add_right _ _) fun branch present => ?_⟩
      rw [Nat.add_sub_cancel_left]
      exact within branch present
  | ended result => exact ⟨0, .ended⟩
  | nil => exact ⟨0, by simp⟩
  | cons branch branches branchHypothesis inductionHypothesis =>
      obtain ⟨first, firstWithin⟩ := branchHypothesis
      obtain ⟨rest, restWithin⟩ := inductionHypothesis
      refine ⟨max first rest, fun other present => ?_⟩
      rcases List.mem_cons.mp present with rfl | inRest
      · exact firstWithin.mono (Nat.le_max_left _ _)
      · exact (restWithin other inRest).mono (Nat.le_max_right _ _)

/-- That one thread comes of another by a move on some scene and is within a bound. -/
def Descends (program : Program) (bound : Nat) (nextThread thread : Thread) : Prop :=
  nextThread.NestsAtMost bound ∧
    ∃ scene move nextScene, Step program scene thread move nextScene nextThread

/-- That one list comes of another by replacing one of its elements. -/
def ReplacesOne {α : Type} (relation : α → α → Prop) (next list : List α) : Prop :=
  ∃ index element replacement, list[index]? = some element ∧ relation replacement element ∧
    next = list.set index replacement

/-- An element that cannot be replaced for ever, before a list of such elements, makes one. -/
theorem acc_cons {α : Type} {relation : α → α → Prop} {element : α} {list : List α}
    (accessible : Acc relation element) (accessibleRest : Acc (ReplacesOne relation) list) :
    Acc (ReplacesOne relation) (element :: list) := by
  induction accessible generalizing list with
  | intro element accessible elementHypothesis =>
      induction accessibleRest with
      | intro list accessibleRest listHypothesis =>
          refine Acc.intro _ fun next replaced => ?_
          obtain ⟨index, old, replacement, present, related, rfl⟩ := replaced
          cases index with
          | zero =>
              have isFirst : element = old := by simpa using present
              subst isFirst
              exact elementHypothesis replacement related (Acc.intro _ accessibleRest)
          | succ index =>
              have inRest : list[index]? = some old := by simpa using present
              exact listHypothesis _ ⟨index, old, replacement, inRest, related, rfl⟩

/-- If no element can be replaced for ever, neither can those of a list in turn. -/
theorem acc_list {α : Type} {relation : α → α → Prop} {list : List α}
    (accessible : ∀ element ∈ list, Acc relation element) : Acc (ReplacesOne relation) list := by
  induction list with
  | nil =>
      refine Acc.intro _ fun next replaced => ?_
      obtain ⟨index, old, replacement, present, _⟩ := replaced
      simp at present
  | cons element list inductionHypothesis =>
      exact acc_cons (accessible element (by simp))
        (inductionHypothesis fun other present => accessible other (by simp [present]))

variable {program : Program} {bound : Nat}

/-- Branches that cannot move for ever give way to what follows them. -/
theorem acc_joined {branches : List Thread} {join : List Result → Task}
    (accessible : Acc (ReplacesOne (Descends program bound)) branches)
    (joins : ∀ results, Acc (Descends program bound) (.ready [] (join results))) :
    Acc (Descends program bound) (.joined [] branches join) := by
  induction accessible with
  | intro branches _ inductionHypothesis =>
      refine Acc.intro _ fun next descends => ?_
      obtain ⟨nests, scene, move, nextScene, moved⟩ := descends
      cases moved with
      | branch present branchMoved =>
          refine inductionHypothesis _ ⟨_, _, _, present, ⟨?_, _, _, _, branchMoved⟩, rfl⟩
          obtain ⟨inside, _⟩ := List.getElem?_eq_some_iff.mp present
          cases nests with
          | joined _ branchesNest => exact branchesNest _ (List.mem_set inside _)
      | join known => exact joins _

/-- That a second thread is what a first one is inside of one more call. -/
inductive Under (call : Call) : Thread → Thread → Prop where
  | ready {calls : List Call} {task : Task} :
      Under call (.ready calls task) (.ready (calls ++ [call]) task)
  | asleep {calls : List Call} {wake : Nat} {task : Task} :
      Under call (.asleep calls wake task) (.asleep (calls ++ [call]) wake task)
  | joined {calls : List Call} {branches : List Thread} {join : List Result → Task} :
      Under call (.joined calls branches join) (.joined (calls ++ [call]) branches join)

/-- Inside of a call there is as much less to nest in as the call takes. -/
theorem Under.nestsAtMost {call : Call} {thread outer : Thread} (under : Under call thread outer)
    (nests : outer.NestsAtMost bound) : thread.NestsAtMost (bound - call.role.nesting) := by
  cases under with
  | ready =>
      cases nests with
      | ready within =>
          refine .ready ?_
          simp only [Call.nesting_append, Call.nesting_cons, Call.nesting_nil] at within
          omega
  | asleep =>
      cases nests with
      | asleep within =>
          refine .asleep ?_
          simp only [Call.nesting_append, Call.nesting_cons, Call.nesting_nil] at within
          omega
  | @joined calls branches join =>
      cases nests with
      | joined within branchesNest =>
          simp only [Call.nesting_append, Call.nesting_cons, Call.nesting_nil] at within branchesNest
          refine .joined (by omega) fun branch present => ?_
          have same : bound - call.role.nesting - Call.nesting calls =
              bound - (Call.nesting calls + (call.role.nesting + 0)) := by omega
          rw [same]
          exact branchesNest branch present

/-- Inside of a call a thread does what it would do alone, until the call returns. -/
theorem Under.step {call : Call} {thread outer nextOuter : Thread} {scene nextScene : Scene}
    {move : Move} (under : Under call thread outer)
    (moved : Step program scene outer move nextScene nextOuter) :
    (∃ nextThread, Under call nextThread nextOuter ∧
      Step program scene thread move nextScene nextThread) ∨
      ∃ result, move = .left call result ∧ thread = .ready [] (.done result) ∧
        nextOuter = .ready [] (call.next result) := by
  cases under with
  | @ready calls task =>
      cases calls with
      | nil =>
          cases moved with
          | leave => exact .inr ⟨_, rfl, rfl, rfl⟩
          | act => exact .inl ⟨_, .ready, .act⟩
          | enter => exact .inl ⟨_, @Under.ready _ [_] _, .enter⟩
          | rest => exact .inl ⟨_, .asleep, .rest⟩
          | fork => exact .inl ⟨_, .joined, .fork⟩
      | cons innermost calls =>
          cases moved with
          | leave => exact .inl ⟨_, .ready, .leave⟩
          | act => exact .inl ⟨_, .ready, .act⟩
          | enter => exact .inl ⟨_, @Under.ready _ (_ :: _ :: _) _, .enter⟩
          | rest => exact .inl ⟨_, .asleep, .rest⟩
          | fork => exact .inl ⟨_, .joined, .fork⟩
  | asleep =>
      cases moved with
      | wake => exact .inl ⟨_, .ready, .wake⟩
  | joined =>
      cases moved with
      | branch present branchMoved => exact .inl ⟨_, .joined, .branch present branchMoved⟩
      | join known => exact .inl ⟨_, .ready, .join known⟩

/-- A thread inside of a call cannot move for ever, if it cannot alone in what the call leaves of the
bound and its caller cannot afterwards. -/
theorem acc_under {call : Call} {thread : Thread}
    (accessible : Acc (Descends program (bound - call.role.nesting)) thread)
    (returns : ∀ result, Acc (Descends program bound) (.ready [] (call.next result)))
    {outer : Thread} (under : Under call thread outer) : Acc (Descends program bound) outer := by
  induction accessible generalizing outer with
  | intro thread _ inductionHypothesis =>
      refine Acc.intro _ fun nextOuter descends => ?_
      obtain ⟨nests, scene, move, nextScene, moved⟩ := descends
      rcases under.step moved with ⟨nextThread, nextUnder, nextMoved⟩ | ⟨result, _, _, rfl⟩
      · exact inductionHypothesis nextThread
          ⟨nextUnder.nestsAtMost nests, scene, move, nextScene, nextMoved⟩ nextUnder
      · exact returns result

/-- A task that has nothing left to do ends. -/
theorem acc_done (result : Result) : Acc (Descends program bound) (.ready [] (.done result)) := by
  refine Acc.intro _ fun next descends => ?_
  obtain ⟨_, scene, move, nextScene, moved⟩ := descends
  cases moved with
  | finish =>
      refine Acc.intro _ fun after descends => ?_
      obtain ⟨_, _, _, _, moved⟩ := descends
      cases moved

/-- A task cannot move for ever within a bound if nothing that it may call can within what is left. -/
theorem acc_of_obeys {contract : Contract} {inside : Bool} {task : Task}
    (replies : ∀ action reply, contract.replies action reply)
    (returns : ∀ result, contract.returns result)
    (called : ∀ activity role, contract.calls activity role → role.nesting ≤ bound →
      Acc (Descends program (bound - role.nesting)) (.ready [] (program.body activity)))
    (obeys : task.Obeys contract inside) : Acc (Descends program bound) (.ready [] task) := by
  induction obeys with
  | done => exact acc_done _
  | check stops _ _ _ inductionHypothesis =>
      refine Acc.intro _ fun next descends => ?_
      obtain ⟨_, scene, move, nextScene, moved⟩ := descends
      cases moved with
      | act =>
          cases halting : (scene.perform .checkHalting).2 with
          | true =>
              rw [stops]
              exact acc_done _
          | false => exact inductionHypothesis (replies _ _)
  | act _ _ _ inductionHypothesis =>
      refine Acc.intro _ fun next descends => ?_
      obtain ⟨_, scene, move, nextScene, moved⟩ := descends
      cases moved with
      | act => exact inductionHypothesis _ (replies _ _)
  | @call _ activity role next allowed _ _ _ inductionHypothesis =>
      refine Acc.intro _ fun after descends => ?_
      obtain ⟨nests, scene, move, nextScene, moved⟩ := descends
      cases moved with
      | @enter _ call =>
          have fits : call.role.nesting ≤ bound := by
            cases nests with
            | ready within => simpa using within
          exact acc_under (called _ _ allowed fits)
            (fun result => inductionHypothesis result (returns result)) (@Under.ready _ [] _)
  | wait _ _ inductionHypothesis =>
      refine Acc.intro _ fun asleep descends => ?_
      obtain ⟨_, _, _, _, rested⟩ := descends
      cases rested with
      | rest =>
          refine Acc.intro _ fun ready descends => ?_
          obtain ⟨_, _, _, _, woken⟩ := descends
          cases woken with
          | wake => exact inductionHypothesis
  | fork _ _ _ _ beginsHypothesis inductionHypothesis =>
      refine Acc.intro _ fun joined descends => ?_
      obtain ⟨_, _, _, _, forked⟩ := descends
      cases forked with
      | fork =>
          refine acc_joined (acc_list fun branch present => ?_) fun results =>
            inductionHypothesis results fun result _ => returns result
          obtain ⟨task, isBranch, rfl⟩ := List.mem_map.mp present
          exact beginsHypothesis task isBranch

end Thread

end Orchestration
