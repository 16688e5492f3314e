import Orchestration.Proofs.Footprints
import Orchestration.Proofs.Recording

/-!
# What is left to be assigned

A task that has to do with assignments, waits and checkpoints only performs the same copies however long
it waits, as long as nobody halts its instance and no copy fails. Branches side by side perform the copies
of each in order, and take turns as they like. If the copies of different branches are apart, that is as
good as performing those of one branch after those of another.

`Thread.Assigns` says which copies are left, with those of branches one after another. A move performs
some of them, and these might as well have come first.
-/

namespace Orchestration

/-- That copies of different lists are apart. -/
def Copy.Separate (parts : List (List Copy)) : Prop :=
  parts.Pairwise fun first second => ∀ copy ∈ first, ∀ other ∈ second, copy.Apart other

/-- Copies that may come first in their list may come before all lists that come before it. -/
theorem Copy.Separate.pull {parts : List (List Copy)} {index : Nat} {part now later : List Copy}
    (separate : Separate parts) (present : parts[index]? = some part)
    (alike : Alike part (now ++ later)) (fewer : now ++ later ⊆ part) :
    Alike parts.flatten (now ++ (parts.set index later).flatten) ∧
      now ++ (parts.set index later).flatten ⊆ parts.flatten ∧ Separate (parts.set index later) := by
  obtain ⟨inside, rfl⟩ := List.getElem?_eq_some_iff.mp present
  obtain ⟨before, after, placed, -, changed⟩ := @List.exists_of_set _ index later _ inside
  generalize parts[index] = part at placed alike fewer
  rw [changed, placed]
  rw [placed, Separate, List.pairwise_append, List.pairwise_cons] at separate
  obtain ⟨separateBefore, ⟨beside, separateAfter⟩, across⟩ := separate
  refine ⟨?_, ?_, ?_⟩
  · -- What may come first passes what comes before, which it is apart from.
    have passes : Alike (before.flatten ++ now) (now ++ before.flatten) := by
      refine .comm fun copy isNow passed isPassed => ?_
      obtain ⟨earlier, isEarlier, isInside⟩ := List.mem_flatten.mp isPassed
      have isPart : copy ∈ part := fewer (List.mem_append_left _ isNow)
      exact (across earlier isEarlier part List.mem_cons_self passed isInside copy isPart).symm
    have first := ((Alike.refl before.flatten).append alike).append (Alike.refl after.flatten)
    have then_ := passes.append (Alike.refl (later ++ after.flatten))
    simp only [List.flatten_append, List.flatten_cons, List.append_assoc] at first then_ ⊢
    exact first.trans then_
  · intro copy isOne
    have isPart := @fewer copy
    simp only [List.mem_append, List.flatten_append, List.flatten_cons] at isOne isPart ⊢
    tauto
  · have kept : later ⊆ part := fun copy isLater => fewer (List.mem_append_right _ isLater)
    rw [Separate, List.pairwise_append, List.pairwise_cons]
    refine ⟨separateBefore, ⟨fun second isSecond copy isCopy => ?_, separateAfter⟩,
      fun first isFirst second isSecond => ?_⟩
    · exact beside second isSecond copy (kept isCopy)
    · rcases List.mem_cons.mp isSecond with rfl | isAfter
      · exact fun copy isCopy other isOther =>
          across first isFirst part List.mem_cons_self copy isCopy other (kept isOther)
      · exact across first isFirst second (List.mem_cons_of_mem _ isAfter)

namespace Contract

/-- That no checkpoint finds the instance halting, and no assignment fails. -/
def smooth : Contract where
  calls _ _ := True
  replies action reply :=
    match action, reply with
    | .checkHalting, (halting : Bool) => halting = false
    | .assign _, (reply : Except ActivityError Unit) => reply = .ok ()
    | _, _ => True
  returns _ := True

end Contract

/-- That a task performs copies in order and completes, if it goes smoothly. -/
inductive Task.Assigns (program : Program) : Task → List Copy → Prop where
  | done : Assigns program (.done (.ok .completed)) []
  | check {next : Bool → Task} {copies : List Copy} (continues : Assigns program (next false) copies) :
      Assigns program (.act .checkHalting next) copies
  | announce {event : Event} {next : Unit → Task} {copies : List Copy}
      (continues : Assigns program (next ()) copies) :
      Assigns program (.act (.announce event) next) copies
  | assign {copies rest : List Copy} {next : Except ActivityError Unit → Task}
      (continues : Assigns program (next (.ok ())) rest) :
      Assigns program (.act (.assign copies) next) (copies ++ rest)
  | call {activity : Activity} {role : Role} {next : Result → Task} {within rest : List Copy}
      (inside : Assigns program (program.body activity) within)
      (continues : Assigns program (next (.ok .completed)) rest) :
      Assigns program (.call activity role next) (within ++ rest)
  | wait {duration : Duration} {next : Task} {copies : List Copy}
      (continues : Assigns program next copies) : Assigns program (.wait duration next) copies
  | fork {branches : List Task} {join : List Result → Task} {parts : List (List Copy)}
      {rest : List Copy} (paired : parts.length = branches.length) (separate : Copy.Separate parts)
      (begins : ∀ (index : Nat) (branch : Task) (part : List Copy),
        branches[index]? = some branch → parts[index]? = some part → Assigns program branch part)
      (continues : Assigns program (join (List.replicate branches.length (.ok .completed))) rest) :
      Assigns program (.fork branches join) (parts.flatten ++ rest)

namespace Thread

/-- What is left once the innermost of some calls returns. -/
inductive Returns (program : Program) : List Call → List Copy → Prop where
  | nil : Returns program [] []
  | cons {call : Call} {calls : List Call} {next rest : List Copy}
      (continues : (call.next (.ok .completed)).Assigns program next)
      (outside : Returns program calls rest) : Returns program (call :: calls) (next ++ rest)

/-- What is left to be assigned by a thread, if it goes smoothly. -/
inductive Assigns (program : Program) : Thread → List Copy → Prop where
  | ready {calls : List Call} {task : Task} {copies rest : List Copy}
      (assigns : task.Assigns program copies) (returns : Returns program calls rest) :
      Assigns program (.ready calls task) (copies ++ rest)
  | asleep {calls : List Call} {time : Nat} {task : Task} {copies rest : List Copy}
      (assigns : task.Assigns program copies) (returns : Returns program calls rest) :
      Assigns program (.asleep calls time task) (copies ++ rest)
  | joined {calls : List Call} {branches : List Thread} {join : List Result → Task}
      {parts : List (List Copy)} {copies rest : List Copy} (paired : parts.length = branches.length)
      (separate : Copy.Separate parts)
      (under : ∀ (index : Nat) (branch : Thread) (part : List Copy),
        branches[index]? = some branch → parts[index]? = some part → Assigns program branch part)
      (assigns : (join (List.replicate branches.length (.ok .completed))).Assigns program copies)
      (returns : Returns program calls rest) :
      Assigns program (.joined calls branches join) (parts.flatten ++ (copies ++ rest))
  | ended : Assigns program (.ended (.ok .completed)) []

variable {program : Program} {scene nextScene : Scene} {thread nextThread : Thread} {move : Move}
  {copies : List Copy}

/-- A task that is about to begin has all of its copies left. -/
theorem Assigns.ofTask {task : Task} (assigns : task.Assigns program copies) :
    (Thread.ofTask task).Assigns program copies := by
  rw [← List.append_nil copies]
  exact .ready assigns .nil

/-- Branches that have all ended have nothing left to assign, and completed. -/
theorem results?_of_assigns {branches : List Thread} {parts : List (List Copy)} {results : List Result}
    (paired : parts.length = branches.length)
    (under : ∀ (index : Nat) (branch : Thread) (part : List Copy),
      branches[index]? = some branch → parts[index]? = some part → Assigns program branch part)
    (known : results? branches = some results) :
    parts.flatten = [] ∧ results = List.replicate branches.length (.ok .completed) := by
  obtain rfl := eq_ended_of_results? known
  have completes (result : Result) (part : List Copy)
      (assigns : Assigns program (.ended result) part) : part = [] ∧ result = .ok .completed := by
    cases assigns
    exact ⟨rfl, rfl⟩
  refine ⟨List.flatten_eq_nil_iff.mpr fun part isPart => ?_, List.eq_replicate_iff.mpr ⟨?_, ?_⟩⟩
  · obtain ⟨index, branch, partAt, branchAt⟩ := exists_getElem?_of_mem paired isPart
    obtain ⟨result, _, rfl⟩ := List.mem_map.mp (List.mem_of_getElem? branchAt)
    exact (completes result part (under index _ part branchAt partAt)).1
  · exact (List.length_map _).symm
  · intro result isResult
    obtain ⟨index, part, branchAt, partAt⟩ :=
      exists_getElem?_of_mem paired.symm (List.mem_map_of_mem isResult)
    exact (completes result part (under index _ part branchAt partAt)).2

/-- A move performs copies that are left and that may come first. -/
theorem Step.assigns (moved : Step program scene thread move nextScene nextThread)
    (assigns : thread.Assigns program copies) (smooth : move.Expected .smooth) :
    ∃ now later, nextThread.Assigns program later ∧
      Copy.performAll now scene.subject.bag = .ok nextScene.subject.bag ∧
        Copy.Alike copies (now ++ later) ∧ now ++ later ⊆ copies := by
  induction moved generalizing copies with
  | finish =>
      cases assigns with
      | ready assigns returns =>
          cases assigns
          cases returns
          exact ⟨[], [], .ended, rfl, .refl _, fun _ => id⟩
  | leave =>
      cases assigns with
      | ready assigns returns =>
          cases assigns
          cases returns with
          | cons continues outside =>
              exact ⟨[], _, .ready continues outside, rfl, .refl _, fun _ => id⟩
  | act =>
      cases assigns with
      | ready assigns returns =>
          cases assigns with
          | check continues =>
              have goesOn : (scene.perform .checkHalting).2 = false := smooth
              rw [goesOn]
              exact ⟨[], _, .ready continues returns, rfl, .refl _, fun _ => id⟩
          | announce continues =>
              exact ⟨[], _, .ready continues returns, rfl, .refl _, fun _ => id⟩
          | @assign copies rest _ continues =>
              have succeeds : (scene.perform (.assign copies)).2 = .ok () := smooth
              rw [succeeds, List.append_assoc]
              refine ⟨copies, _, .ready continues returns, ?_, .refl _, fun _ => id⟩
              exact (Copy.assignAll_eq_ok_iff _ _ _).mp (Prod.ext rfl succeeds)
  | enter =>
      cases assigns with
      | ready assigns returns =>
          cases assigns with
          | call inside continues =>
              rw [List.append_assoc]
              exact ⟨[], _, .ready inside (.cons continues returns), rfl, .refl _, fun _ => id⟩
  | rest =>
      cases assigns with
      | ready assigns returns =>
          cases assigns with
          | wait continues => exact ⟨[], _, .asleep continues returns, rfl, .refl _, fun _ => id⟩
  | wake =>
      cases assigns with
      | asleep assigns returns =>
          exact ⟨[], _, .ready assigns returns, rfl, .refl _, fun _ => id⟩
  | fork =>
      cases assigns with
      | ready assigns returns =>
          cases assigns with
          | @fork _ _ parts rest paired separate begins continues =>
              rw [List.append_assoc]
              refine ⟨[], _, .joined (by simpa using paired) separate ?_ (by simpa using continues)
                returns, rfl, .refl _, fun _ => id⟩
              intro index thread part threadAt partAt
              rw [List.getElem?_map, Option.map_eq_some_iff] at threadAt
              obtain ⟨branch, branchAt, rfl⟩ := threadAt
              exact .ofTask (begins index branch part branchAt partAt)
  | @branch _ _ branches _ index thread nextThread _ present _ inductionHypothesis =>
      cases assigns with
      | @joined _ _ _ parts copies rest paired separate under assigns returns =>
          obtain ⟨inside, _⟩ := List.getElem?_eq_some_iff.mp present
          have partAt : parts[index]? = some parts[index] :=
            List.getElem?_eq_getElem (paired ▸ inside)
          obtain ⟨now, later, nextAssigns, performed, alike, fewer⟩ :=
            inductionHypothesis (under index thread _ present partAt) smooth
          obtain ⟨pulled, fewerParts, nextSeparate⟩ := separate.pull partAt alike fewer
          refine ⟨now, _, .joined (by simpa using paired) nextSeparate ?_ (by simpa using assigns)
            returns, performed, ?_, ?_⟩
          · intro place branch part branchAt placeAt
            by_cases same : index = place
            · subst same
              rw [List.getElem?_set_self inside] at branchAt
              rw [List.getElem?_set_self (paired ▸ inside)] at placeAt
              cases branchAt
              cases placeAt
              exact nextAssigns
            · rw [List.getElem?_set_ne same] at branchAt placeAt
              exact under place branch part branchAt placeAt
          · simpa only [List.append_assoc] using pulled.append (.refl (copies ++ rest))
          · rw [← List.append_assoc]
            exact List.append_subset.mpr ⟨fun _ isOne => List.mem_append_left _ (fewerParts isOne),
              List.subset_append_right _ _⟩
  | join known =>
      cases assigns with
      | joined paired separate under assigns returns =>
          obtain ⟨nothing, rfl⟩ := results?_of_assigns paired under known
          rw [nothing]
          exact ⟨[], _, .ready assigns returns, rfl, .refl _, fun _ => id⟩

/-- Moves perform copies that are left and that may come first. -/
theorem Steps.assigns {moves : List Move}
    (moved : Steps program scene thread moves nextScene nextThread)
    (assigns : thread.Assigns program copies) (smooth : ∀ move ∈ moves, move.Expected .smooth) :
    ∃ now later, nextThread.Assigns program later ∧
      Copy.performAll now scene.subject.bag = .ok nextScene.subject.bag ∧
        Copy.Alike copies (now ++ later) := by
  induction moved with
  | refl => exact ⟨[], copies, assigns, rfl, .refl _⟩
  | step _ moved inductionHypothesis =>
      obtain ⟨earlier, left, leftAssigns, before, alike⟩ :=
        inductionHypothesis fun move present => smooth move (List.mem_append_left _ present)
      obtain ⟨now, later, nextAssigns, performed, pulled, _⟩ :=
        moved.assigns leftAssigns (smooth _ List.mem_concat_self)
      refine ⟨earlier ++ now, later, nextAssigns, ?_, ?_⟩
      · rw [Copy.performAll_append, before]
        exact performed
      · rw [List.append_assoc]
        exact alike.trans ((Copy.Alike.refl earlier).append pulled)

/-- Where none of the copies that are left would fail, a move goes smoothly. -/
theorem Step.smooth {bag : Bag} (moved : Step program scene thread move nextScene nextThread)
    (assigns : thread.Assigns program copies) (running : scene.subject.status.isHalting = false)
    (performs : Copy.performAll copies scene.subject.bag = .ok bag) :
    move.Expected .smooth ∧ nextScene.subject.status = scene.subject.status := by
  induction moved generalizing copies bag with
  | act =>
      cases assigns with
      | ready assigns returns =>
          cases assigns with
          | check => exact ⟨running, rfl⟩
          | announce => exact ⟨trivial, rfl⟩
          | assign =>
              rw [List.append_assoc] at performs
              obtain ⟨middle, first, _⟩ := Copy.performAll_append_eq_ok_iff.mp performs
              exact ⟨congrArg Prod.snd ((Copy.assignAll_eq_ok_iff _ _ _).mpr first), rfl⟩
  | @branch _ _ _ _ index thread _ _ present _ inductionHypothesis =>
      cases assigns with
      | @joined _ _ _ parts copies rest paired separate under =>
          obtain ⟨inside, _⟩ := List.getElem?_eq_some_iff.mp present
          have partAt : parts[index]? = some parts[index] :=
            List.getElem?_eq_getElem (paired ▸ inside)
          obtain ⟨first, _, _⟩ := @Copy.Separate.pull parts index parts[index] parts[index] []
            separate partAt (by simpa using Copy.Alike.refl _) (by simp)
          obtain ⟨middle, performed, _⟩ := Copy.performAll_append_eq_ok_iff.mp performs
          obtain ⟨_, performsPart, _⟩ :=
            Copy.performAll_append_eq_ok_iff.mp ((first _ _).mp performed)
          exact inductionHypothesis (under index thread _ present partAt) performsPart
  | _ => exact ⟨trivial, rfl⟩

/-- Where none of the copies that are left would fail, moves leave copies of which none would fail. -/
theorem Steps.smooth {moves : List Move} {bag : Bag}
    (moved : Steps program scene thread moves nextScene nextThread)
    (assigns : thread.Assigns program copies) (running : scene.subject.status.isHalting = false)
    (performs : Copy.performAll copies scene.subject.bag = .ok bag) :
    ∃ later, nextThread.Assigns program later ∧
      Copy.performAll later nextScene.subject.bag = .ok bag ∧
        nextScene.subject.status = scene.subject.status := by
  induction moved with
  | refl => exact ⟨copies, assigns, performs, rfl⟩
  | step _ moved inductionHypothesis =>
      obtain ⟨left, leftAssigns, leftPerforms, sameStatus⟩ := inductionHypothesis
      rw [← sameStatus] at running
      obtain ⟨smooth, stillSame⟩ := moved.smooth leftAssigns running leftPerforms
      obtain ⟨now, later, nextAssigns, performed, alike, _⟩ := moved.assigns leftAssigns smooth
      refine ⟨later, nextAssigns, ?_, stillSame.trans sameStatus⟩
      rwa [alike, Copy.performAll_append, performed] at leftPerforms

/-- A thread none of whose copies would fail ends with all of them performed. -/
theorem Steps.completed {moves : List Move} {result : Result} {bag : Bag}
    (moved : Steps program scene thread moves nextScene (.ended result))
    (assigns : thread.Assigns program copies) (running : scene.subject.status.isHalting = false)
    (performs : Copy.performAll copies scene.subject.bag = .ok bag) :
    result = .ok .completed ∧ nextScene.subject.bag = bag := by
  obtain ⟨later, nothing, performed, _⟩ := moved.smooth assigns running performs
  cases nothing
  cases performed
  exact ⟨rfl, rfl⟩

/-- Once a thread has ended it has performed the copies that it was to perform. -/
theorem Steps.performAll {moves : List Move} {result : Result}
    (moved : Steps program scene thread moves nextScene (.ended result))
    (assigns : thread.Assigns program copies) (smooth : ∀ move ∈ moves, move.Expected .smooth) :
    Copy.performAll copies scene.subject.bag = .ok nextScene.subject.bag := by
  obtain ⟨now, later, nothing, performed, alike⟩ := moved.assigns assigns smooth
  cases nothing
  rw [alike, List.append_nil]
  exact performed

end Thread

namespace Task

variable {program : Program}

/-- That a task can be brought to its end, with a bag as it was left by copies. -/
def Completes (program : Program) (task : Task) (copies : List Copy) : Prop :=
  ∀ (scene : Scene) (calls : List Call) (bag : Bag), scene.subject.status.isHalting = false →
    Copy.performAll copies scene.subject.bag = .ok bag →
      ∃ moves next,
        Thread.Steps program scene (.ready calls task) moves next (.ready calls .completed) ∧
          next.subject.bag = bag ∧ next.subject.status = scene.subject.status

/-- Branches can be brought to their ends one after another. -/
theorem Completes.branches {branches : List Task} {parts : List (List Copy)}
    (paired : parts.length = branches.length)
    (complete : ∀ (index : Nat) (branch : Task) (part : List Copy),
      branches[index]? = some branch → parts[index]? = some part → Completes program branch part)
    (scene : Scene) (calls : List Call) (before : List Thread) (join : List Result → Task) (bag : Bag)
    (running : scene.subject.status.isHalting = false)
    (performed : Copy.performAll parts.flatten scene.subject.bag = .ok bag) :
    ∃ moves next,
      Thread.Steps program scene (.joined calls (before ++ branches.map Thread.ofTask) join) moves next
          (.joined calls
            (before ++ List.replicate branches.length (.ended (.ok .completed))) join) ∧
        next.subject.bag = bag ∧ next.subject.status = scene.subject.status := by
  induction branches generalizing parts scene before with
  | nil =>
      obtain rfl := List.length_eq_zero_iff.mp paired
      cases performed
      exact ⟨[], scene, .refl, rfl, rfl⟩
  | cons branch branches inductionHypothesis =>
      cases parts with
      | nil => cases paired
      | cons part parts =>
          obtain ⟨middle, first, others⟩ := Copy.performAll_append_eq_ok_iff.mp performed
          obtain ⟨moves, between, moved, isBag, sameStatus⟩ :=
            complete 0 branch part rfl rfl scene [] middle running first
          have ended := (moved.step .finish).branch calls before (branches.map Thread.ofTask) join
          obtain ⟨rest, next, restMoved, isLast, restStatus⟩ :=
            inductionHypothesis (by simpa using paired)
              (fun index other otherPart otherAt partAt =>
                complete (index + 1) other otherPart otherAt partAt)
              between (before ++ [.ended (.ok .completed)]) (by rw [sameStatus]; exact running)
              (by rw [isBag]; exact others)
          simp only [List.append_assoc, List.singleton_append] at restMoved
          exact ⟨_, next, ended.trans restMoved, isLast, restStatus.trans sameStatus⟩

/-- A task that performs copies completes where none of them fails. -/
theorem Assigns.completes {task : Task} {copies : List Copy} (assigns : task.Assigns program copies) :
    Completes program task copies := by
  induction assigns with
  | done =>
      rintro scene calls bag running ⟨⟩
      exact ⟨[], scene, .refl, rfl, rfl⟩
  | check _ inductionHypothesis =>
      intro scene calls bag running performed
      obtain ⟨moves, next, moved, isBag, sameStatus⟩ :=
        inductionHypothesis (scene.perform .checkHalting).1 calls bag running performed
      have goesOn : (scene.perform .checkHalting).2 = false := running
      exact ⟨_, next, (Thread.Steps.single (.act_of_reply goesOn)).trans moved, isBag, sameStatus⟩
  | @announce event _ _ _ inductionHypothesis =>
      intro scene calls bag running performed
      obtain ⟨moves, next, moved, isBag, sameStatus⟩ :=
        inductionHypothesis (scene.perform (.announce event)).1 calls bag running performed
      exact ⟨_, next, (Thread.Steps.single .act).trans moved, isBag, sameStatus⟩
  | @assign copies _ _ _ inductionHypothesis =>
      intro scene calls bag running performed
      obtain ⟨middle, first, others⟩ := Copy.performAll_append_eq_ok_iff.mp performed
      have assigned := (Copy.assignAll_eq_ok_iff _ _ _).mpr first
      have isMiddle : (scene.perform (.assign copies)).1.subject.bag = middle :=
        congrArg Prod.fst assigned
      obtain ⟨moves, next, moved, isBag, sameStatus⟩ :=
        inductionHypothesis (scene.perform (.assign copies)).1 calls bag running
          (by rw [isMiddle]; exact others)
      have succeeds : (scene.perform (.assign copies)).2 = .ok () := congrArg Prod.snd assigned
      exact ⟨_, next, (Thread.Steps.single (.act_of_reply succeeds)).trans moved, isBag, sameStatus⟩
  | @call activity role next _ _ _ _ insideHypothesis inductionHypothesis =>
      intro scene calls bag running performed
      obtain ⟨middle, first, others⟩ := Copy.performAll_append_eq_ok_iff.mp performed
      let call : Call := ⟨activity, role, next⟩
      obtain ⟨moves, inner, moved, isMiddle, innerStatus⟩ :=
        insideHypothesis (scene.perform (.start activity)).1 (call :: calls) middle running first
      have stillRunning : inner.subject.status.isHalting = false := by
        rw [innerStatus]
        exact running
      obtain ⟨rest, last, restMoved, isBag, sameStatus⟩ :=
        inductionHypothesis (inner.perform (.close activity (.ok .completed))).1 calls bag stillRunning
          (by rw [← isMiddle] at others; exact others)
      have entered := Thread.Steps.single (@Thread.Step.enter program scene calls call)
      exact ⟨_, last, ((entered.trans moved).step .leave).trans restMoved, isBag,
        sameStatus.trans innerStatus⟩
  | @wait duration task _ _ inductionHypothesis =>
      intro scene calls bag running performed
      obtain ⟨moves, next, moved, isBag, sameStatus⟩ :=
        inductionHypothesis scene calls bag running performed
      have rested := Thread.Steps.single (@Thread.Step.rest program scene calls duration task 0)
      exact ⟨_, next, (rested.step .wake).trans moved, isBag, sameStatus⟩
  | @fork branches join _ _ paired _ _ _ beginsHypothesis inductionHypothesis =>
      intro scene calls bag running performed
      obtain ⟨middle, first, others⟩ := Copy.performAll_append_eq_ok_iff.mp performed
      obtain ⟨moves, between, moved, isMiddle, betweenStatus⟩ :=
        Completes.branches paired beginsHypothesis scene calls [] join middle running first
      obtain ⟨rest, last, restMoved, isBag, sameStatus⟩ :=
        inductionHypothesis between calls bag (by rw [betweenStatus]; exact running)
          (by rw [isMiddle]; exact others)
      have known : Thread.results? (List.replicate branches.length (.ended (.ok .completed))) =
          some (List.replicate branches.length (.ok .completed)) := by
        induction branches.length with
        | zero => rfl
        | succ count same => simp [List.replicate_succ, Thread.results?, same]
      exact ⟨_, last, (((Thread.Steps.single .fork).trans moved).step (.join known)).trans restMoved,
        isBag, sameStatus.trans betweenStatus⟩

end Task

end Orchestration
