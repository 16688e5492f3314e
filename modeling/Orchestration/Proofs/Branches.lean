import Orchestration.Proofs.Assignments
import Orchestration.Proofs.Inheritance

/-!
# Independent branches

The branches of a flow share the variables. If no branch writes a variable that another one reads or
writes, it makes no difference how they take turns, nor how long each of them waits: the variables end as
if the same children had been executed one after another.

This is about branches that come to assignments, waits, empty activities and sequences of those only. What
such a branch assigns is settled by the definition alone.
-/

namespace Orchestration

namespace Definition

/-- That an activity is reached from an id, through the children of sequences. -/
inductive Reaches (definition : Definition) : String → Activity → Prop where
  | here {id : String} {activity : Activity} (found : definition.activity? id = some activity) :
      Reaches definition id activity
  | child {id child : String} {activity reached : Activity}
      (found : definition.activity? id = some activity) (isSequence : activity.kind = .sequence)
      (present : child ∈ activity.children) (reaches : Reaches definition child reached) :
      Reaches definition id reached

/-- What is reached from ids that have the children of their activities among them is under one of them. -/
theorem Reaches.of_closed {definition : Definition} {ids : List String} {property : Activity → Prop}
    (closed : ∀ id ∈ ids, ∀ activity, definition.activity? id = some activity →
      property activity ∧ activity.children ⊆ ids)
    {id : String} {activity : Activity} (reaches : definition.Reaches id activity) (present : id ∈ ids) :
    property activity := by
  induction reaches with
  | here found => exact (closed _ present _ found).1
  | child found _ isChild _ inductionHypothesis =>
      exact inductionHypothesis ((closed _ present _ found).2 isChild)

/-- That nothing but sequences, assignments, waits and empty activities is reached from ids. -/
def Straight (definition : Definition) (ids : List String) : Prop :=
  ∀ id ∈ ids, ∀ activity, definition.Reaches id activity →
    activity.kind ∈ [.sequence, .assign, .wait, .empty]

/-- That no branch writes a variable that another one reads or writes. -/
def Independent (definition : Definition) (branches : List String) : Prop :=
  branches.Pairwise fun first second => ∀ one other, definition.Reaches first one →
    definition.Reaches second other → one.kind = .assign → other.kind = .assign →
      ∀ copy ∈ one.copies, ∀ passed ∈ other.copies, copy.Apart passed

end Definition

/-- An activity with no time set. -/
def Activity.untimed (activity : Activity) : Activity :=
  { activity with duration := none, deadline := none }

/-- That a program differs from another in nothing but how long activities wait, and that all waits that
are reached from ids can be told. -/
structure Program.Retimes (other program : Program) (ids : List String) : Prop where
  untimed : ∀ id, (other.definition.activity? id).map Activity.untimed =
    (program.definition.activity? id).map Activity.untimed
  told : ∀ id ∈ ids, ∀ activity, other.definition.Reaches id activity → activity.kind = .wait →
    ∃ requested, other.requestedWait activity = .ok requested

/-- That the activities under ids perform copies, one after another, if none of them fails. -/
inductive Program.Assigns (program : Program) : List String → List Copy → Prop where
  | nil : Assigns program [] []
  | sequence {id : String} {ids : List String} {activity : Activity} {within rest : List Copy}
      (found : program.definition.activity? id = some activity) (isKind : activity.kind = .sequence)
      (inside : Assigns program activity.children within) (behind : Assigns program ids rest) :
      Assigns program (id :: ids) (within ++ rest)
  | assign {id : String} {ids : List String} {activity : Activity} {rest : List Copy}
      (found : program.definition.activity? id = some activity) (isKind : activity.kind = .assign)
      (behind : Assigns program ids rest) : Assigns program (id :: ids) (activity.copies ++ rest)
  | wait {id : String} {ids : List String} {activity : Activity} {requested : Duration}
      {rest : List Copy} (found : program.definition.activity? id = some activity)
      (isKind : activity.kind = .wait) (asks : program.requestedWait activity = .ok requested)
      (behind : Assigns program ids rest) : Assigns program (id :: ids) rest
  | empty {id : String} {ids : List String} {activity : Activity} {rest : List Copy}
      (found : program.definition.activity? id = some activity) (isKind : activity.kind = .empty)
      (behind : Assigns program ids rest) : Assigns program (id :: ids) rest

namespace Program.Assigns

variable {program other : Program} {ids : List String} {copies : List Copy}

/-- Activities perform their copies after those of others. -/
theorem append {more : List String} {rest : List Copy} (assigns : program.Assigns ids copies)
    (behind : program.Assigns more rest) : program.Assigns (ids ++ more) (copies ++ rest) := by
  induction assigns with
  | nil => exact behind
  | sequence found isKind inside _ _ inductionHypothesis =>
      rw [List.append_assoc]
      exact .sequence found isKind inside inductionHypothesis
  | assign found isKind _ inductionHypothesis =>
      rw [List.append_assoc]
      exact .assign found isKind inductionHypothesis
  | wait found isKind asks _ inductionHypothesis =>
      exact .wait found isKind asks inductionHypothesis
  | empty found isKind _ inductionHypothesis => exact .empty found isKind inductionHypothesis

/-- Copies that are performed stand in an assignment that is reached. -/
theorem reaches (assigns : program.Assigns ids copies) :
    ∀ copy ∈ copies, ∃ id ∈ ids, ∃ activity, program.definition.Reaches id activity ∧
      activity.kind = .assign ∧ copy ∈ activity.copies := by
  induction assigns with
  | nil => simp
  | sequence found isKind _ _ insideHypothesis inductionHypothesis =>
      intro copy present
      rcases List.mem_append.mp present with inside | behind
      · obtain ⟨child, isChild, activity, reaches, placed⟩ := insideHypothesis copy inside
        exact ⟨_, List.mem_cons_self, activity, .child found isKind isChild reaches, placed⟩
      · obtain ⟨id, isId, placed⟩ := inductionHypothesis copy behind
        exact ⟨id, List.mem_cons_of_mem _ isId, placed⟩
  | assign found isKind _ inductionHypothesis =>
      intro copy present
      rcases List.mem_append.mp present with inside | behind
      · exact ⟨_, List.mem_cons_self, _, .here found, isKind, inside⟩
      · obtain ⟨id, isId, placed⟩ := inductionHypothesis copy behind
        exact ⟨id, List.mem_cons_of_mem _ isId, placed⟩
  | wait _ _ _ _ inductionHypothesis =>
      intro copy present
      obtain ⟨id, isId, placed⟩ := inductionHypothesis copy present
      exact ⟨id, List.mem_cons_of_mem _ isId, placed⟩
  | empty _ _ _ inductionHypothesis =>
      intro copy present
      obtain ⟨id, isId, placed⟩ := inductionHypothesis copy present
      exact ⟨id, List.mem_cons_of_mem _ isId, placed⟩

/-- What is performed does not depend on how long activities wait. -/
theorem retimed (assigns : program.Assigns ids copies) (retimes : other.Retimes program ids) :
    other.Assigns ids copies := by
  have same {id : String} {activity : Activity}
      (found : program.definition.activity? id = some activity) :
      ∃ changed, other.definition.activity? id = some changed ∧ changed.kind = activity.kind ∧
        changed.children = activity.children ∧ changed.copies = activity.copies := by
    have untimed := retimes.untimed id
    rw [found, Option.map_some] at untimed
    obtain ⟨changed, changedFound, agree⟩ := Option.map_eq_some_iff.mp untimed
    have sameKind := congrArg Activity.kind agree
    have sameChildren := congrArg Activity.children agree
    have sameCopies := congrArg Activity.copies agree
    exact ⟨changed, changedFound, sameKind, sameChildren, sameCopies⟩
  have untimed := retimes.untimed
  have told := retimes.told
  clear retimes
  induction assigns with
  | nil => exact .nil
  | sequence found isKind _ _ insideHypothesis inductionHypothesis =>
      obtain ⟨changed, changedFound, sameKind, sameChildren, _⟩ := same found
      rw [isKind] at sameKind
      rw [← sameChildren] at insideHypothesis
      refine .sequence changedFound sameKind (insideHypothesis fun child isChild activity reaches =>
        told _ List.mem_cons_self activity (.child changedFound sameKind isChild reaches)) ?_
      exact inductionHypothesis fun id present => told id (List.mem_cons_of_mem _ present)
  | assign found isKind _ inductionHypothesis =>
      obtain ⟨changed, changedFound, sameKind, _, sameCopies⟩ := same found
      rw [← sameCopies]
      exact .assign changedFound (sameKind.trans isKind)
        (inductionHypothesis fun id present => told id (List.mem_cons_of_mem _ present))
  | wait found isKind _ _ inductionHypothesis =>
      obtain ⟨changed, changedFound, sameKind, _⟩ := same found
      rw [isKind] at sameKind
      obtain ⟨requested, asks⟩ := told _ List.mem_cons_self changed (.here changedFound) sameKind
      exact .wait changedFound sameKind asks
        (inductionHypothesis fun id present => told id (List.mem_cons_of_mem _ present))
  | empty found isKind _ inductionHypothesis =>
      obtain ⟨changed, changedFound, sameKind, _⟩ := same found
      exact .empty changedFound (sameKind.trans isKind)
        (inductionHypothesis fun id present => told id (List.mem_cons_of_mem _ present))

/-- A task that executes one activity after another performs the copies of the one and then those of
the others. -/
theorem task_cons {id : String} {activity : Activity} {within rest : List Copy}
    (found : program.definition.activity? id = some activity)
    (inside : (program.body activity).Assigns program within)
    (behind : (program.runSequence ids).Assigns program rest) :
    (program.runSequence (id :: ids)).Assigns program (within ++ rest) := by
  refine .check ?_
  simp only [Bool.false_eq_true, if_false, lookup, found]
  exact .call inside behind

/-- The task that executes activities one after another performs their copies. -/
theorem task (assigns : program.Assigns ids copies) :
    (program.runSequence ids).Assigns program copies := by
  induction assigns with
  | nil => exact .done
  | sequence found isKind _ _ insideHypothesis inductionHypothesis =>
      exact task_cons found (by simpa only [body, isKind] using insideHypothesis) inductionHypothesis
  | @assign _ _ activity _ found isKind _ inductionHypothesis =>
      have performs : (program.body activity).Assigns program (activity.copies ++ []) := by
        simp only [body, isKind]
        exact .assign .done
      rw [List.append_nil] at performs
      exact task_cons found performs inductionHypothesis
  | @wait _ _ activity _ _ found isKind asks _ inductionHypothesis =>
      have waits : (program.body activity).Assigns program [] := by
        simp only [body, isKind, runWait, asks]
        exact .announce (.wait .done)
      exact task_cons found waits inductionHypothesis
  | @empty _ _ activity _ found isKind _ inductionHypothesis =>
      have nothing : (program.body activity).Assigns program [] := by
        simp only [body, isKind]
        exact .done
      exact task_cons found nothing inductionHypothesis

/-- What the activity under an id performs is what its task performs. -/
theorem body {id : String} (assigns : program.Assigns [id] copies) :
    ∃ activity, program.definition.activity? id = some activity ∧
      (program.body activity).Assigns program copies := by
  have performs := assigns.task
  rw [runSequence] at performs
  cases performs with
  | check continues =>
      simp only [Bool.false_eq_true, if_false, lookup] at continues
      cases found : program.definition.activity? id with
      | none =>
          rw [found] at continues
          cases continues
      | some activity =>
          rw [found] at continues
          cases continues with
          | call inside behind =>
              cases behind
              exact ⟨activity, rfl, by simpa using inside⟩

/-- Activities that perform copies are found. -/
theorem lookupAll (assigns : program.Assigns ids copies) :
    ∃ branches, program.lookupAll ids = .ok branches := by
  induction assigns with
  | nil => exact ⟨[], rfl⟩
  | sequence found _ _ _ _ inductionHypothesis | assign found _ _ inductionHypothesis
  | wait found _ _ _ inductionHypothesis | empty found _ _ inductionHypothesis =>
      obtain ⟨branches, others⟩ := inductionHypothesis
      exact ⟨_, by rw [Program.lookupAll, found, others]; rfl⟩

end Program.Assigns

/-- The look-up of several ids finds the activity of each in its place. -/
theorem Program.getElem?_of_lookupAll {program : Program} {ids : List String}
    {branches : List Activity} (found : program.lookupAll ids = .ok branches) :
    branches.length = ids.length ∧ ∀ (index : Nat) (id : String), ids[index]? = some id →
      ∃ branch, branches[index]? = some branch ∧ program.definition.activity? id = some branch := by
  have resolved := Program.lookupAll_eq_ok_iff.mp found
  refine ⟨by simpa using (congrArg List.length resolved).symm, fun index id isId => ?_⟩
  exact Thread.getElem?_of_map_eq resolved isId

/-- What each of some branches performs. -/
structure Program.Parts (program : Program) (ids : List String) (parts : List (List Copy)) : Prop where
  paired : parts.length = ids.length
  assigns : ∀ (index : Nat) (id : String) (part : List Copy),
    ids[index]? = some id → parts[index]? = some part → program.Assigns [id] part

namespace Program.Parts

variable {program : Program} {ids : List String} {parts : List (List Copy)}

/-- What branches perform one after another. -/
theorem flatten (each : program.Parts ids parts) : program.Assigns ids parts.flatten := by
  obtain ⟨paired, assigns⟩ := each
  induction ids generalizing parts with
  | nil =>
      obtain rfl := List.length_eq_zero_iff.mp paired
      exact .nil
  | cons id ids inductionHypothesis =>
      cases parts with
      | nil => cases paired
      | cons part parts =>
          have first : program.Assigns [id] part := assigns 0 id part rfl rfl
          exact first.append (inductionHypothesis (by simpa using paired)
            fun index other otherPart otherAt partAt =>
              assigns (index + 1) other otherPart otherAt partAt)

/-- Branches that are independent perform copies that are apart. -/
theorem separate (each : program.Parts ids parts)
    (independent : program.definition.Independent ids) : Copy.Separate parts := by
  obtain ⟨paired, assigns⟩ := each
  have reaches (index : Nat) (inParts : index < parts.length) (inIds : index < ids.length)
      (copy : Copy) (present : copy ∈ parts[index]) :
      ∃ activity, program.definition.Reaches ids[index] activity ∧ activity.kind = .assign ∧
        copy ∈ activity.copies := by
    have performs := assigns index _ _ (List.getElem?_eq_getElem inIds) (List.getElem?_eq_getElem inParts)
    obtain ⟨id, isId, placed⟩ := performs.reaches copy present
    rwa [List.mem_singleton.mp isId] at placed
  refine List.pairwise_iff_getElem.mpr fun first second inFirst inSecond before copy isCopy other isOther => ?_
  obtain ⟨one, reachesOne, isAssign, inOne⟩ := reaches first inFirst (paired ▸ inFirst) copy isCopy
  obtain ⟨two, reachesTwo, alsoAssign, inTwo⟩ := reaches second inSecond (paired ▸ inSecond) other isOther
  exact List.pairwise_iff_getElem.mp independent first second (paired ▸ inFirst) (paired ▸ inSecond) before
    one two reachesOne reachesTwo isAssign alsoAssign copy inOne other inTwo

/-- Branches do not depend on how long activities wait in what they perform. -/
theorem retimed {other : Program} (each : program.Parts ids parts)
    (retimes : other.Retimes program ids) : other.Parts ids parts where
  paired := each.paired
  assigns index id part isId isPart := by
    refine (each.assigns index id part isId isPart).retimed ⟨retimes.untimed, fun only isOnly => ?_⟩
    cases List.mem_singleton.mp isOnly
    exact retimes.told id (List.mem_of_getElem? isId)

/-- The task that executes branches side by side performs the copies of all of them. -/
theorem task (each : program.Parts ids parts) (separate : Copy.Separate parts) :
    (program.runFlow ids).Assigns program parts.flatten := by
  obtain ⟨branches, found⟩ := each.flatten.lookupAll
  obtain ⟨sameLength, isBranch⟩ := getElem?_of_lookupAll found
  have paired : parts.length = (branches.map fun branch => Task.call branch .part .done).length := by
    rw [List.length_map, sameLength, each.paired]
  rw [runFlow, found, ← List.append_nil parts.flatten]
  refine .fork paired separate (fun index task part isTask isPart => ?_) ?_
  · rw [List.getElem?_map, Option.map_eq_some_iff] at isTask
    obtain ⟨branch, branchAt, rfl⟩ := isTask
    obtain ⟨inParts, _⟩ := List.getElem?_eq_some_iff.mp isPart
    have inIds : index < ids.length := each.paired ▸ inParts
    have isId : ids[index]? = some ids[index] := List.getElem?_eq_getElem inIds
    obtain ⟨activity, activityFound, performs⟩ := (each.assigns index _ part isId isPart).body
    obtain ⟨other, otherAt, otherFound⟩ := isBranch index _ isId
    cases branchAt.symm.trans otherAt
    cases activityFound.symm.trans otherFound
    simpa using Task.Assigns.call performs .done
  · have merged (count : Nat) :
        Result.merge (List.replicate count (.ok .completed)) = .ok .completed := by
      induction count with
      | zero => rfl
      | succ count inductionHypothesis => exact inductionHypothesis
    rw [merged]
    exact .done

end Program.Parts

namespace Contract

/-- That nothing is an exit. -/
def steady : Contract where
  calls _ _ := True
  replies action _ := ∀ id, action ≠ .exit id
  returns _ := True

end Contract

/-- That nothing that was done was an exit, and that it came to a halt at a checkpoint or went smoothly
and completed. -/
def Record.Settled (records : List Record) (outcome : Outcome) (smoothly : Prop) : Prop :=
  Contract.steady.Expects records ∧ ((Record.performed .checkHalting true).Among records ∨
    (outcome = .completed ∧ Contract.smooth.Expects records ∧ smoothly))

/-- What is known of a smooth course may be weakened. -/
theorem Record.Settled.mono {records : List Record} {outcome : Outcome} {smoothly more : Prop}
    (settled : Settled records outcome smoothly) (gives : smoothly → more) :
    Settled records outcome more := by
  obtain ⟨steady, halts | ⟨completed, smooth, holds⟩⟩ := settled
  · exact ⟨steady, .inl halts⟩
  · exact ⟨steady, .inr ⟨completed, smooth, gives holds⟩⟩

/-- What was done of an execution alone is settled if what was done inside of it is. -/
theorem Record.Settled.executed {within : List Record} {activity : Activity} {role : Role}
    {ended? : Option Result} {outcome : Outcome} {smoothly : Prop}
    (settled : Settled within outcome smoothly) :
    Settled [.executed activity role within ended?] outcome smoothly := by
  obtain ⟨steady, halts | ⟨ended, smooth, assigns⟩⟩ := settled
  · exact ⟨steady.executed Contract.expects_nil, .inl (.inside List.mem_cons_self halts)⟩
  · exact ⟨steady.executed Contract.expects_nil,
      .inr ⟨ended, smooth.executed Contract.expects_nil, assigns⟩⟩

/-- What was done of branches is settled if what was done of each of them is. -/
theorem Record.Settled.branched {sides : List (List Record × Option Result)} {results : List Result}
    {outcome : Outcome} {smoothly : Nat → Prop} (ended : sides.map Prod.snd = results.map some)
    (merged : Result.merge results = .ok outcome)
    (each : ∀ index side, sides[index]? = some side → ∃ reached, side.2 = some (.ok reached) ∧
      Settled side.1 reached (smoothly index)) :
    Settled [.branched sides] outcome (∀ index < sides.length, smoothly index) := by
  have steady : Contract.steady.Expects [.branched sides] := by
    refine .branched (fun side isSide => ?_) Contract.expects_nil
    obtain ⟨index, sideAt⟩ := List.getElem?_of_mem isSide
    obtain ⟨_, _, settled⟩ := each index side sideAt
    exact settled.1
  refine ⟨steady, or_iff_not_imp_left.mpr fun goesOn => ?_⟩
  have completes (index : Nat) (side : List Record × Option Result) (sideAt : sides[index]? = some side) :
      side.2 = some (.ok .completed) ∧ Contract.smooth.Expects side.1 ∧ smoothly index := by
    obtain ⟨reached, hasResult, settled⟩ := each index side sideAt
    obtain ⟨rfl, smooth, performs⟩ := settled.2.resolve_left fun halts =>
      goesOn (.aside List.mem_cons_self (List.mem_of_getElem? sideAt) halts)
    exact ⟨hasResult, smooth, performs⟩
  refine ⟨?_, ?_, fun index inSides => ?_⟩
  · cases outcome with
    | completed => rfl
    | halted =>
        obtain ⟨isResult, _⟩ := Result.merge_eq_halted_iff.mp merged
        obtain ⟨side, isSide, hasResult⟩ := Record.exists_side_of_result ended isResult
        obtain ⟨index, sideAt⟩ := List.getElem?_of_mem isSide
        cases hasResult.symm.trans (completes index side sideAt).1
  · refine .branched (fun side isSide => ?_) Contract.expects_nil
    obtain ⟨index, sideAt⟩ := List.getElem?_of_mem isSide
    exact (completes index side sideAt).2.1
  · exact (completes index _ (List.getElem?_eq_getElem inSides)).2.2

namespace Program

variable {program : Program} {ids : List String} {records : List Record} {outcome : Outcome}

/-- What was done of activities one after another is settled if what was done of each is. -/
theorem settled_sequence
    (each : ∀ id ∈ ids, ∀ child within result, program.definition.activity? id = some child →
      .executed child .part within (some (.ok result)) ∈ records →
        (program.body child).Unfolds program within (some (.ok result)) →
          Record.Settled within result (∃ copies, program.Assigns [id] copies))
    (unfolds : (program.runSequence ids).Unfolds program records (some (.ok outcome))) :
    Record.Settled records outcome (∃ copies, program.Assigns ids copies) := by
  induction ids generalizing records with
  | nil =>
      obtain ⟨rfl, ended⟩ := unfolds.of_ended
      cases ended
      exact ⟨Contract.expects_nil, .inr ⟨rfl, Contract.expects_nil, [], .nil⟩⟩
  | cons id ids inductionHypothesis =>
      cases unfolds with
      | @act _ _ reply _ _ continues =>
          have replied : Contract.steady.replies .checkHalting reply := nofun
          cases reply with
          | true =>
              obtain ⟨rfl, -⟩ := continues.of_ended
              exact ⟨Contract.expects_nil.performed replied, .inl (.here List.mem_cons_self)⟩
          | false =>
              simp only [Bool.false_eq_true, if_false, lookup] at continues
              cases found : program.definition.activity? id with
              | none =>
                  rw [found] at continues
                  cases continues.of_ended.2
              | some child =>
                  rw [found] at continues
                  cases continues with
                  | @call _ _ _ within rest result _ inside behind =>
                      rcases result with error | reached
                      · cases behind.of_ended.2
                      have settled := each id List.mem_cons_self child within reached found
                        (by simp) inside
                      cases reached with
                      | halted =>
                          obtain ⟨rfl, -⟩ := behind.of_ended
                          obtain ⟨steady, halts | ⟨⟨⟩, -⟩⟩ := settled
                          refine ⟨(steady.executed Contract.expects_nil).performed replied, .inl ?_⟩
                          exact .inside (List.mem_cons_of_mem _ List.mem_cons_self) halts
                      | completed =>
                          obtain ⟨restSteady, others⟩ := inductionHypothesis
                            (fun other isOther child within result found present => each other
                              (List.mem_cons_of_mem _ isOther) child within result found
                              (List.mem_cons_of_mem _ (List.mem_cons_of_mem _ present))) behind
                          obtain ⟨steady, first⟩ := settled
                          refine ⟨(steady.executed restSteady).performed replied, ?_⟩
                          rcases first with halts | ⟨-, smooth, copies, assigns⟩
                          · exact .inl (.inside (List.mem_cons_of_mem _ List.mem_cons_self) halts)
                          rcases others with halts | ⟨rfl, restSmooth, more, restAssigns⟩
                          · exact .inl halts.cons.cons
                          · exact .inr ⟨rfl, (smooth.executed restSmooth).performed rfl, _,
                              assigns.append restAssigns⟩

/-- An assignment that completed has performed its copies. -/
theorem settled_assign {id : String} {activity : Activity}
    (found : program.definition.activity? id = some activity) (isKind : activity.kind = .assign)
    (unfolds : (runAction (.assign activity.copies) fun reply => reply).Unfolds program records
      (some (.ok outcome))) : Record.Settled records outcome (∃ copies, program.Assigns [id] copies) := by
  cases unfolds with
  | @act _ _ reply _ _ continues =>
      change Except ActivityError Unit at reply
      rcases reply with error | ⟨⟩
      · cases continues.of_ended.2
      · obtain ⟨rfl, ended⟩ := continues.of_ended
        cases ended
        exact ⟨Contract.expects_nil.performed nofun,
          .inr ⟨rfl, Contract.expects_nil.performed rfl, _, .assign found isKind .nil⟩⟩

/-- A wait that completed has performed no copies. -/
theorem settled_wait {id : String} {activity : Activity}
    (found : program.definition.activity? id = some activity) (isKind : activity.kind = .wait)
    (unfolds : (program.runWait activity).Unfolds program records (some (.ok outcome))) :
    Record.Settled records outcome (∃ copies, program.Assigns [id] copies) := by
  rw [runWait] at unfolds
  cases asks : program.requestedWait activity with
  | error error =>
      rw [asks] at unfolds
      cases unfolds.of_ended.2
  | ok requested =>
      rw [asks] at unfolds
      cases unfolds with
      | act waits =>
          cases waits with
          | wait continues =>
              obtain ⟨rfl, ended⟩ := continues.of_ended
              cases ended
              exact ⟨Contract.expects_nil.performed nofun, .inr ⟨rfl,
                Contract.expects_nil.performed trivial, _, .wait found isKind asks .nil⟩⟩

/-- What was done of an activity from which nothing but sequences, assignments, waits and empty activities
is reached is settled if it did not fail. -/
theorem settled_body {id : String} {activity : Activity}
    (found : program.definition.activity? id = some activity)
    (straight : program.definition.Straight [id])
    (unfolds : (program.body activity).Unfolds program records (some (.ok outcome))) :
    Record.Settled records outcome (∃ copies, program.Assigns [id] copies) := by
  induction size : sizeOf records using Nat.strong_induction_on
    generalizing id activity records outcome with
  | _ _ inductionHypothesis =>
      have kinds := straight id List.mem_cons_self activity (.here found)
      simp only [List.mem_cons, List.not_mem_nil, or_false] at kinds
      rcases kinds with isKind | isKind | isKind | isKind <;> simp only [body, isKind] at unfolds
      · -- A child of a sequence has fewer records than the sequence.
        have settled := settled_sequence (fun child isChild other within result childFound present
            inside => by
          have smaller := List.sizeOf_lt_of_mem present
          rw [Record.executed.sizeOf_spec, size] at smaller
          refine inductionHypothesis (sizeOf within) (by omega) childFound ?_ inside rfl
          rintro _ isOnly reached reaches
          cases List.mem_singleton.mp isOnly
          exact straight id List.mem_cons_self reached (.child found isKind isChild reaches)) unfolds
        refine settled.mono ?_
        rintro ⟨copies, assigns⟩
        exact ⟨_, .sequence found isKind assigns .nil⟩
      · exact settled_assign found isKind unfolds
      · exact settled_wait found isKind unfolds
      · obtain ⟨rfl, ended⟩ := unfolds.of_ended
        cases ended
        exact ⟨Contract.expects_nil,
          .inr ⟨rfl, Contract.expects_nil, _, .empty found isKind .nil⟩⟩

/-- What was done of branches, from which nothing but sequences, assignments, waits and empty activities is
reached, is settled if none failed. -/
theorem settled_flow (straight : program.definition.Straight ids)
    (unfolds : (program.runFlow ids).Unfolds program records (some (.ok outcome))) :
    Record.Settled records outcome (∃ parts, program.Parts ids parts) := by
  rw [runFlow] at unfolds
  cases found : program.lookupAll ids with
  | error error =>
      rw [found] at unfolds
      cases unfolds.of_ended.2
  | ok branches =>
      rw [found] at unfolds
      obtain ⟨sameLength, isBranch⟩ := getElem?_of_lookupAll found
      cases unfolds with
      | @fork _ _ sides results _ _ paired ended unfold continues =>
          obtain ⟨rfl, merged⟩ := continues.of_ended
          have unfailed := Result.exists_merge_eq_ok_iff.mp ⟨outcome, merged.symm⟩
          rw [List.length_map, sameLength] at paired
          have each (index : Nat) (side : List Record × Option Result) (sideAt : sides[index]? = some side) :
              ∃ reached, side.2 = some (.ok reached) ∧ Record.Settled side.1 reached
                (∀ id, ids[index]? = some id → ∃ copies, program.Assigns [id] copies) := by
            obtain ⟨inSides, _⟩ := List.getElem?_eq_some_iff.mp sideAt
            have isId : ids[index]? = some ids[index] := List.getElem?_eq_getElem (paired ▸ inSides)
            obtain ⟨branch, branchAt, branchFound⟩ := isBranch index _ isId
            obtain ⟨result, isResult, hasResult⟩ :=
              Record.exists_result_of_side ended (List.mem_of_getElem? sideAt)
            rcases result with error | reached
            · exact absurd rfl (unfailed _ isResult error)
            have inside := unfold index _ _ (by rw [List.getElem?_map, branchAt, Option.map_some]) sideAt
            rw [hasResult] at inside
            obtain ⟨within, isWithin, body⟩ := inside.of_callOnly
            have settled := settled_body branchFound (fun only isOnly => by
              cases List.mem_singleton.mp isOnly
              exact straight _ (List.mem_of_getElem? isId)) body
            refine ⟨reached, hasResult, isWithin ▸ (settled.mono fun assigns id alsoId => ?_).executed⟩
            cases isId.symm.trans alsoId
            exact assigns
          refine (Record.Settled.branched ended merged.symm each).mono fun assigned => ?_
          have assigns (index : Fin ids.length) : ∃ copies, program.Assigns [ids[index]] copies :=
            assigned index (by rw [paired]; exact index.isLt) _ (List.getElem?_eq_getElem index.isLt)
          choose parts performs using assigns
          refine ⟨List.ofFn parts, by simp, fun index id part isId isPart => ?_⟩
          obtain ⟨inIds, rfl⟩ := List.getElem?_eq_some_iff.mp isId
          obtain ⟨_, rfl⟩ := List.getElem?_eq_some_iff.mp isPart
          rw [List.getElem_ofFn]
          exact performs ⟨index, inIds⟩

/-- What executes branches side by side, or one after another, performs the copies of all of them. -/
theorem Parts.execute {parts : List (List Copy)} {whole : Activity}
    (each : program.Parts whole.children parts) (separate : Copy.Separate parts)
    (isKind : whole.kind = .flow ∨ whole.kind = .sequence) :
    (program.execute whole).Assigns program parts.flatten := by
  rw [← List.append_nil parts.flatten]
  refine .call ?_ .done
  rcases isKind with isFlow | isSequence
  · simpa only [body, isFlow] using each.task separate
  · simpa only [body, isSequence] using each.flatten.task

end Program

/-- An instance keeps its status where nothing exits. -/
theorem Move.Acts.status_eq {scene nextScene : Scene} {move : Move} (acts : move.Acts scene nextScene)
    (steady : move.Expected .steady) : nextScene.subject.status = scene.subject.status := by
  cases move with
  | performed action reply =>
      obtain rfl : nextScene = (scene.perform action).1 := (congrArg Prod.fst acts).symm
      rcases action.perform_cases scene.subject with ⟨activity, rfl⟩ | ⟨activity, result, rfl⟩ |
        ⟨id, rfl⟩ | ⟨scopeId, rfl⟩ | ⟨bag, fault, same⟩
      · rfl
      · rfl
      · exact absurd rfl (steady id)
      · rfl
      · have sameStatus := congrArg Instance.status same
        exact sameStatus
  | entered => exact acts ▸ rfl
  | left => exact acts ▸ rfl
  | silent => exact acts ▸ rfl

namespace Thread

variable {program : Program} {scene nextScene : Scene} {thread nextThread : Thread} {moves : List Move}

/-- No checkpoint finds an instance halting where nothing exits. -/
theorem Steps.running (moved : Steps program scene thread moves nextScene nextThread)
    (steady : ∀ move ∈ moves, move.Expected .steady)
    (running : scene.subject.status.isHalting = false) :
    nextScene.subject.status.isHalting = false ∧ .performed .checkHalting true ∉ moves := by
  induction moved with
  | refl => exact ⟨running, nofun⟩
  | @step _ move _ _ _ _ _ moved inductionHypothesis =>
      obtain ⟨stillRunning, goesOn⟩ := inductionHypothesis fun move present =>
        steady move (List.mem_append_left _ present)
      refine ⟨?_, fun present => ?_⟩
      · rw [moved.acts.status_eq (steady _ List.mem_concat_self)]
        exact stillRunning
      · rcases List.mem_append.mp present with earlier | isLast
        · exact goesOn earlier
        · have acts := moved.acts
          rw [← List.mem_singleton.mp isLast] at acts
          cases (Prod.mk.inj acts).2.symm.trans stillRunning

/-- An execution whose records are settled goes smoothly and completes. -/
theorem Steps.smooth_of_settled {whole : Activity} {outcome : Outcome} {smoothly : Prop}
    (moved : Steps program scene (.ofTask (program.execute whole)) moves nextScene
      (.ended (.ok outcome)))
    (running : scene.subject.status.isHalting = false)
    (settles : ∀ within, (program.body whole).Unfolds program within (some (.ok outcome)) →
      Record.Settled within outcome smoothly) :
    (∀ move ∈ moves, move.Expected .smooth) ∧ smoothly := by
  obtain ⟨records, keeps, follows⟩ := moved.recorded
  obtain ⟨within, rfl, inside⟩ := follows.unfolds.of_callOnly
  obtain ⟨steady, ended⟩ := (settles within inside).executed
  have ofExpects {contract : Contract} {records : List Record} (keeps : Record.Keeps moves records)
      (expects : contract.Expects records) (move : Move) (present : move ∈ moves) :
      move.Expected contract := by
    cases move with
    | performed action reply => exact expects action reply (keeps.among_performed_iff.mpr present)
    | _ => trivial
  obtain ⟨_, goesOn⟩ := moved.running (ofExpects keeps steady) running
  rcases ended with halts | ⟨_, smooth, performs⟩
  · exact absurd (keeps.among_performed_iff.mp halts) goesOn
  · exact ⟨ofExpects keeps smooth, performs⟩

end Thread

/-- Independent branches commute: once a flow of them has ended without a failure, the same children end
with the same variables however long they wait, in whatever order their branches move, and also one after
another. -/
theorem independent_branches_commute {program : Program} {scene next : Scene} {flow : Activity}
    {moves : List Move} {outcome : Outcome} (isFlow : flow.kind = .flow)
    (straight : program.definition.Straight flow.children)
    (independent : program.definition.Independent flow.children)
    (running : scene.subject.status.isHalting = false)
    (ended : Thread.Steps program scene (.ofTask (program.execute flow)) moves next
      (.ended (.ok outcome)))
    (other : Program) (retimes : other.Retimes program flow.children) (whole : Activity)
    (isKind : whole.kind = .flow ∨ whole.kind = .sequence) (sameChildren : whole.children = flow.children)
    (start : Scene) (sameBag : start.subject.bag = scene.subject.bag)
    (alsoRunning : start.subject.status.isHalting = false) :
    (∀ moves final result, Thread.Steps other start (.ofTask (other.execute whole)) moves final
        (.ended result) → result = .ok .completed ∧ final.subject.bag = next.subject.bag) ∧
      ∃ moves final, Thread.Steps other start (.ofTask (other.execute whole)) moves final
        (.ended (.ok .completed)) := by
  obtain ⟨smooth, parts, each⟩ := ended.smooth_of_settled running fun within inside =>
    Program.settled_flow straight (by simpa only [Program.body, isFlow] using inside)
  have separate := each.separate independent
  have assigns := each.execute separate (.inl isFlow)
  have performs := ended.performAll (.ofTask assigns) smooth
  have others : other.Parts whole.children parts := sameChildren ▸ each.retimed retimes
  have alsoAssigns := others.execute separate isKind
  rw [← sameBag] at performs
  refine ⟨fun moves final result moved => ?_, ?_⟩
  · exact moved.completed (.ofTask alsoAssigns) alsoRunning performs
  · obtain ⟨moves, final, moved, _⟩ := alsoAssigns.completes start [] _ alsoRunning performs
    exact ⟨_, final, moved.step .finish⟩

namespace PausedBranch

/-- Waits for so many milliseconds. -/
def pause (milliseconds : Nat) : Activity :=
  { id := "pause", kind := .wait, duration := some (.milliseconds milliseconds) }

/-- Writes the variable of the first branch. -/
def write : Activity := { id := "write", kind := .assign, copies := [⟨.literal (.integer 1), "x"⟩] }

/-- Writes its variable after a while. -/
def first : Activity := { id := "first", kind := .sequence, children := ["pause", "write"] }

/-- Writes its variable at once. -/
def second : Activity := { id := "second", kind := .assign, copies := [⟨.literal (.integer 2), "y"⟩] }

/-- Both branches side by side. -/
def flow : Activity := { id := "main", kind := .flow, children := ["first", "second"] }

/-- One branch after the other. -/
def sequence : Activity := { flow with kind := .sequence }

/-- A program in which the first of two independent branches waits. -/
def program (milliseconds : Nat) : Program :=
  ⟨.ofActivities "p" "P" "main" [flow, first, pause milliseconds, write, second], .default, ⟨0, 0⟩⟩

/-- The instance that the branches are executed on. -/
def scene : Scene := ⟨.new "i-1" "p" [] "oracle", #[]⟩

variable {milliseconds : Nat} {activity : Activity}

/-- The first branch has a wait and an assignment in it. -/
theorem of_reaches_first (reaches : (program milliseconds).definition.Reaches "first" activity) :
    activity ∈ [first, pause milliseconds, write] := by
  refine @Definition.Reaches.of_closed _ ["first", "pause", "write"]
    (· ∈ [first, pause milliseconds, write]) ?_ _ _ reaches List.mem_cons_self
  have firstFound : (program milliseconds).definition.activity? "first" = some first := rfl
  have pauseFound : (program milliseconds).definition.activity? "pause" = some (pause milliseconds) :=
    rfl
  have writeFound : (program milliseconds).definition.activity? "write" = some write := rfl
  simp [firstFound, pauseFound, writeFound, first, pause, write]

/-- The second branch is an assignment. -/
theorem of_reaches_second (reaches : (program milliseconds).definition.Reaches "second" activity) :
    activity = second := by
  refine @Definition.Reaches.of_closed _ ["second"] (· = second) ?_ _ _ reaches List.mem_cons_self
  have secondFound : (program milliseconds).definition.activity? "second" = some second := rfl
  simp [secondFound, second]

/-- Both branches are made of sequences, assignments and waits. -/
theorem straight : (program milliseconds).definition.Straight flow.children := by
  intro id present activity reaches
  simp only [flow, List.mem_cons, List.not_mem_nil, or_false] at present
  rcases present with rfl | rfl
  · have among := of_reaches_first reaches
    simp only [List.mem_cons, List.not_mem_nil, or_false] at among
    rcases among with rfl | rfl | rfl <;> simp [first, pause, write]
  · rw [of_reaches_second reaches]
    simp [second]

/-- Neither branch writes what the other one reads or writes. -/
theorem independent : (program milliseconds).definition.Independent flow.children := by
  refine List.pairwise_pair.mpr fun one other reachesOne reachesOther isAssign _ => ?_
  have among := of_reaches_first reachesOne
  simp only [List.mem_cons, List.not_mem_nil, or_false] at among
  rw [of_reaches_second reachesOther]
  rcases among with rfl | rfl | rfl
  · cases isAssign
  · cases isAssign
  · simp only [write, second, List.mem_singleton, forall_eq]
    exact ⟨by decide, by decide, by decide⟩

/-- What each of the branches performs. -/
theorem parts : (program milliseconds).Parts flow.children [write.copies, second.copies] where
  paired := rfl
  assigns index id part isId isPart := by
    match index with
    | 0 =>
        cases isId
        cases isPart
        have performs : (program milliseconds).Assigns ["write"] (write.copies ++ []) :=
          .assign rfl rfl .nil
        have waits : (program milliseconds).Assigns first.children (write.copies ++ []) :=
          .wait rfl rfl rfl performs
        exact .sequence rfl rfl waits .nil
    | 1 =>
        cases isId
        cases isPart
        exact @Program.Assigns.assign _ "second" [] second [] rfl rfl .nil

/-- Programs that differ in the length of the wait only are retimings of each other. -/
theorem retimes (changed : Nat) :
    (program changed).Retimes (program milliseconds) flow.children where
  untimed id := by
    have same : (program changed).definition.activities.map Activity.untimed =
        (program milliseconds).definition.activities.map Activity.untimed := rfl
    have found := congrArg (List.find? fun activity => activity.id = id) same
    rw [List.find?_map, List.find?_map] at found
    exact found
  told id present activity reaches isWait := by
    simp only [flow, List.mem_cons, List.not_mem_nil, or_false] at present
    rcases present with rfl | rfl
    · have among := of_reaches_first reaches
      simp only [List.mem_cons, List.not_mem_nil, or_false] at among
      rcases among with rfl | rfl | rfl
      · cases isWait
      · exact ⟨_, rfl⟩
      · cases isWait
    · rw [of_reaches_second reaches] at isWait
      cases isWait

end PausedBranch

/-- Two independent branches of which the first waits leave what they leave one after the other with
another wait. -/
theorem paused_branches_commute : ∃ moves next others final,
    Thread.Steps (PausedBranch.program 10) PausedBranch.scene
        (.ofTask ((PausedBranch.program 10).execute PausedBranch.flow)) moves next
        (.ended (.ok .completed)) ∧
      Thread.Steps (PausedBranch.program 20) PausedBranch.scene
          (.ofTask ((PausedBranch.program 20).execute PausedBranch.sequence)) others final
          (.ended (.ok .completed)) ∧
        next.subject.bag = [("x", .integer 1), ("y", .integer 2)] ∧
          final.subject.bag = next.subject.bag := by
  have separate := (@PausedBranch.parts 10).separate PausedBranch.independent
  obtain ⟨moves, next, moved, isBag, _⟩ :=
    ((@PausedBranch.parts 10).execute separate (.inl rfl)).completes PausedBranch.scene []
      [("x", .integer 1), ("y", .integer 2)] rfl rfl
  have ended := moved.step .finish
  obtain ⟨sameBag, others, final, alsoMoved⟩ :=
    independent_branches_commute rfl PausedBranch.straight PausedBranch.independent rfl ended _
      (PausedBranch.retimes 20) PausedBranch.sequence (.inr rfl) rfl PausedBranch.scene rfl rfl
  exact ⟨_, next, others, final, ended, alsoMoved, isBag, (sameBag others final _ alsoMoved).2⟩

end Orchestration
