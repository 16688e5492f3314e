import Orchestration.Proofs.Bookkeeping

/-!
# Which scope is undone first

A plan has its scopes in the order of the statuses, the last one first, and a status stays at the place
that it got when its activity first began. So of two scopes the one comes first in a plan whose first
execution began last, whatever was executed again since.

Scopes that run one after the other are undone in the reverse order as long as each of them runs once.
A scope that runs again after another one is still undone after it.
-/

namespace Orchestration

/-- Of two in a list, the one comes first or the other. -/
theorem pair_sublist_or {first second : String} {ids : List String} (different : first ≠ second)
    (hasFirst : first ∈ ids) (hasSecond : second ∈ ids) :
    [first, second].Sublist ids ∨ [second, first].Sublist ids := by
  induction ids with
  | nil => cases hasFirst
  | cons id rest inductionHypothesis =>
      rcases List.mem_cons.mp hasFirst with rfl | firstInRest
      · have inRest := (List.mem_cons.mp hasSecond).resolve_left different.symm
        exact .inl ((List.singleton_sublist.mpr inRest).cons_cons first)
      · rcases List.mem_cons.mp hasSecond with rfl | secondInRest
        · exact .inr ((List.singleton_sublist.mpr firstInRest).cons_cons second)
        · exact (inductionHypothesis firstInRest secondInRest).imp (.cons id) (.cons id)

/-- What comes before what once there is one more at the end. -/
theorem pair_sublist_concat_iff {first second last : String} {ids : List String} :
    [first, second].Sublist (ids ++ [last]) ↔
      [first, second].Sublist ids ∨ (second = last ∧ first ∈ ids) := by
  constructor
  · intro sublist
    obtain ⟨front, back, placed, inFront, inBack⟩ := List.sublist_append_iff.mp sublist
    rcases List.sublist_singleton.mp inBack with rfl | rfl
    · rw [List.append_nil] at placed
      exact .inl (placed ▸ inFront)
    · have paired : [first] ++ [second] = front ++ [last] := placed
      obtain ⟨rfl, same⟩ := List.append_inj' paired rfl
      exact .inr ⟨List.singleton_inj.mp same, List.singleton_sublist.mp inFront⟩
  · rintro (earlier | ⟨rfl, isFirst⟩)
    · exact earlier.trans (List.sublist_append_left ids [last])
    · exact (List.singleton_sublist.mpr isFirst).append (List.Sublist.refl [second])

/-- One more id at the end changes nothing about the places before it. -/
theorem idxOf_concat_lt_iff {id last : String} {ids : List String} {place : Nat}
    (inside : place ≤ ids.length) : (ids ++ [last]).idxOf id < place ↔ ids.idxOf id < place := by
  by_cases present : id ∈ ids
  · rw [List.idxOf_append_of_mem present]
  · have absent : ids.idxOf id = ids.length := List.idxOf_eq_length present
    rw [List.idxOf_append_of_notMem present]
    omega

/-- Where every id is kept at its first place only, those come in the order of their first places. -/
theorem pair_sublist_eraseDups_iff {first second : String} {ids : List String} :
    [first, second].Sublist ids.eraseDups ↔ second ∈ ids ∧ ids.idxOf first < ids.idxOf second := by
  induction ids using List.reverseRecOn with
  | nil => simp
  | append_singleton ids last inductionHypothesis =>
      by_cases isSecond : second ∈ ids
      · have unchanged : [first, second].Sublist (ids ++ [last]).eraseDups ↔
            [first, second].Sublist ids.eraseDups := by
          rw [List.eraseDups_append]
          by_cases present : last ∈ ids
          · simp [List.removeAll, present]
          · have different : second ≠ last := fun same => present (same ▸ isSecond)
            simp [List.removeAll, present, List.eraseDups_cons, pair_sublist_concat_iff, different]
        rw [unchanged, inductionHypothesis, List.idxOf_append_of_mem isSecond,
          idxOf_concat_lt_iff List.idxOf_le_length]
        simp [isSecond]
      · by_cases same : second = last
        · subst same
          have place : (ids ++ [second]).idxOf second = ids.length := by
            simp [List.idxOf_append_of_notMem isSecond]
          rw [place, idxOf_concat_lt_iff le_rfl, List.idxOf_lt_length_iff, List.eraseDups_append]
          simp [List.removeAll, isSecond, List.eraseDups_cons, pair_sublist_concat_iff,
            inductionHypothesis]
        · refine iff_of_false (fun earlier => ?_) (by simp [isSecond, same])
          have present := List.mem_eraseDups.mp (earlier.subset (by simp : second ∈ [first, second]))
          simp [isSecond, same] at present

/-- Of those that are kept, two come in the order of their first places. -/
theorem pair_sublist_iff_of_sublist {first second : String} {shorter ids : List String}
    (sublist : shorter.Sublist ids.eraseDups) (different : first ≠ second) (hasFirst : first ∈ shorter)
    (hasSecond : second ∈ shorter) :
    [first, second].Sublist shorter ↔ ids.idxOf first < ids.idxOf second := by
  constructor
  · intro earlier
    exact (pair_sublist_eraseDups_iff.mp (earlier.trans sublist)).2
  · intro earlier
    refine (pair_sublist_or different hasFirst hasSecond).resolve_right fun later => ?_
    have reversed := (pair_sublist_eraseDups_iff.mp (later.trans sublist)).2
    exact absurd earlier (Nat.lt_asymm reversed)

/-- What is made of some of a list, if something stays of each, is among that of the whole list. -/
theorem map_filterMap_sublist {α β γ : Type} {choose : α → Option β} {kept : β → γ} {whole : α → γ}
    (same : ∀ one chosen, choose one = some chosen → kept chosen = whole one) {list : List α} :
    ((list.filterMap choose).map kept).Sublist (list.map whole) := by
  induction list with
  | nil => exact .slnil
  | cons one rest inductionHypothesis =>
      rw [List.map_cons, List.filterMap_cons]
      split
      · exact inductionHypothesis.cons _
      · rename_i chosen isChosen
        rw [List.map_cons, same one chosen isChosen]
        exact inductionHypothesis.cons_cons _

namespace Instance

variable {definition : Definition} {target : Option String} {subject : Instance}

/-- The scopes of a plan, taken backwards, are among the activities in the order of the statuses. -/
theorem scopeIds_reverse_sublist_keys :
    ((subject.compensationPlan definition target).map CompensationStep.scopeId).reverse.Sublist
      subject.keys := by
  unfold compensationPlan keys
  rw [List.map_reverse, List.reverse_reverse]
  refine map_filterMap_sublist fun ⟨id, status⟩ step chosen => ?_
  dsimp only at chosen
  split at chosen
  · obtain ⟨activity, found, planned⟩ := Option.bind_eq_some_iff.mp chosen
    split at planned
    · obtain ⟨handler, _, rfl⟩ := Option.map_eq_some_iff.mp planned
      exact Definition.id_of_activity? found
    · cases planned
  · cases chosen

/-- The one of two scopes comes first in a plan that first began last. -/
theorem Booked.precedes_iff {begun : List String} {executes : String → Prop} {noted : Definition}
    {first second : String} (booked : subject.Booked noted begun executes)
    (different : first ≠ second)
    (hasFirst : first ∈ (subject.compensationPlan definition target).map CompensationStep.scopeId)
    (hasSecond : second ∈ (subject.compensationPlan definition target).map CompensationStep.scopeId) :
    [second, first].Sublist
        ((subject.compensationPlan definition target).map CompensationStep.scopeId) ↔
      begun.idxOf first < begun.idxOf second := by
  have sublist := @scopeIds_reverse_sublist_keys definition target subject
  rw [booked.order] at sublist
  rw [← pair_sublist_iff_of_sublist sublist different (List.mem_reverse.mpr hasFirst)
    (List.mem_reverse.mpr hasSecond), ← List.reverse_sublist]
  rfl

end Instance

/-- That an activity has begun before another one first did. -/
def BeganBefore (earlier later : String) (stages : List Stage) : Prop :=
  (Stage.begunOf stages).idxOf earlier < (Stage.begunOf stages).idxOf later

/-- That the latest execution of one activity began when the latest one of another had completed. -/
def RanAfter (earlier later : String) (stages : List Stage) : Prop :=
  ∃ before stage after, stages = before ++ stage :: after ∧ stage.Does (Move.Enters later) ∧
    Since (Stage.Does (Move.Completes earlier)) (Stage.Does (Move.Enters earlier)) before ∧
      ∀ next ∈ after, ¬ next.Does (Move.Enters earlier) ∧ ¬ next.Does (Move.Enters later)

/-- That of two scopes of a plan always the one that ran after the other comes first. -/
def LastInFirstOut (steps : List CompensationStep) (stages : List Stage) : Prop :=
  ∀ earlier later, earlier ≠ later → earlier ∈ steps.map CompensationStep.scopeId →
    later ∈ steps.map CompensationStep.scopeId → RanAfter earlier later stages →
      [later, earlier].Sublist (steps.map CompensationStep.scopeId)

open Snapshot (History Steps stagesOf)

/-- Of two scopes of a plan the one comes first that first began last. So a plan undoes what ran last
first exactly if a scope that ran after another one always began after it to begin with. -/
theorem plan_last_in_first_out_iff {settings : Settings} {naming : Naming} {now : Timestamp}
    {moments : List Snapshot.Moment} {state next : Snapshot} {id : String} {definition : Definition}
    {target : Option String} {steps : List CompensationStep}
    (history : History (.new settings naming now) moments state)
    (transition : Snapshot.Step state (.done id (.moved (.performed (.plan definition target) steps)))
      next) :
    (∀ first second, first ≠ second → first ∈ steps.map CompensationStep.scopeId →
      second ∈ steps.map CompensationStep.scopeId →
        ([second, first].Sublist (steps.map CompensationStep.scopeId) ↔
          BeganBefore first second (stagesOf id moments))) ∧
      (LastInFirstOut steps (stagesOf id moments) ↔
        ∀ earlier later, earlier ≠ later → earlier ∈ steps.map CompensationStep.scopeId →
          later ∈ steps.map CompensationStep.scopeId →
            RanAfter earlier later (stagesOf id moments) →
              BeganBefore earlier later (stagesOf id moments)) := by
  have precedes : ∀ first second, first ≠ second → first ∈ steps.map CompensationStep.scopeId →
      second ∈ steps.map CompensationStep.scopeId →
        ([second, first].Sublist (steps.map CompensationStep.scopeId) ↔
          BeganBefore first second (stagesOf id moments)) := by
    obtain ⟨situation, last, found, _, happened⟩ := history.exists_step_of_moved transition
    obtain ⟨entry, isEntry, _⟩ := Option.map_eq_some_iff.mp (Snapshot.instance?_of_situation? found)
    have known : state.definition? id = some entry.definition := by
      simp [Snapshot.definition?, isEntry]
    have booked := ((history.life found).booked (history.definition_eq known)).1
    cases happened with
    | move moved =>
        obtain ⟨_, rfl⟩ := Prod.mk.inj moved.acts
        exact fun first second => booked.precedes_iff
  refine ⟨precedes, forall₅_congr fun earlier later different hasEarlier hasLater => ?_⟩
  rw [precedes earlier later different hasEarlier hasLater]

namespace RanAfter

variable {id earlier later : String} {moments : List Snapshot.Moment} {move : Move}
  {after : Snapshot} {situation : Situation}

/-- An activity that begins runs after one that has completed. -/
theorem now (found : after.situation? id = some situation) (enters : move.Enters later)
    (since : Since (Stage.Does (Move.Completes earlier)) (Stage.Does (Move.Enters earlier))
      (stagesOf id moments)) :
    RanAfter earlier later (stagesOf id (moments ++ [⟨.done id (.moved move), after⟩])) := by
  rw [Snapshot.stagesOf_moved found]
  exact ⟨stagesOf id moments, _, [], rfl, Stage.does_moved_iff.mpr enters, since, by simp⟩

/-- That stays so until one of them begins again. -/
theorem moved (found : after.situation? id = some situation)
    (still : ¬ move.Enters earlier ∧ ¬ move.Enters later)
    (ranAfter : RanAfter earlier later (stagesOf id moments)) :
    RanAfter earlier later (stagesOf id (moments ++ [⟨.done id (.moved move), after⟩])) := by
  rw [Snapshot.stagesOf_moved found]
  obtain ⟨before, entering, past, placed, enters, since, nothing⟩ := ranAfter
  refine ⟨before, entering, past ++ [⟨.moved move, situation⟩], by simp [placed], enters, since,
    fun next present => ?_⟩
  rcases List.mem_append.mp present with inside | isLast
  · exact nothing next inside
  · rw [List.mem_singleton.mp isLast]
    simpa using still

end RanAfter

namespace RepeatedFirst

/-- Undoes the first scope, by doing nothing. -/
def undoFirst : Activity := { id := "undo_a", kind := .empty }

/-- Undoes the second scope, by doing nothing. -/
def undoSecond : Activity := { id := "undo_b", kind := .empty }

/-- The scope that is executed twice. -/
def first : Activity := { id := "a", kind := .scope, compensationHandler := some "undo_a" }

/-- The scope that is executed in between. -/
def second : Activity := { id := "b", kind := .scope, compensationHandler := some "undo_b" }

/-- Undoes what has completed. -/
def revert : Activity := { id := "revert", kind := .compensate }

/-- Runs the first scope once more after the second one, and undoes both. -/
def main : Activity := { id := "main", kind := .sequence, children := ["a", "b", "a", "revert"] }

/-- A process whose first scope is executed again after its second one. -/
def definition : Definition :=
  .ofActivities "p" "P" "main" [main, first, second, revert, undoFirst, undoSecond]

/-- The plan has the second scope first, which completed before the first one ran again. -/
theorem planned : ∃ moments state occurrence next,
    History (.new .default (.numbered "i-") ⟨0, 0⟩) moments state ∧
      Snapshot.Step state occurrence next ∧
        occurrence = .done "i-1" (.moved (.performed (.plan definition none)
          [⟨"b", "undo_b"⟩, ⟨"a", "undo_a"⟩])) ∧
          RanAfter "b" "a" (stagesOf "i-1" moments) := by
  have started := Engine.steps_start .default (.numbered "i-") ⟨0, 0⟩ definition "oracle" rfl rfl rfl
  obtain ⟨_, moved⟩ := Thread.steps_advance _ 0 6 _ _
  obtain ⟨past, executing⟩ := started.trans (Engine.steps_leave [] [] rfl moved)
  have completed := executing.step (@Snapshot.Step.move _ [] [] _ _ _ _ _ rfl rfl .leave)
  have asked := completed.step (@Snapshot.Step.move _ [] [] _ _ _ _ _ rfl rfl .act)
  have again := asked.step (@Snapshot.Step.move _ [] [] _ _ _ _ _ rfl rfl
    (@Thread.Step.enter _ _ _ ⟨first, .part, _⟩))
  have left := again.step (@Snapshot.Step.move _ [] [] _ _ _ _ _ rfl rfl .leave)
  have askedLast := left.step (@Snapshot.Step.move _ [] [] _ _ _ _ _ rfl rfl .act)
  have reverting := askedLast.step (@Snapshot.Step.move _ [] [] _ _ _ _ _ rfl rfl
    (@Thread.Step.enter _ _ _ ⟨revert, .part, _⟩))
  refine ⟨_, _, _, _, reverting, @Snapshot.Step.move _ [] [] _ _ _ _ _ rfl rfl .act, rfl, ?_⟩
  have isOther : ¬ revert.id = "b" ∧ ¬ revert.id = "a" := by decide
  refine .moved rfl isOther ?_
  refine .moved rfl ⟨id, id⟩ ?_
  refine .moved rfl ⟨id, id⟩ ?_
  refine .now rfl rfl ?_
  refine Snapshot.since_moved rfl (fun enters => (Stage.does_moved_iff.mp enters).elim) ?_
  exact Snapshot.since_now rfl (Stage.does_moved_iff.mpr ⟨rfl, rfl⟩)

end RepeatedFirst

/-- A plan can have a scope first although another one ran after it. -/
theorem exists_plan_out_of_order : ∃ moments state next,
    History (.new .default (.numbered "i-") ⟨0, 0⟩) moments state ∧
      Snapshot.Step state (.done "i-1" (.moved (.performed (.plan RepeatedFirst.definition none)
        [⟨"b", "undo_b"⟩, ⟨"a", "undo_a"⟩]))) next ∧
        ¬ LastInFirstOut [⟨"b", "undo_b"⟩, ⟨"a", "undo_a"⟩] (stagesOf "i-1" moments) := by
  obtain ⟨moments, state, _, next, history, transition, rfl, ranAfter⟩ := RepeatedFirst.planned
  refine ⟨moments, state, next, history, transition, fun ordered => ?_⟩
  have swapped : ["a", "b"].Sublist ["b", "a"] :=
    ordered "b" "a" (by decide) (by simp) (by simp) ranAfter
  exact absurd swapped (by decide)

/-- The scope that ran last had begun before the other one first did. -/
theorem exists_began_before : ∃ moments state next,
    History (.new .default (.numbered "i-") ⟨0, 0⟩) moments state ∧
      Snapshot.Step state (.done "i-1" (.moved (.performed (.plan RepeatedFirst.definition none)
        [⟨"b", "undo_b"⟩, ⟨"a", "undo_a"⟩]))) next ∧
        RanAfter "b" "a" (stagesOf "i-1" moments) ∧
          BeganBefore "a" "b" (stagesOf "i-1" moments) := by
  obtain ⟨moments, state, _, next, history, transition, rfl, ranAfter⟩ := RepeatedFirst.planned
  refine ⟨moments, state, next, history, transition, ranAfter, ?_⟩
  have precedes := (plan_last_in_first_out_iff history transition).1
  exact (precedes "a" "b" (by decide) (by simp) (by simp)).mp (.refl _)

end Orchestration
