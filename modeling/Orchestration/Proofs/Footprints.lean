import Mathlib.Data.String.Basic
import Orchestration.Execution.Action

/-!
# What is read and written

A path is about one top-level variable, the one that its first segment names. Reading it depends on that
variable alone, and writing it changes that variable alone, whatever else the path leads through. An
expression depends on the variables that its references are about.

So copies that have to do with different variables can change places: neither reads nor writes what the
other one writes.
-/

namespace Orchestration

namespace Bag

variable {first second : String}

/-- Writing a variable does not make another one appear. -/
theorem contains_insert_of_ne {key other : String} (different : other ≠ key) (value : Value)
    (bag : Bag) : contains other (insert key value bag) = contains other bag := by
  rw [contains, find?_insert_of_ne different, contains]

/-- The values of two variables may be replaced in either order. -/
theorem replace_replace (different : first ≠ second) (firstValue secondValue : Value) (bag : Bag) :
    replace first firstValue (replace second secondValue bag) =
      replace second secondValue (replace first firstValue bag) := by
  induction bag with
  | nil => rfl
  | cons entry rest inductionHypothesis =>
      obtain ⟨name, old⟩ := entry
      by_cases isFirst : name = first
      · subst isFirst
        simp [replace, different]
      · by_cases isSecond : name = second
        · subst isSecond
          simp [replace, isFirst]
        · simp [replace, isFirst, isSecond, inductionHypothesis]

/-- One variable may be added before or after the value of another one is replaced. -/
theorem replace_addSorted (different : first ≠ second) (firstValue secondValue : Value) (bag : Bag) :
    replace first firstValue (addSorted second secondValue bag) =
      addSorted second secondValue (replace first firstValue bag) := by
  induction bag with
  | nil => simp [addSorted, replace, different.symm]
  | cons entry rest inductionHypothesis =>
      obtain ⟨name, old⟩ := entry
      by_cases isFirst : name = first
      · by_cases before : second < name
        · simp [replace, addSorted, isFirst, isFirst ▸ before, different.symm]
        · simp [replace, addSorted, isFirst, isFirst ▸ before]
      · by_cases before : second < name
        · simp [replace, addSorted, isFirst, before, different.symm]
        · simp [replace, addSorted, isFirst, before, inductionHypothesis]

/-- An earlier variable may be added before or after a later one. -/
theorem addSorted_addSorted_of_lt (earlier : first < second) (firstValue secondValue : Value)
    (bag : Bag) :
    addSorted first firstValue (addSorted second secondValue bag) =
      addSorted second secondValue (addSorted first firstValue bag) := by
  have behind := lt_asymm earlier
  induction bag with
  | nil => simp [addSorted, earlier, behind]
  | cons entry rest inductionHypothesis =>
      obtain ⟨name, old⟩ := entry
      by_cases before : second < name
      · simp [addSorted, before, earlier, earlier.trans before, behind]
      · by_cases firstBefore : first < name <;>
          simp [addSorted, before, firstBefore, behind, inductionHypothesis]

/-- Two variables may be added in either order. -/
theorem addSorted_addSorted (different : first ≠ second) (firstValue secondValue : Value) (bag : Bag) :
    addSorted first firstValue (addSorted second secondValue bag) =
      addSorted second secondValue (addSorted first firstValue bag) := by
  rcases lt_or_gt_of_ne different with earlier | later
  · exact addSorted_addSorted_of_lt earlier firstValue secondValue bag
  · exact (addSorted_addSorted_of_lt later secondValue firstValue bag).symm

/-- Writing two keys leaves the same in either order. -/
theorem insert_insert (different : first ≠ second) (firstValue secondValue : Value) (bag : Bag) :
    insert first firstValue (insert second secondValue bag) =
      insert second secondValue (insert first firstValue bag) := by
  have firstKept := contains_insert_of_ne different secondValue bag
  have secondKept := contains_insert_of_ne different.symm firstValue bag
  rw [insert, firstKept, insert.eq_def second secondValue (insert first firstValue bag), secondKept]
  unfold insert
  by_cases hasFirst : contains first bag = true <;> by_cases hasSecond : contains second bag = true <;>
    simp only [hasFirst, hasSecond, if_true, if_false, Bool.false_eq_true]
  · exact replace_replace different firstValue secondValue bag
  · exact replace_addSorted different firstValue secondValue bag
  · exact (replace_addSorted different.symm secondValue firstValue bag).symm
  · exact addSorted_addSorted different firstValue secondValue bag

end Bag

namespace Path

/-- The top-level variable that a path is about. -/
def root (path : String) : String := (segments path).headD ""

/-- What follows the top-level variable of a path. -/
def inner (path : String) : List String := (segments path).tail

/-- A path is its variable with what is inside of it. -/
theorem segments_eq (path : String) : segments path = root path :: inner path := by
  unfold root inner
  cases parts : segments path with
  | nil =>
      rw [segments, List.map_eq_nil_iff] at parts
      exact absurd parts (Text.splitOn_ne_nil _ _)
  | cons => rfl

/-- The value that the variable of a path gets when the path is written. -/
def rewrite (path : String) (value : Value) (old? : Option Value) : Except PathError Value :=
  match Value.overreach? (inner path) old? with
  | some (index, length) => .error (.indexOutOfRange path index length)
  | none => .ok (Value.write (inner path) value (old?.getD .null))

end Path

namespace Value

/-- An item is found where it was put. -/
theorem getElem?_putItem (items : List Value) (index : Nat) (item : Value) :
    (putItem items index item)[index]? = some item := by
  unfold putItem
  split
  · rename_i inside
    rw [List.getElem?_set_self inside]
  · rename_i outside
    rw [List.getElem?_append_right (by simp; omega)]
    have place : index - (items ++ List.replicate (index - items.length) Value.null).length = 0 := by
      simp
      omega
    rw [place]
    rfl

/-- What was written is found. -/
theorem follow?_write (segments : List String) (value old : Value) :
    follow? segments (write segments value old) = some value := by
  induction segments generalizing old with
  | nil => cases old <;> rfl
  | cons segment rest inductionHypothesis =>
      cases old with
      | list items =>
          unfold write
          split
          · rename_i index isIndex
            simp [follow?, isIndex, getElem?_putItem, inductionHypothesis]
          · simp [follow?, Bag.find?, inductionHypothesis]
      | record entries => simp [write, follow?, Bag.find?_insert_self, inductionHypothesis]
      | _ => simp [write, follow?, Bag.find?, inductionHypothesis]

end Value

namespace Bag

/-- Reading a path is about its variable alone. -/
theorem get?_eq (path : String) (bag : Bag) :
    bag.get? path = (bag.find? (Path.root path)).bind (Value.follow? (Path.inner path)) := by
  rw [get?, Path.segments_eq, Value.follow?]

/-- Writing a path changes its variable, by what that had before. -/
theorem set_eq (path : String) (value : Value) (bag : Bag) :
    bag.set path value = (Path.rewrite path value (bag.find? (Path.root path))).map fun changed =>
      bag.insert (Path.root path) changed := by
  unfold set Path.rewrite
  rw [Path.segments_eq path, Value.overreach?]
  cases Value.overreach? (Path.inner path) (find? (Path.root path) bag) with
  | some place => rfl
  | none => rfl

/-- What was written is read. -/
theorem get?_of_set {path : String} {value : Value} {bag next : Bag}
    (written : bag.set path value = .ok next) : next.get? path = some value := by
  rw [set_eq, Path.rewrite] at written
  split at written
  · cases written
  · cases written
    rw [get?_eq, find?_insert_self, Option.bind_some, Value.follow?_write]

/-- Writing a path leaves other variables alone. -/
theorem find?_of_set {path key : String} {value : Value} {bag next : Bag}
    (written : bag.set path value = .ok next) (different : key ≠ Path.root path) :
    next.find? key = bag.find? key := by
  rw [set_eq] at written
  cases rewritten : Path.rewrite path value (find? (Path.root path) bag) with
  | error error =>
      rw [rewritten] at written
      cases written
  | ok changed =>
      rw [rewritten] at written
      cases written
      exact find?_insert_of_ne different changed bag

end Bag

namespace Expression

/-- The references in an expression. -/
def references (text : String) : List String :=
  (pieces text.toList).filterMap fun piece =>
    match piece with
    | .plain _ => none
    | .reference path => some (String.ofList path)

/-- The references of an expression are the pieces of its text that name a path. -/
theorem mem_references_iff {text : String} {path : List Char} :
    String.ofList path ∈ references text ↔ .reference path ∈ pieces text.toList := by
  refine ⟨fun within => ?_, fun within => List.mem_filterMap.mpr ⟨.reference path, within, rfl⟩⟩
  obtain ⟨piece, within, isReference⟩ := List.mem_filterMap.mp within
  cases piece with
  | plain => cases isReference
  | reference other => exact String.ofList_inj.mp (Option.some.inj isReference) ▸ within

/-- What comes of a text depends on what its references lead to. -/
theorem substitute_congr {text : String} {bag other : Bag}
    (same : ∀ path ∈ references text, bag.get? path = other.get? path) :
    substitute text.toList bag = substitute text.toList other := by
  unfold substitute
  refine List.flatMap_congr fun piece present => ?_
  cases piece with
  | plain character => rfl
  | reference path => simp only [Piece.substitute, same _ (mem_references_iff.mpr present)]

/-- An expression depends on what its references lead to. -/
theorem evaluate_congr {text : String} {bag other : Bag}
    (same : ∀ path ∈ references text, bag.get? path = other.get? path) :
    evaluate text bag = evaluate text other := by
  simp only [evaluate, substitute_congr same]

end Expression

namespace CopySource

/-- The paths that a source reads. -/
def paths : CopySource → List String
  | .literal _ => []
  | .stored path => [path]
  | .expression text => Expression.references text

/-- A source depends on what its paths lead to. -/
theorem resolve_congr {source : CopySource} {bag other : Bag}
    (same : ∀ path ∈ source.paths, bag.get? path = other.get? path) :
    source.resolve bag = source.resolve other := by
  cases source with
  | literal => rfl
  | stored path => simp only [resolve, same path List.mem_cons_self]
  | expression text => simp only [resolve, Expression.evaluate_congr same]

end CopySource

namespace Copy

/-- The variables that a copy reads. -/
def reads (copy : Copy) : List String := copy.source.paths.map Path.root

/-- The variable that a copy writes. -/
def writes (copy : Copy) : String := Path.root copy.target

/-- Performs a copy. -/
def perform (copy : Copy) (bag : Bag) : Except ActivityError Bag :=
  (copy.source.resolve bag).bind fun value => bag.assignPath copy.target value

/-- Performs copies in order, unless one fails. -/
def performAll (copies : List Copy) (bag : Bag) : Except ActivityError Bag :=
  copies.foldlM (fun bag copy => copy.perform bag) bag

/-- What a copy writes to its variable. -/
def outcome (copy : Copy) (bag : Bag) : Except ActivityError Value :=
  (copy.source.resolve bag).bind fun value =>
    (Path.rewrite copy.target value (bag.find? copy.writes)).mapError .path

/-- That neither of two copies reads or writes what the other one writes. -/
def Apart (first second : Copy) : Prop :=
  first.writes ≠ second.writes ∧ first.writes ∉ second.reads ∧ second.writes ∉ first.reads

/-- Copies that are apart are so either way round. -/
theorem Apart.symm {first second : Copy} (apart : first.Apart second) : second.Apart first :=
  ⟨apart.1.symm, apart.2.2, apart.2.1⟩

/-- A copy changes its variable alone. -/
theorem perform_eq (copy : Copy) (bag : Bag) :
    copy.perform bag = (copy.outcome bag).map fun value => bag.insert copy.writes value := by
  unfold perform outcome Bag.assignPath
  cases copy.source.resolve bag with
  | error error => rfl
  | ok value =>
      rw [Except.bind, Except.bind, Bag.set_eq, writes]
      cases Path.rewrite copy.target value (bag.find? (Path.root copy.target)) <;> rfl

/-- What a copy writes does not depend on other variables than those that it reads and writes. -/
theorem outcome_insert {copy : Copy} {key : String} (unwritten : key ≠ copy.writes)
    (unread : key ∉ copy.reads) (value : Value) (bag : Bag) :
    copy.outcome (bag.insert key value) = copy.outcome bag := by
  have resolved : copy.source.resolve (bag.insert key value) = copy.source.resolve bag := by
    refine CopySource.resolve_congr fun path present => ?_
    have different : Path.root path ≠ key := by
      rintro rfl
      exact unread (List.mem_map_of_mem present)
    rw [Bag.get?_eq, Bag.find?_insert_of_ne different, ← Bag.get?_eq]
  rw [outcome, resolved, Bag.find?_insert_of_ne unwritten.symm, outcome]

/-- Of two copies that are apart either may come first. -/
theorem Apart.comm {first second : Copy} (apart : first.Apart second) (bag next : Bag) :
    (first.perform bag).bind second.perform = .ok next ↔
      (second.perform bag).bind first.perform = .ok next := by
  have unchanged (value : Value) := outcome_insert apart.1 apart.2.1 value bag
  have secondUnchanged (value : Value) := outcome_insert apart.1.symm apart.2.2 value bag
  rw [perform_eq first, perform_eq second]
  cases firstOutcome : first.outcome bag <;> cases secondOutcome : second.outcome bag <;>
    simp [Except.map, Except.bind, perform_eq, unchanged, secondUnchanged, firstOutcome, secondOutcome,
      Bag.insert_insert apart.1]

/-- To perform copies is to perform the first one and then the others. -/
theorem performAll_cons (copy : Copy) (copies : List Copy) (bag : Bag) :
    performAll (copy :: copies) bag = (copy.perform bag).bind (performAll copies) := by
  rw [performAll, List.foldlM_cons]
  rfl

/-- Copies may be performed in two goes. -/
theorem performAll_append (first second : List Copy) (bag : Bag) :
    performAll (first ++ second) bag = (performAll first bag).bind (performAll second) := by
  rw [performAll, List.foldlM_append]
  rfl

/-- Copies succeed when the first ones do and then the later ones. -/
theorem performAll_append_eq_ok_iff {first second : List Copy} {bag next : Bag} :
    performAll (first ++ second) bag = .ok next ↔
      ∃ middle, performAll first bag = .ok middle ∧ performAll second middle = .ok next := by
  rw [performAll_append]
  cases performAll first bag <;> simp [Except.bind]

/-- That copies do the same, unless one fails. -/
def Alike (first second : List Copy) : Prop :=
  ∀ bag next, performAll first bag = .ok next ↔ performAll second bag = .ok next

namespace Alike

variable {first second third other : List Copy}

/-- Copies do the same as themselves. -/
theorem refl (copies : List Copy) : Alike copies copies := fun _ _ => .rfl

/-- To do the same is transitive. -/
theorem trans (alike : Alike first second) (also : Alike second third) : Alike first third :=
  fun bag next => (alike bag next).trans (also bag next)

/-- Copies that do the same do so before and after others. -/
theorem append (alike : Alike first second) (also : Alike third other) :
    Alike (first ++ third) (second ++ other) := by
  intro bag next
  simp only [performAll_append_eq_ok_iff, alike bag, also _ next]

/-- Of two copies that are apart either may come first. -/
theorem swap {copy passed : Copy} (apart : copy.Apart passed) :
    Alike [passed, copy] [copy, passed] := by
  intro bag next
  have single (one : Copy) : performAll [one] = one.perform := by
    funext between
    rw [performAll, List.foldlM_cons]
    exact bind_pure _
  rw [performAll_cons, performAll_cons, single, single]
  exact apart.symm.comm bag next

/-- A copy may come before copies that it is apart from. -/
theorem concat {copy : Copy} {copies : List Copy} (apart : ∀ passed ∈ copies, copy.Apart passed) :
    Alike (copies ++ [copy]) (copy :: copies) := by
  induction copies with
  | nil => exact refl [copy]
  | cons passed copies inductionHypothesis =>
      have behind : Alike (copies ++ [copy]) (copy :: copies) :=
        inductionHypothesis fun other present => apart other (List.mem_cons_of_mem _ present)
      exact ((refl [passed]).append behind).trans
        ((swap (apart passed List.mem_cons_self)).append (refl copies))

/-- Copies may come before copies that all of them are apart from. -/
theorem comm (apart : ∀ copy ∈ second, ∀ passed ∈ first, copy.Apart passed) :
    Alike (first ++ second) (second ++ first) := by
  induction second with
  | nil => simpa using refl first
  | cons copy second inductionHypothesis =>
      have behind : Alike (first ++ second) (second ++ first) :=
        inductionHypothesis fun other present => apart other (List.mem_cons_of_mem _ present)
      have moved := (concat (apart copy List.mem_cons_self)).append (refl second)
      rw [List.append_assoc, List.singleton_append, List.cons_append] at moved
      exact moved.trans ((refl [copy]).append behind)

end Alike

/-- An assignment that does not fail performs its copies. -/
theorem assignAll_eq_ok_iff (copies : List Copy) (bag next : Bag) :
    Bag.assignAll copies bag = (next, .ok ()) ↔ performAll copies bag = .ok next := by
  induction copies generalizing bag with
  | nil => simp [Bag.assignAll, performAll, pure, Except.pure]
  | cons copy copies inductionHypothesis =>
      rw [performAll_cons, perform, Bag.assignAll]
      cases copy.source.resolve bag with
      | error error => simp [Except.bind]
      | ok value =>
          cases assigned : bag.assignPath copy.target value with
          | error error => simp [Except.bind, assigned]
          | ok written => simpa [Except.bind, assigned] using inductionHypothesis written

end Copy

end Orchestration
