import Orchestration.Proofs.Paths

/-!
# What a write leaves alone

Two paths part where their segments differ for the first time. Up to there a write may put records and
padded lists in place of what it meets, but only where reading finds nothing; from there on it goes another
way than the path that is read. So what that path leads to is the same before and after the write, as long
as the two parting segments select different places: different keys always do, and of a list different
indexes do, where the one that is read is not in the padding.
-/

namespace Orchestration

namespace Value

/-- An item keeps its place when another one is put. -/
theorem getElem?_putItem_of_ne {items : List Value} {index other : Nat} (item : Value)
    (different : index ≠ other) (inside : other < items.length) :
    (putItem items index item)[other]? = items[other]? := by
  unfold putItem
  split
  · exact List.getElem?_set_ne different
  · rw [List.append_assoc, List.getElem?_append_left inside]

/-- That two segments select different places of a value when the first one is written: of a list, items
that are not the same, where the second one is there already. -/
def Separates (written read : String) (node : Value) : Prop :=
  written ≠ read ∧ ∀ items, node = .list items →
    ∃ index other, Path.index? written = some index ∧ Path.index? read = some other ∧
      index ≠ other ∧ other < items.length

variable {written read : String}

/-- Different segments select different places of what is still to be made. -/
theorem separates_null (different : written ≠ read) : Separates written read .null :=
  ⟨different, nofun⟩

/-- Writing below one segment leaves what another one leads to. -/
theorem follow?_write_of_separates {node : Value} (separates : Separates written read node)
    (writtenRest readRest : List String) (value : Value) :
    follow? (read :: readRest) (write (written :: writtenRest) value node) =
      follow? (read :: readRest) node := by
  obtain ⟨different, apart⟩ := separates
  cases node with
  | list items =>
      obtain ⟨index, other, isIndex, isOther, unequal, inside⟩ := apart items rfl
      simp only [write, isIndex, follow?, isOther, Option.bind_some]
      rw [getElem?_putItem_of_ne _ unequal inside]
  | record entries =>
      simp only [write, follow?]
      rw [Bag.find?_insert_of_ne different.symm]
  | _ => simp [write, follow?, Bag.find?, different]

/-- Writing leaves what a path leads to that parts from the written one at a node, or where there is
nothing. -/
theorem follow?_write_of_parting {common : List String} {old : Value} (different : written ≠ read)
    (parts : ∀ node, follow? common old = some node → Separates written read node)
    (writtenRest readRest : List String) (value : Value) :
    follow? (common ++ read :: readRest) (write (common ++ written :: writtenRest) value old) =
      follow? (common ++ read :: readRest) old := by
  -- Where a segment of the common part leads nowhere, the write goes on from `null`.
  induction common generalizing old with
  | nil => exact follow?_write_of_separates (parts old rfl) writtenRest readRest value
  | cons segment common inductionHypothesis =>
      have fresh : follow? (common ++ read :: readRest)
          (write (common ++ written :: writtenRest) value .null) = none := by
        have nowhere : follow? (common ++ read :: readRest) .null = none := by
          cases common <;> rfl
        rw [← nowhere]
        refine inductionHypothesis fun node found => ?_
        cases common with
        | nil =>
            cases found
            exact separates_null different
        | cons => cases found
      cases old with
      | list items =>
          cases isIndex : Path.index? segment with
          | none => simp [write, follow?, isIndex, Bag.find?, fresh]
          | some index =>
              simp only [List.cons_append, write, isIndex, follow?, getElem?_putItem,
                Option.bind_some]
              cases there : items[index]? with
              | none => exact fresh
              | some item =>
                  exact inductionHypothesis fun node found =>
                    parts node (by simpa [follow?, isIndex, there] using found)
      | record entries =>
          simp only [List.cons_append, write, follow?, Bag.find?_insert_self, Option.bind_some]
          cases there : Bag.find? segment entries with
          | none => exact fresh
          | some item =>
              exact inductionHypothesis fun node found =>
                parts node (by simpa [follow?, there] using found)
      | _ => simp [write, follow?, Bag.find?, fresh]

end Value

open Value in
/-- A write that succeeds leaves what every path leads to that parts from the written one, with neither
going on where the other one ends: if what they lead to in common is no list, and also if it is one and
they go on with different indexes, the index that is read being within the list. -/
theorem get?_of_set_elsewhere {path other : String} {value : Value} {bag next : Bag}
    {common writtenRest readRest : List String} {written read : String}
    (succeeds : bag.set path value = .ok next)
    (writes : Path.segments path = common ++ written :: writtenRest)
    (reads : Path.segments other = common ++ read :: readRest) (different : written ≠ read)
    (apart : ∀ items, follow? common (.record bag) = some (.list items) →
      ∃ index index', Path.index? written = some index ∧ Path.index? read = some index' ∧
        index ≠ index' ∧ index' < items.length) :
    next.get? other = bag.get? other := by
  obtain ⟨_, isNext⟩ := Bag.set_eq_ok_iff.mp succeeds
  rw [Bag.get?, Bag.get?, isNext, writes, reads]
  refine follow?_write_of_parting different (fun node found => ⟨different, ?_⟩) _ _ _
  rintro items rfl
  exact apart items found

namespace PaddedOrder

/-- An order with one item. -/
def stored : Bag := [("order", .record [("items", .list [.record [("sku", .text "A")]])])]

/-- The order once another item has been written two places further on. -/
def padded : Bag :=
  [("order", .record [("items", .list [.record [("sku", .text "A")], .null,
    .record [("sku", .text "B")]])])]

end PaddedOrder

open PaddedOrder in
/-- An item is still read when the list it is in has been padded for another one. -/
theorem get?_of_padded :
    stored.set "order.items.2.sku" (.text "B") = .ok padded ∧
      padded.get? "order.items.00.sku" = stored.get? "order.items.00.sku" := by
  have succeeds : stored.set "order.items.2.sku" (.text "B") = .ok padded := by rfl
  have writes : Path.segments "order.items.2.sku" = ["order", "items"] ++ "2" :: ["sku"] := by rfl
  have reads : Path.segments "order.items.00.sku" = ["order", "items"] ++ "00" :: ["sku"] := by rfl
  refine ⟨succeeds, get?_of_set_elsewhere succeeds writes reads (by decide) fun items found => ?_⟩
  have isList : items = [.record [("sku", .text "A")]] := by
    have known : Value.follow? ["order", "items"] (.record stored) =
        some (.list [.record [("sku", .text "A")]]) := by rfl
    rw [known] at found
    cases found
    rfl
  subst isList
  exact ⟨2, 0, by rfl, by rfl, by decide, by decide⟩

end Orchestration
