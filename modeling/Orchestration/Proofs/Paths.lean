import Orchestration.Proofs.Footprints

/-!
# Paths as lenses

Reading and writing sort each segment of a path by the container it meets: an index in a list, a key in a
record, and anything else makes room for a new record. Both sort it in the same way, so a write is found
by the next reading, a second write leaves nothing of the first one, and writing back what was read
changes nothing.
-/

namespace Orchestration

namespace Bag

variable {key : String}

/-- A variable that was written is there. -/
theorem contains_insert_self (key : String) (value : Value) (bag : Bag) :
    contains key (insert key value bag) = true := by
  rw [contains, find?_insert_self]
  rfl

/-- The value that was written last replaces the other one. -/
theorem replace_replace_self (first second : Value) (bag : Bag) :
    replace key second (replace key first bag) = replace key second bag := by
  induction bag with
  | nil => rfl
  | cons entry rest inductionHypothesis =>
      obtain ⟨name, old⟩ := entry
      by_cases same : name = key
      · simp [replace, same]
      · simp [replace, same, inductionHypothesis]

/-- An entry that was added is the first one of its key. -/
theorem replace_addSorted_self (first second : Value) {bag : Bag} (absent : contains key bag = false) :
    replace key second (addSorted key first bag) = addSorted key second bag := by
  induction bag with
  | nil => simp [addSorted, replace]
  | cons entry rest inductionHypothesis =>
      obtain ⟨name, old⟩ := entry
      have different : name ≠ key := by
        rintro rfl
        simp [contains, find?] at absent
      have absentRest : contains key rest = false := by
        simpa [contains, find?, different] using absent
      by_cases earlier : key < name
      · simp [addSorted, replace, earlier]
      · simp [addSorted, replace, earlier, different, inductionHypothesis absentRest]

/-- Of two values written under one key the second one stays. -/
theorem insert_insert_self (first second : Value) (bag : Bag) :
    insert key second (insert key first bag) = insert key second bag := by
  rw [insert.eq_def key second (insert key first bag), if_pos (contains_insert_self key first bag)]
  unfold insert
  cases present : contains key bag with
  | true => exact replace_replace_self first second bag
  | false => exact replace_addSorted_self first second present

/-- Writing back the value of a key changes nothing. -/
theorem insert_of_find? {value : Value} {bag : Bag} (found : bag.find? key = some value) :
    insert key value bag = bag := by
  have present : contains key bag = true := by simp [contains, found]
  rw [insert, if_pos present]
  clear present
  induction bag with
  | nil => rfl
  | cons entry rest inductionHypothesis =>
      obtain ⟨name, old⟩ := entry
      by_cases same : name = key
      · simp_all [find?, replace]
      · simp only [find?, same, if_false] at found
        simp [replace, same, inductionHypothesis found]

end Bag

namespace Value

section Items

variable {items : List Value} {index : Nat}

/-- The item that was written last replaces the other one. -/
theorem putItem_putItem (first second : Value) :
    putItem (putItem items index first) index second = putItem items index second := by
  by_cases inside : index < items.length
  · simp [putItem, inside]
  · have padded : index < items.length + (index - items.length + 1) := by omega
    simp [putItem, inside, padded, List.set_append]

/-- Writing the item that is there changes nothing. -/
theorem putItem_of_getElem? {item : Value} (found : items[index]? = some item) :
    putItem items index item = items := by
  obtain ⟨inside, rfl⟩ := List.getElem?_eq_some_iff.mp found
  rw [putItem, if_pos inside, List.set_getElem_self]

/-- Padding makes a list longer, so an index within its reach stays within reach. -/
theorem length_le_length_putItem (items : List Value) (index : Nat) (item : Value) :
    items.length ≤ (putItem items index item).length := by
  unfold putItem
  split
  · simp
  · simp only [List.length_append]
    omega

end Items

/-- Of two values written at one place the second one stays. -/
theorem write_write (segments : List String) (first second old : Value) :
    write segments second (write segments first old) = write segments second old := by
  induction segments generalizing old with
  | nil => cases old <;> rfl
  | cons segment rest inductionHypothesis =>
      cases old with
      | list items =>
          cases isIndex : Path.index? segment with
          | some index =>
              simp [write, isIndex, getElem?_putItem, putItem_putItem, inductionHypothesis]
          | none =>
              simp [write, isIndex, Bag.find?, Bag.insert, Bag.contains, Bag.replace, inductionHypothesis]
      | record entries =>
          simp [write, Bag.find?_insert_self, Bag.insert_insert_self, inductionHypothesis]
      | _ => simp [write, Bag.find?, Bag.insert, Bag.contains, Bag.replace, inductionHypothesis]

/-- Writing back what a path leads to changes nothing. -/
theorem write_of_follow? {segments : List String} {value old : Value}
    (found : follow? segments old = some value) : write segments value old = old := by
  induction segments generalizing old with
  | nil =>
      obtain rfl : old = value := by simpa [follow?] using found
      cases old <;> rfl
  | cons segment rest inductionHypothesis =>
      cases old with
      | list items =>
          simp only [follow?, Option.bind_eq_some_iff] at found
          obtain ⟨index, isIndex, item, there, found⟩ := found
          simp [write, isIndex, there, inductionHypothesis found, putItem_of_getElem? there]
      | record entries =>
          simp only [follow?, Option.bind_eq_some_iff] at found
          obtain ⟨item, there, found⟩ := found
          simp [write, there, inductionHypothesis found, Bag.insert_of_find? there]
      | _ => simp [follow?] at found

/-- Nothing overreaches where there is nothing. -/
@[simp]
theorem overreach?_none (segments : List String) : overreach? segments none = none := by
  cases segments <;> rfl

/-- Where the first segments of a path lead somewhere, every index of theirs is within its list, and what is
left is whether the others reach on from there. -/
theorem overreach?_append {common : List String} {old node : Value}
    (leads : follow? common old = some node) (rest : List String) :
    overreach? (common ++ rest) (some old) = overreach? rest (some node) := by
  induction common generalizing old with
  | nil =>
      cases leads
      rfl
  | cons segment common inductionHypothesis =>
      cases old with
      | list items =>
          simp only [follow?, Option.bind_eq_some_iff] at leads
          obtain ⟨index, isIndex, item, there, leads⟩ := leads
          obtain ⟨inside, _⟩ := List.getElem?_eq_some_iff.mp there
          have near : ¬ items.length + Path.maximumPadding < index := by omega
          simp [overreach?, isIndex, near, there, inductionHypothesis leads]
      | record entries =>
          simp only [follow?, Option.bind_eq_some_iff] at leads
          obtain ⟨item, there, leads⟩ := leads
          simp [overreach?, there, inductionHypothesis leads]
      | _ => cases leads

/-- Where a path leads somewhere, every index on it is within its list. -/
theorem overreach?_of_follow? {segments : List String} {value old : Value}
    (found : follow? segments old = some value) : overreach? segments (some old) = none := by
  have reached := overreach?_append found []
  rwa [List.append_nil] at reached

/-- What could be written can be written again. -/
theorem overreach?_write {segments : List String} {old? : Option Value} (value : Value)
    (reached : overreach? segments old? = none) :
    overreach? segments (some (write segments value (old?.getD .null))) = none := by
  -- The old value is optional, since a write goes on where the structure that is there ends.
  induction segments generalizing old? with
  | nil => rfl
  | cons segment rest inductionHypothesis =>
      have fresh : overreach? rest (some (write rest value .null)) = none :=
        @inductionHypothesis none (overreach?_none rest)
      rcases old? with _ | old
      · simp [write, overreach?, Bag.find?, fresh]
      · cases old with
        | list items =>
            cases isIndex : Path.index? segment with
            | some index =>
                simp only [overreach?, isIndex] at reached
                split at reached
                · cases reached
                · rename_i within
                  have longer := length_le_length_putItem items index
                    (write rest value (items[index]?.getD .null))
                  have stillWithin : ¬ (putItem items index
                      (write rest value (items[index]?.getD .null))).length +
                        Path.maximumPadding < index := by omega
                  simp [write, overreach?, isIndex, stillWithin, getElem?_putItem,
                    inductionHypothesis reached]
            | none => simp [write, overreach?, isIndex, Bag.find?, fresh]
        | record entries =>
            simp only [overreach?] at reached
            simp [write, overreach?, Bag.find?_insert_self, inductionHypothesis reached]
        | _ => simp [write, overreach?, Bag.find?, fresh]

end Value

namespace Bag

variable {path : String} {value : Value} {bag next : Bag}

/-- Writing a path is writing its segments into the bag as a record. -/
theorem record_put (path : String) (value : Value) (bag : Bag) :
    .record (put (Path.segments path) value bag) =
      Value.write (Path.segments path) value (.record bag) := by
  rw [Path.segments_eq path]
  rfl

/-- A write succeeds exactly when every index on the way is within reach. -/
theorem set_eq_ok_iff :
    bag.set path value = .ok next ↔
      Value.overreach? (Path.segments path) (some (.record bag)) = none ∧
        .record next = Value.write (Path.segments path) value (.record bag) := by
  rw [← record_put, Value.record.injEq, set]
  cases Value.overreach? (Path.segments path) (some (.record bag)) with
  | some place => simp
  | none => simp [eq_comm]

end Bag

/-- A way to read a part of a whole that may be missing, and to write it unless that is refused, in which
writing and reading agree. -/
structure IsLens {Whole Part Refusal : Type} (read : Whole → Option Part)
    (write : Part → Whole → Except Refusal Whole) : Prop where
  /-- What was written is read. -/
  read_of_write {part : Part} {whole next : Whole} (written : write part whole = .ok next) :
    read next = some part
  /-- After one write another one succeeds, and leaves what it would have left in the first place. -/
  write_of_write {part : Part} {whole next : Whole} (written : write part whole = .ok next)
    (other : Part) : ∃ final, write other next = .ok final ∧ write other whole = .ok final
  /-- Writing what was read succeeds and changes nothing. -/
  write_of_read {part : Part} {whole : Whole} (found : read whole = some part) :
    write part whole = .ok whole

/-- Every path is a lens into bags. -/
theorem isLens_path (path : String) :
    IsLens (Bag.get? path) (fun value bag => Bag.set path value bag) where
  read_of_write := Bag.get?_of_set
  write_of_write := by
    intro value bag next written other
    obtain ⟨reached, whole⟩ := Bag.set_eq_ok_iff.mp written
    have again := Value.overreach?_write value reached
    have left := Value.write_write (Path.segments path) value other (.record bag)
    rw [Option.getD_some, ← whole] at again
    rw [← whole] at left
    refine ⟨Bag.put (Path.segments path) other bag, ?_, ?_⟩
    · exact Bag.set_eq_ok_iff.mpr ⟨again, (Bag.record_put path other bag).trans left.symm⟩
    · exact Bag.set_eq_ok_iff.mpr ⟨reached, Bag.record_put path other bag⟩
  write_of_read := by
    intro value bag found
    refine Bag.set_eq_ok_iff.mpr ⟨Value.overreach?_of_follow? found, ?_⟩
    exact (Value.write_of_follow? found).symm

example : Bag.set "items.02.sku" (.text "B") [("items", .list [.integer 1])] =
    .ok [("items", .list [.integer 1, .null, .record [("sku", .text "B")]])] := by
  rfl

end Orchestration
