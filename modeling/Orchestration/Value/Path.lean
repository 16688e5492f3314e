import Orchestration.Text.Integer
import Orchestration.Text.Separated
import Orchestration.Value.Basic

/-!
# Dotted paths into a bag

A path such as `order.items.0.sku` names a place in a bag. A segment that spells an index selects an
item when it meets a list; every other segment is a key. Reading gives nothing as soon as a segment
is missing. Writing makes the records it needs on the way, replaces whatever is in its way and is not
a container, and pads a list with nulls up to a fixed number of them.
-/

namespace Orchestration

/-- A write that a bag refuses. -/
inductive PathError where
  /-- The index lies further past the end of a list than padding may reach. -/
  | indexOutOfRange (path : String) (index : Nat) (length : Nat)
  deriving DecidableEq, Repr

/-- The wording of a refused write. -/
def PathError.message : PathError → String
  | .indexOutOfRange path index length =>
      s!"index {index} in '{path}' is too far past the end of an array of length {length}"

namespace Path

/-- The largest number of nulls that one write may put in front of its own item. -/
def maximumPadding : Nat := 1024

/-- The segments of a path. There is always a first one, perhaps empty. -/
def segments (path : String) : List String :=
  (Text.splitOn '.' path.toList).map String.ofList

/-- The index that a segment spells. -/
def index? (segment : String) : Option Nat :=
  Text.readWord? segment.toList

end Path

/-- What a list of segments leads to. -/
def Value.follow? : List String → Value → Option Value
  | [], value => some value
  | segment :: rest, .record entries => (Bag.find? segment entries).bind (Value.follow? rest)
  | segment :: rest, .list items =>
      (Path.index? segment).bind fun index => items[index]?.bind (Value.follow? rest)
  | _ :: _, _ => none

/-- The first index on the way that padding cannot reach, with the length of its list. Only what is
there already is followed. -/
def Value.overreach? : List String → Option Value → Option (Nat × Nat)
  | segment :: rest, some (.list items) =>
      match Path.index? segment with
      | some index =>
          if items.length + Path.maximumPadding < index then some (index, items.length)
          else Value.overreach? rest items[index]?
      | none => none
  | segment :: rest, some (.record entries) => Value.overreach? rest (Bag.find? segment entries)
  | _, _ => none

/-- A list with an item at an index, padded with nulls where it was too short. -/
def Value.putItem (items : List Value) (index : Nat) (item : Value) : List Value :=
  if index < items.length then items.set index item
  else items ++ List.replicate (index - items.length) .null ++ [item]

/-- The value that results from writing at the end of a list of segments. -/
def Value.write : List String → Value → Value → Value
  | [], value, _ => value
  | segment :: rest, value, .list items =>
      match Path.index? segment with
      | some index =>
          .list (Value.putItem items index (Value.write rest value (items[index]?.getD .null)))
      | none => .record [(segment, Value.write rest value .null)]
  | segment :: rest, value, .record entries =>
      .record (Bag.insert segment
        (Value.write rest value ((Bag.find? segment entries).getD .null)) entries)
  | segment :: rest, value, _ => .record [(segment, Value.write rest value .null)]

namespace Bag

/-- Reads a path. -/
def get? (path : String) (bag : Bag) : Option Value :=
  Value.follow? (Path.segments path) (.record bag)

/-- True when a path leads to a value other than `null`. -/
def isPopulated (path : String) (bag : Bag) : Bool :=
  (get? path bag).any Value.isPresent

/-- Writes a list of segments, without looking at the indexes on the way. -/
def put (segments : List String) (value : Value) (bag : Bag) : Bag :=
  match segments with
  | [] => bag
  | first :: rest => insert first (Value.write rest value ((find? first bag).getD .null)) bag

/-- Writes a path, unless an index on the way is out of reach. -/
def set (path : String) (value : Value) (bag : Bag) : Except PathError Bag :=
  match Value.overreach? (Path.segments path) (some (.record bag)) with
  | some (index, length) => .error (.indexOutOfRange path index length)
  | none => .ok (put (Path.segments path) value bag)

end Bag

end Orchestration
