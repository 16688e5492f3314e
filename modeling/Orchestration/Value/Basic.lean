import Orchestration.Word

/-!
# Values and bags

The data a process works on: numbers, texts, lists and records, as JSON has them. A bag is the
record of a process's variables.

Whole numbers and doubles are told apart: the whole number five and the double five are different
values, although every comparison of numbers goes through doubles. A bag keeps its entries in the
order of their keys, so that writing to a key that is present changes that entry alone and writing
to a new key has one place to go.
-/

namespace Orchestration

/-- A number. Whole numbers fit a word of 64 bits, signed below zero and unsigned above. -/
inductive Number where
  | integer (value : Int)
  | double (value : Float)

/-- The double nearest to a number. -/
def Number.toFloat : Number → Float
  | .integer value => Float.ofInt value
  | .double value => value

/-- A value a variable can have. -/
inductive Value where
  | null
  | boolean (value : Bool)
  | number (value : Number)
  | text (value : String)
  | list (items : List Value)
  | record (entries : List (String × Value))

instance : Inhabited Value := ⟨.null⟩

/-- The variables of a process: values under names. -/
abbrev Bag := List (String × Value)

/-- A whole number as a value. -/
def Value.integer (value : Int) : Value := .number (.integer value)

/-- A double as a value. -/
def Value.double (value : Float) : Value := .number (.double value)

/-- The whole number that a value holds, if it fits a signed word. -/
def Value.integer? : Value → Option Int
  | .number (.integer value) => if Word.isSigned value then some value else none
  | _ => none

/-- True of every value but `null`. -/
def Value.isPresent : Value → Bool
  | .null => false
  | _ => true

namespace Bag

/-- The value under a key. -/
def find? (key : String) : Bag → Option Value
  | [] => none
  | (name, value) :: rest => if name = key then some value else find? key rest

/-- True when a key has a value. -/
def contains (key : String) (bag : Bag) : Bool :=
  (find? key bag).isSome

/-- Changes the first entry of a key that is present. -/
def replace (key : String) (value : Value) : Bag → Bag
  | [] => []
  | (name, old) :: rest =>
      if name = key then (name, value) :: rest else (name, old) :: replace key value rest

/-- Adds an entry in front of the first greater key. -/
def addSorted (key : String) (value : Value) : Bag → Bag
  | [] => [(key, value)]
  | (name, old) :: rest =>
      if key < name then (key, value) :: (name, old) :: rest
      else (name, old) :: addSorted key value rest

/-- Puts a value under a key: in place when the key is present, else at its place in the order. -/
def insert (key : String) (value : Value) (bag : Bag) : Bag :=
  if contains key bag then replace key value bag else addSorted key value bag

/-- Puts every entry of a list under its key, so that later entries win. -/
def insertAll (entries : List (String × Value)) (bag : Bag) : Bag :=
  entries.foldl (fun bag entry => insert entry.1 entry.2 bag) bag

/-- The bag of a list of entries; of entries under one key the last one stays. -/
def ofList (entries : List (String × Value)) : Bag :=
  insertAll entries []

end Bag

mutual

/-- Equality of values without any conversion. Whole numbers equal whole numbers and doubles equal
doubles, never one the other; the two zeros of doubles are equal. -/
def Value.same : Value → Value → Bool
  | .null, .null => true
  | .boolean left, .boolean right => left == right
  | .number (.integer left), .number (.integer right) => left == right
  | .number (.double left), .number (.double right) => left == right
  | .text left, .text right => left == right
  | .list left, .list right => Value.sameItems left right
  | .record left, .record right => Value.sameEntries left right
  | _, _ => false

/-- Equality of lists, item by item. -/
def Value.sameItems : List Value → List Value → Bool
  | [], [] => true
  | left :: lefts, right :: rights => Value.same left right && Value.sameItems lefts rights
  | _, _ => false

/-- Equality of records, entry by entry. -/
def Value.sameEntries : List (String × Value) → List (String × Value) → Bool
  | [], [] => true
  | (name, left) :: lefts, (name', right) :: rights =>
      name == name' && Value.same left right && Value.sameEntries lefts rights
  | _, _ => false

end

namespace Bag

/-- Changing the entry of one key leaves every other key as it was. -/
theorem find?_replace_of_ne {key other : String} (different : other ≠ key) (value : Value)
    (bag : Bag) : find? other (replace key value bag) = find? other bag := by
  induction bag with
  | nil => rfl
  | cons entry rest inductionHypothesis =>
      obtain ⟨name, old⟩ := entry
      by_cases equal : name = key
      · subst equal
        simp [replace, find?, Ne.symm different]
      · simp [replace, find?, equal, inductionHypothesis]

/-- Adding an entry for one key leaves every other key as it was. -/
theorem find?_addSorted_of_ne {key other : String} (different : other ≠ key) (value : Value)
    (bag : Bag) : find? other (addSorted key value bag) = find? other bag := by
  induction bag with
  | nil => simp [addSorted, find?, Ne.symm different]
  | cons entry rest inductionHypothesis =>
      obtain ⟨name, old⟩ := entry
      by_cases earlier : key < name
      · simp only [addSorted, earlier, if_true]
        simp [find?, Ne.symm different]
      · simp only [addSorted, earlier, if_false]
        simp [find?, inductionHypothesis]

/-- Writing to one key leaves every other key as it was. -/
theorem find?_insert_of_ne {key other : String} (different : other ≠ key) (value : Value)
    (bag : Bag) : find? other (insert key value bag) = find? other bag := by
  unfold insert
  split
  · exact find?_replace_of_ne different value bag
  · exact find?_addSorted_of_ne different value bag

/-- A key that has been written has the written value. -/
theorem find?_insert_self (key : String) (value : Value) (bag : Bag) :
    find? key (insert key value bag) = some value := by
  unfold insert
  split
  next present =>
    induction bag with
    | nil => simp [contains, find?] at present
    | cons entry rest inductionHypothesis =>
        obtain ⟨name, old⟩ := entry
        by_cases equal : name = key
        · simp [replace, find?, equal]
        · simp only [contains, find?, equal, if_false] at present
          simp only [replace, find?, equal, if_false]
          exact inductionHypothesis present
  next absent =>
    induction bag with
    | nil => simp [addSorted, find?]
    | cons entry rest inductionHypothesis =>
        obtain ⟨name, old⟩ := entry
        by_cases equal : name = key
        · simp [contains, find?, equal] at absent
        · simp only [contains, find?, equal, if_false] at absent
          by_cases earlier : key < name
          · simp only [addSorted, earlier, if_true]
            simp [find?]
          · simp only [addSorted, earlier, if_false, find?, equal]
            exact inductionHypothesis absent

end Bag

end Orchestration
