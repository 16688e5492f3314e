import Orchestration.Document.Toml

/-!
# Integers of tables

An integer that is read from a text of tables fits a signed word, wherever in the tables it stands. The reader
refuses all others, and building up the tables only moves values around.
-/

namespace Orchestration

/-- That every integer in a value fits a signed word. -/
inductive TableValue.IsSigned : TableValue → Prop where
  | text (value : String) : IsSigned (.text value)
  | integer {value : Int} (signed : Word.isSigned value = true) : IsSigned (.integer value)
  | double (value : Float) : IsSigned (.double value)
  | boolean (value : Bool) : IsSigned (.boolean value)
  | moment : IsSigned .moment
  | list {items : List TableValue} (each : ∀ item ∈ items, IsSigned item) : IsSigned (.list items)
  | table {origin : TableOrigin} {entries : List (String × TableValue)}
      (each : ∀ entry ∈ entries, IsSigned entry.2) : IsSigned (.table origin entries)
  | tables {elements : List (List (String × TableValue))}
      (each : ∀ element ∈ elements, ∀ entry ∈ element, IsSigned entry.2) : IsSigned (.tables elements)

/-- That every integer which a statement assigns fits a signed word. -/
inductive TableStatement.IsSigned : TableStatement → Prop where
  | header (path : List String) : IsSigned (.header path)
  | element (path : List String) : IsSigned (.element path)
  | assignment (path : List String) {value : TableValue} (signed : value.IsSigned) :
      IsSigned (.assignment path value)

namespace Table

/-- That every integer in a table fits a signed word. -/
def IsSigned (table : Table) : Prop := ∀ entry ∈ table, entry.2.IsSigned

section Changes

variable {table other root : Table} {key : String} {path : List String} {value : TableValue}
  {elements others : List Table} {origin : TableOrigin} {dotted : Bool}

/-- An empty table holds no numbers. -/
theorem isSigned_nil : IsSigned [] := fun _ within => (List.not_mem_nil within).elim

/-- What is found in a table is as signed as the table. -/
theorem IsSigned.find? (signed : table.IsSigned) (found : table.find? key = some value) : value.IsSigned := by
  obtain ⟨entry, present, rfl⟩ := Option.map_eq_some_iff.mp found
  exact signed entry (List.mem_of_find?_eq_some present)

/-- Putting a signed value into a table keeps it signed. -/
theorem IsSigned.put (signed : table.IsSigned) (isSigned : value.IsSigned) : (table.put key value).IsSigned := by
  induction table with
  | nil => exact List.forall_mem_singleton.mpr isSigned
  | cons entry rest inductionHypothesis =>
      obtain ⟨first, others⟩ := List.forall_mem_cons.mp signed
      rw [Table.put]
      split
      · exact List.forall_mem_cons.mpr ⟨isSigned, others⟩
      · exact List.forall_mem_cons.mpr ⟨first, inductionHypothesis others⟩

/-- That a change of tables makes no integer that fits no signed word. -/
def KeepsSigned (change : Table → Option Table) : Prop :=
  ∀ ⦃table other : Table⦄, table.IsSigned → change table = some other → other.IsSigned

/-- The other elements are kept where the last one is changed. -/
theorem isSigned_changeLast {change : Table → Option Table} (keeps : KeepsSigned change)
    (signed : ∀ element ∈ elements, IsSigned element) (changed : changeLast change elements = some others) :
    ∀ element ∈ others, IsSigned element := by
  induction elements generalizing others with
  | nil => cases changed
  | cons first rest inductionHypothesis =>
      obtain ⟨firstSigned, restSigned⟩ := List.forall_mem_cons.mp signed
      cases rest with
      | nil =>
          obtain ⟨last, made, rfl⟩ := Option.map_eq_some_iff.mp changed
          exact List.forall_mem_singleton.mpr (keeps firstSigned made)
      | cons next rest =>
          obtain ⟨last, made, rfl⟩ := Option.map_eq_some_iff.mp changed
          exact List.forall_mem_cons.mpr ⟨firstSigned, inductionHypothesis restSigned made⟩

/-- Changing the table at a path keeps to signed words when the change of that table does. -/
theorem keepsSigned_changeAt {change : TableOrigin → Table → Option Table}
    (keeps : ∀ origin, KeepsSigned (change origin)) : KeepsSigned (changeAt dotted change path origin) := by
  induction path generalizing origin with
  | nil => exact keeps origin
  | cons key path inductionHypothesis =>
      intro table other signed changed
      unfold changeAt at changed
      obtain ⟨inner, made, rfl⟩ := Option.map_eq_some_iff.mp changed
      refine signed.put ?_
      split at made
      · obtain ⟨entries, isChanged, rfl⟩ := Option.map_eq_some_iff.mp made
        exact .table (inductionHypothesis isSigned_nil isChanged)
      · next innerOrigin entries found =>
          split at made
          · cases made
          · obtain ⟨entries, isChanged, rfl⟩ := Option.map_eq_some_iff.mp made
            cases signed.find? found with
            | table each => exact .table (inductionHypothesis each isChanged)
      · next elements found =>
          obtain ⟨elements, isChanged, rfl⟩ := Option.map_eq_some_iff.mp made
          cases signed.find? found with
          | tables each => exact .tables (isSigned_changeLast inductionHypothesis each isChanged)
      · cases made

/-- Assigning a signed value at a path keeps tables signed. -/
theorem keepsSigned_assign (isSigned : value.IsSigned) : KeepsSigned (assign path value origin) := by
  refine keepsSigned_changeAt fun last table other signed changed => ?_
  split at changed
  · cases changed
  · split at changed
    · cases changed
    · cases changed
      exact signed.put isSigned

/-- Opening a table under a header keeps tables signed. -/
theorem keepsSigned_open? : KeepsSigned (open? path) := by
  refine keepsSigned_changeAt fun _ table other signed changed => ?_
  split at changed
  · cases changed
  · split at changed
    · cases changed
      exact signed.put (.table isSigned_nil)
    · next inner found =>
        cases changed
        cases signed.find? found with
        | table each => exact signed.put (.table each)
    · cases changed

/-- Opening one more element of an array of tables keeps tables signed. -/
theorem keepsSigned_openElement? : KeepsSigned (openElement? path) := by
  refine keepsSigned_changeAt fun _ table other signed changed => ?_
  split at changed
  · cases changed
  · split at changed
    · cases changed
      exact signed.put (.tables (List.forall_mem_singleton.mpr isSigned_nil))
    · next elements found =>
        cases changed
        cases signed.find? found with
        | tables each =>
            exact signed.put (.tables (List.forall_mem_append.mpr
              ⟨each, List.forall_mem_singleton.mpr isSigned_nil⟩))
    · cases changed

/-- Assigning signed values one after another keeps a table signed. -/
theorem isSigned_ofAssignments {assignments : List (List String × TableValue)} (signed : table.IsSigned)
    (each : ∀ assignment ∈ assignments, assignment.2.IsSigned)
    (made : ofAssignments table assignments = some other) : other.IsSigned := by
  induction assignments generalizing table with
  | nil =>
      cases made
      exact signed
  | cons assignment rest inductionHypothesis =>
      obtain ⟨first, others⟩ := List.forall_mem_cons.mp each
      obtain ⟨next, assigned, made⟩ := Option.bind_eq_some_iff.mp made
      exact inductionHypothesis (keepsSigned_assign first signed assigned) others made

/-- Performing signed statements keeps the root signed. -/
theorem isSigned_perform {statements : List TableStatement} (signed : root.IsSigned)
    (each : ∀ statement ∈ statements, statement.IsSigned)
    (made : perform path root statements = some other) : other.IsSigned := by
  induction statements generalizing path root with
  | nil =>
      cases made
      exact signed
  | cons statement rest inductionHypothesis =>
      obtain ⟨first, others⟩ := List.forall_mem_cons.mp each
      cases first with
      | header next =>
          obtain ⟨opened, isOpen, made⟩ := Option.bind_eq_some_iff.mp made
          exact inductionHypothesis (keepsSigned_open? signed isOpen) others made
      | element next =>
          obtain ⟨opened, isOpen, made⟩ := Option.bind_eq_some_iff.mp made
          exact inductionHypothesis (keepsSigned_openElement? signed isOpen) others made
      | assignment key isSigned =>
          obtain ⟨assigned, isAssigned, made⟩ := Option.bind_eq_some_iff.mp made
          have keeps : KeepsSigned (changeAt false (assign key _) path .header) :=
            keepsSigned_changeAt fun _ => keepsSigned_assign isSigned
          exact inductionHypothesis (keeps signed isAssigned) others made

end Changes

end Table

namespace Toml

/-! ## Values -/

section Reading

variable {bound : Nat} {text rest : List Char} {value : TableValue}

/-- Whole numbers are made only of signed words. -/
theorem isSigned_of_integer? {number : Int} (made : integer? number = some value) : value.IsSigned := by
  unfold integer? at made
  split at made
  · next signed =>
      cases made
      exact .integer signed
  · cases made

/-- Numbers to a base are signed words. -/
theorem isSigned_of_readBased? {base : Nat} (read : readBased? base text = some (value, rest)) :
    value.IsSigned := by
  obtain ⟨⟨digits, behind⟩, -, made⟩ := Option.bind_eq_some_iff.mp read
  obtain ⟨integer, isInteger, same⟩ := Option.map_eq_some_iff.mp made
  obtain ⟨number, -, fits⟩ := Option.bind_eq_some_iff.mp isInteger
  cases same
  exact isSigned_of_integer? fits

/-- Whole numbers that are read are signed words. -/
theorem isSigned_of_readInteger? (read : readInteger? text = some (value, rest)) : value.IsSigned := by
  unfold readInteger? at read
  split at read
  · exact isSigned_of_readBased? read
  · exact isSigned_of_readBased? read
  · exact isSigned_of_readBased? read
  · obtain ⟨⟨digits, behind⟩, -, made⟩ := Option.bind_eq_some_iff.mp read
    obtain ⟨integer, fits, same⟩ := Option.map_eq_some_iff.mp made
    cases same
    exact isSigned_of_integer? fits

/-- A double that is read holds no whole number. -/
theorem isSigned_of_readDouble? (read : readDouble? text = some (value, rest)) : value.IsSigned := by
  unfold readDouble? at read
  dsimp only at read
  split at read
  · cases read
    exact .double _
  · cases read
    exact .double _
  · obtain ⟨whole, -, read⟩ := Option.bind_eq_some_iff.mp read
    obtain ⟨fraction, -, read⟩ := Option.bind_eq_some_iff.mp read
    obtain ⟨double, -, same⟩ := Option.map_eq_some_iff.mp read
    cases same
    exact .double double

/-- A moment that is read holds no whole number. -/
theorem isSigned_of_readMoment? (read : readMoment? text = some (value, rest)) : value.IsSigned := by
  unfold readMoment? at read
  split at read
  · obtain ⟨behind, -, same⟩ := Option.map_eq_some_iff.mp read
    cases same
    exact .moment
  · dsimp only at read
    split at read
    · cases read
      exact .moment
    · cases read
      exact .moment

/-- Whatever is read without brackets is signed. -/
theorem isSigned_of_readScalar? (read : readScalar? text = some (value, rest)) : value.IsSigned := by
  unfold readScalar? at read
  split at read
  · cases read
  · cases read
    exact .boolean true
  · cases read
    exact .boolean false
  · split at read
    · obtain ⟨content, -, same⟩ := Option.map_eq_some_iff.mp read
      cases same
      exact .text _
    · rcases Option.or_eq_some_iff.mp read with moment | ⟨-, number⟩
      · exact isSigned_of_readMoment? moment
      · rcases Option.or_eq_some_iff.mp number with double | ⟨-, integer⟩
        · exact isSigned_of_readDouble? double
        · exact isSigned_of_readInteger? integer

/-- That what is read within a bound has signed integers only. -/
structure ReadsSigned (bound : Nat) : Prop where
  value : ∀ {text rest value}, readValue? bound text = some (value, rest) → value.IsSigned
  items : ∀ {text rest items}, readItems? bound text = some (items, rest) → ∀ item ∈ items, item.IsSigned
  assignments : ∀ {text rest assignments}, readAssignments? bound text = some (assignments, rest) →
    ∀ assignment ∈ assignments, assignment.2.IsSigned

/-- With one level more, values that are read are signed. -/
theorem ReadsSigned.value_succ (reads : ReadsSigned bound)
    (read : readValue? (bound + 1) text = some (value, rest)) : value.IsSigned := by
  unfold readValue? at read
  split at read
  · obtain ⟨⟨items, behind⟩, found, same⟩ := Option.map_eq_some_iff.mp read
    cases same
    exact .list (reads.items found)
  · dsimp only at read
    split at read
    · cases read
      exact .table Table.isSigned_nil
    · obtain ⟨⟨assignments, behind⟩, found, read⟩ := Option.bind_eq_some_iff.mp read
      obtain ⟨table, made, same⟩ := Option.bind_eq_some_iff.mp read
      cases same
      exact .table (Table.isSigned_ofAssignments Table.isSigned_nil (reads.assignments found) made)
  · exact isSigned_of_readScalar? read

/-- With one level more, items that are read are signed. -/
theorem ReadsSigned.items_succ (reads : ReadsSigned bound) {items : List TableValue}
    (read : readItems? (bound + 1) text = some (items, rest)) : ∀ item ∈ items, item.IsSigned := by
  unfold readItems? at read
  split at read
  · cases read
    exact fun _ within => (List.not_mem_nil within).elim
  · obtain ⟨⟨item, behind⟩, found, read⟩ := Option.bind_eq_some_iff.mp read
    have first := reads.value found
    dsimp only at read
    split at read
    · obtain ⟨⟨others, last⟩, readOthers, same⟩ := Option.bind_eq_some_iff.mp read
      cases same
      exact List.forall_mem_cons.mpr ⟨first, reads.items readOthers⟩
    · cases read
      exact List.forall_mem_singleton.mpr first
    · cases read

/-- With one level more, the values of inline tables that are read are signed. -/
theorem ReadsSigned.assignments_succ (reads : ReadsSigned bound)
    {assignments : List (List String × TableValue)}
    (read : readAssignments? (bound + 1) text = some (assignments, rest)) :
    ∀ assignment ∈ assignments, assignment.2.IsSigned := by
  unfold readAssignments? at read
  obtain ⟨⟨key, behindKey⟩, -, read⟩ := Option.bind_eq_some_iff.mp read
  obtain ⟨behindSign, -, read⟩ := Option.bind_eq_some_iff.mp read
  obtain ⟨⟨value, behind⟩, found, read⟩ := Option.bind_eq_some_iff.mp read
  have first := reads.value found
  dsimp only at read
  split at read
  · obtain ⟨⟨others, last⟩, readOthers, same⟩ := Option.bind_eq_some_iff.mp read
    cases same
    exact List.forall_mem_cons.mpr ⟨first, reads.assignments readOthers⟩
  · cases read
    exact List.forall_mem_singleton.mpr first
  · cases read

/-- All that is read within a bound is signed, by induction on the bound that the three readers share. -/
theorem readsSigned (bound : Nat) : ReadsSigned bound := by
  -- Each of the three readers calls the others with the next smaller bound.
  induction bound with
  | zero => exact ⟨fun read => (nomatch read), fun read => (nomatch read), fun read => (nomatch read)⟩
  | succ bound inductionHypothesis =>
      exact {
        value := inductionHypothesis.value_succ
        items := inductionHypothesis.items_succ
        assignments := inductionHypothesis.assignments_succ }

/-- A statement that is read assigns a signed value, if it assigns one. -/
theorem isSigned_of_readStatement? {statement : TableStatement}
    (read : readStatement? text = some (statement, rest)) : statement.IsSigned := by
  unfold readStatement? at read
  split at read
  · obtain ⟨⟨path, behind⟩, -, read⟩ := Option.bind_eq_some_iff.mp read
    obtain ⟨inner, -, read⟩ := Option.bind_eq_some_iff.mp read
    obtain ⟨outer, -, same⟩ := Option.bind_eq_some_iff.mp read
    cases same
    exact .element path
  · obtain ⟨⟨path, behind⟩, -, read⟩ := Option.bind_eq_some_iff.mp read
    obtain ⟨outer, -, same⟩ := Option.bind_eq_some_iff.mp read
    cases same
    exact .header path
  · obtain ⟨⟨key, behindKey⟩, -, read⟩ := Option.bind_eq_some_iff.mp read
    obtain ⟨behindSign, -, read⟩ := Option.bind_eq_some_iff.mp read
    obtain ⟨⟨value, behind⟩, found, same⟩ := Option.bind_eq_some_iff.mp read
    cases same
    exact .assignment key ((readsSigned _).value found)

/-- All statements that are read are signed. -/
theorem isSigned_of_readStatements? {statements : List TableStatement}
    (read : readStatements? bound text = some statements) :
    ∀ statement ∈ statements, statement.IsSigned := by
  induction bound generalizing text statements with
  | zero => cases read
  | succ bound inductionHypothesis =>
      unfold readStatements? at read
      split at read
      · cases read
        exact fun _ within => (List.not_mem_nil within).elim
      · obtain ⟨⟨statement, behind⟩, found, read⟩ := Option.bind_eq_some_iff.mp read
        obtain ⟨next, -, read⟩ := Option.bind_eq_some_iff.mp read
        obtain ⟨others, readOthers, same⟩ := Option.bind_eq_some_iff.mp read
        cases same
        exact List.forall_mem_cons.mpr ⟨isSigned_of_readStatement? found, inductionHypothesis readOthers⟩

/-- The integers of a table that is read fit signed words. -/
theorem isSigned_of_read? {table : Table} (read : read? text = some table) : table.IsSigned := by
  obtain ⟨statements, found, made⟩ := Option.bind_eq_some_iff.mp read
  exact Table.isSigned_perform Table.isSigned_nil (isSigned_of_readStatements? found) made

end Reading

end Toml

end Orchestration
