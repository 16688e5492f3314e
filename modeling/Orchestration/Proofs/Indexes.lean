import Orchestration.Proofs.Padding

/-!
# Indexes too large for a word

A segment of digits spells an index as long as its number is a word. Behind the end of a list such an index
pads the list or is refused, and in both cases the items stay. A number that is no word spells no index: the
segment is a key like any other, and a write that meets a list puts a record in its place.
-/

namespace Orchestration

/-- That a segment consists of ASCII digits. -/
def Path.IsNumeral (segment : String) : Prop :=
  segment.toList ≠ [] ∧ ∀ character ∈ segment.toList, character.isDigit = true

/-- The number that a segment of digits stands for. -/
def Path.number (segment : String) : Nat :=
  Text.digitsToNat segment.toList

/-- A segment of digits spells its number as an index if that is a word. -/
theorem Path.index?_of_isNumeral {segment : String} (numeral : Path.IsNumeral segment) :
    Path.index? segment = if Path.number segment < Word.count then some (Path.number segment) else none := by
  obtain ⟨nonempty, digits⟩ := numeral
  have noSign (rest : List Char) : segment.toList ≠ '+' :: rest := by
    intro signed
    have isDigit := digits '+' (by simp [signed])
    revert isDigit
    decide
  have read : Text.readDigits? segment.toList = some (Path.number segment) := by
    simp [Text.readDigits?, nonempty, List.all_eq_true.mpr digits, Path.number]
  have unsigned : Path.index? segment = (Text.readDigits? segment.toList).filter Word.isUnsigned := by
    unfold Path.index? Text.readWord?
    split
    · exact absurd ‹_› (noSign _)
    · rfl
  rw [unsigned, read, Option.filter_some]
  simp [Word.isUnsigned]

namespace Value

/-- A write goes on from what the first segments of its path lead to. -/
theorem follow?_write_append {common : List String} {old node : Value}
    (leads : follow? common old = some node) (rest : List String) (value : Value) :
    follow? common (write (common ++ rest) value old) = some (write rest value node) := by
  induction common generalizing old with
  | nil =>
      cases leads
      rfl
  | cons segment common inductionHypothesis =>
      cases old with
      | list items =>
          simp only [follow?, Option.bind_eq_some_iff] at leads
          obtain ⟨index, isIndex, item, there, leads⟩ := leads
          simp [write, follow?, isIndex, getElem?_putItem, there, inductionHypothesis leads]
      | record entries =>
          simp only [follow?, Option.bind_eq_some_iff] at leads
          obtain ⟨item, there, leads⟩ := leads
          simp [write, follow?, Bag.find?_insert_self, there, inductionHypothesis leads]
      | _ => cases leads

end Value

open Value in
/-- Where a path comes to a list and goes on with digits, a write is refused or leaves a list with the items
at all other indexes, exactly if the number of the digits is a word. -/
theorem list_kept_iff {path : String} {value : Value} {bag : Bag} {common rest : List String}
    {segment : String} {items : List Value} (onPath : Path.segments path = common ++ segment :: rest)
    (leads : follow? common (.record bag) = some (.list items)) (numeral : Path.IsNumeral segment) :
    ((∃ error, bag.set path value = .error error) ∨
      ∃ next kept, bag.set path value = .ok next ∧ follow? common (.record next) = some (.list kept) ∧
        ∀ other, other < items.length → other ≠ Path.number segment → kept[other]? = items[other]?) ↔
      Path.number segment < Word.count := by
  have isIndex := Path.index?_of_isNumeral numeral
  constructor
  · intro kept
    by_contra large
    rw [if_neg large] at isIndex
    rcases kept with ⟨error, refused⟩ | ⟨next, kept, succeeds, stays, _⟩
    · obtain ⟨reach, index, length, within, overreaches, _⟩ := Bag.set_eq_error_iff.mp refused
      have found := overreach?_eq_some_iff.mpr ⟨reach, within, overreaches⟩
      rw [onPath, overreach?_append leads, overreach?, isIndex] at found
      cases found
    · obtain ⟨_, isNext⟩ := Bag.set_eq_ok_iff.mp succeeds
      rw [isNext, onPath, follow?_write_append leads, write, isIndex] at stays
      cases stays
  · intro small
    rw [if_pos small] at isIndex
    cases written : bag.set path value with
    | error error => exact .inl ⟨error, rfl⟩
    | ok next =>
        obtain ⟨_, isNext⟩ := Bag.set_eq_ok_iff.mp written
        have stays : follow? common (.record next) = some (.list (putItem items (Path.number segment)
            (write rest value (items[Path.number segment]?.getD .null)))) := by
          rw [isNext, onPath, follow?_write_append leads, write, isIndex]
        exact .inr ⟨next, _, rfl, stays,
          fun other inside different => getElem?_putItem_of_ne _ different.symm inside⟩

namespace ListOfOne

/-- A list with one item. -/
def stored : Bag := [("items", .list [.integer 1])]

/-- The same once the item behind it has been written. -/
def longer : Bag := [("items", .list [.integer 1, .integer 3])]

/-- What is left of the list when it is written at an index that is no word. -/
def lost : Bag := [("items", .record [("18446744073709551616", .integer 3)])]

end ListOfOne

open ListOfOne Value in
/-- The item behind a list is written at an index that is a word, and the list stays. -/
theorem exists_list_kept :
    ∃ next kept, stored.set "items.1" (.integer 3) = .ok next ∧
      follow? ["items"] (.record next) = some (.list kept) ∧ kept[0]? = some (.integer 1) := by
  have onPath : Path.segments "items.1" = ["items"] ++ "1" :: [] := by rfl
  have leads : follow? ["items"] (.record stored) = some (.list [.integer 1]) := by rfl
  have numeral : Path.IsNumeral "1" := ⟨by decide, List.all_eq_true.mp (by rfl)⟩
  have isOne : Path.number "1" = 1 := by rfl
  have small : Path.number "1" < Word.count := by
    rw [isOne, Word.count_eq]
    decide
  have written : stored.set "items.1" (.integer 3) = .ok longer := by rfl
  rcases (list_kept_iff onPath leads numeral).mpr small with ⟨error, refused⟩ |
    ⟨next, kept, succeeds, stays, same⟩
  · rw [written] at refused
    cases refused
  · exact ⟨next, kept, succeeds, stays, same 0 (by decide) (by rw [isOne]; decide)⟩

open ListOfOne Value in
/-- A list is lost to an index that is no word, with all of its items. -/
theorem exists_list_lost :
    ∃ path common segment items, Path.segments path = common ++ [segment] ∧
      follow? common (.record stored) = some (.list items) ∧ Path.IsNumeral segment ∧
      stored.set path (.integer 3) = .ok lost ∧
      ∀ kept, follow? common (.record lost) ≠ some (.list kept) := by
  refine ⟨"items.18446744073709551616", ["items"], "18446744073709551616", [.integer 1], by rfl, by rfl,
    ⟨by decide, List.all_eq_true.mp (by rfl)⟩, by rfl, ?_⟩
  intro kept stays
  have isRecord : follow? ["items"] (.record lost) =
      some (.record [("18446744073709551616", .integer 3)]) := by rfl
  rw [isRecord] at stays
  cases stays

end Orchestration
