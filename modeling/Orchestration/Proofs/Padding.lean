import Orchestration.Proofs.Locality

/-!
# How far a write reaches

A write is refused where its path comes to a list and goes on with an index that lies further behind the end
than padding reaches. Nothing can be followed through such an index, so there is at most one on a path.

A write that is not refused makes one list longer at most, and by no more than the padding and the item that
the path goes on with. What is behind the padding is new, and so the containers on the way from there are
records.
-/

namespace Orchestration

namespace Value

/-- That segments lead to a list, but for the last one, which is an index that padding cannot reach. -/
inductive Overreaches (value : Value) : List String → Nat → Nat → Prop where
  | beyond {common : List String} {segment : String} {items : List Value} {index : Nat}
      (leads : follow? common value = some (.list items)) (isIndex : Path.index? segment = some index)
      (far : items.length + Path.maximumPadding < index) :
      Overreaches value (common ++ [segment]) index items.length

/-- Segments lead on from where the segments before them lead. -/
theorem follow?_append (first second : List String) (value : Value) :
    follow? (first ++ second) value = (follow? first value).bind (follow? second) := by
  induction first generalizing value with
  | nil => rfl
  | cons segment rest inductionHypothesis =>
      cases value with
      | list items => simp only [List.cons_append, follow?, Option.bind_assoc, ← inductionHypothesis]
      | record entries => simp only [List.cons_append, follow?, Option.bind_assoc, ← inductionHypothesis]
      | _ => rfl

namespace Overreaches

variable {value : Value} {reach : List String} {index length : Nat}

/-- Nothing can be followed through an index that padding cannot reach. -/
theorem follow?_eq_none (overreaches : value.Overreaches reach index length) (more : List String) :
    follow? (reach ++ more) value = none := by
  cases overreaches with
  | @beyond _ _ items _ leads isIndex far =>
      have absent : items[index]? = none := List.getElem?_eq_none (by omega)
      rw [List.append_assoc, follow?_append, leads]
      simp [follow?, isIndex, absent]

/-- There is at most one such index on a path. -/
theorem eq_of_prefix {longer : List String} {other otherLength : Nat}
    (overreaches : value.Overreaches reach index length)
    (further : value.Overreaches longer other otherLength) (within : reach <+: longer) :
    reach = longer := by
  obtain ⟨more, rfl⟩ := within
  rcases List.eq_nil_or_concat more with rfl | ⟨middle, last, rfl⟩
  · rw [List.append_nil]
  · generalize placed : reach ++ middle.concat last = longer at further
    cases further with
    | beyond leads =>
        rw [List.concat_eq_append, ← List.append_assoc] at placed
        obtain ⟨rfl, _⟩ := List.append_inj' placed rfl
        rw [overreaches.follow?_eq_none] at leads
        cases leads

/-- What is beyond reach behind the first segment is so behind all. -/
theorem cons {segment : String} {inner : Value} (leads : follow? [segment] value = some inner)
    (overreaches : inner.Overreaches reach index length) :
    value.Overreaches (segment :: reach) index length := by
  cases overreaches with
  | @beyond common last items _ innerLeads isIndex far =>
      refine @Overreaches.beyond _ (segment :: common) last items _ ?_ isIndex far
      rw [← List.singleton_append, follow?_append, leads, Option.bind_some, innerLeads]

end Overreaches

/-- A write is refused at its first segment, or where that leads. -/
theorem overreach?_cons_eq_some {segment : String} {rest : List String} {value : Value} {index length : Nat}
    (found : overreach? (segment :: rest) (some value) = some (index, length)) :
    value.Overreaches [segment] index length ∨
      ∃ inner, follow? [segment] value = some inner ∧
        overreach? rest (some inner) = some (index, length) := by
  cases leads : follow? [segment] value with
  | some inner =>
      have reached := overreach?_append leads rest
      rw [List.singleton_append, found] at reached
      exact .inr ⟨inner, rfl, reached.symm⟩
  | none =>
      cases value with
      | list items =>
          cases isIndex : Path.index? segment with
          | none => simp [overreach?, isIndex] at found
          | some own =>
              have absent : items[own]? = none := by simpa [follow?, isIndex] using leads
              simp only [overreach?, isIndex, absent, overreach?_none] at found
              split at found
              · rename_i far
                cases found
                exact .inl (@Overreaches.beyond _ [] segment items _ rfl isIndex far)
              · cases found
      | record entries =>
          have absent : Bag.find? segment entries = none := by simpa [follow?] using leads
          simp [overreach?, absent] at found
      | _ => cases found

/-- The index that a write is refused for is the one on its path that padding cannot reach. -/
theorem overreach?_eq_some_iff {segments : List String} {value : Value} {index length : Nat} :
    overreach? segments (some value) = some (index, length) ↔
      ∃ reach, reach <+: segments ∧ value.Overreaches reach index length := by
  constructor
  · intro found
    induction segments generalizing value with
    | nil => cases found
    | cons segment rest inductionHypothesis =>
        rcases overreach?_cons_eq_some found with overreaches | ⟨inner, leads, found⟩
        · exact ⟨[segment], List.prefix_append [segment] rest, overreaches⟩
        · obtain ⟨reach, within, overreaches⟩ := inductionHypothesis found
          exact ⟨_, (List.prefix_cons_inj segment).mpr within, overreaches.cons leads⟩
  · rintro ⟨_, ⟨rest, rfl⟩, overreaches⟩
    cases overreaches with
    | beyond leads isIndex far =>
        rw [List.append_assoc, overreach?_append leads, List.singleton_append]
        simp [overreach?, isIndex, far]

/-- A step into a record or a list. -/
inductive Selector where
  | key (name : String)
  | item (index : Nat)
  deriving DecidableEq, Repr

/-- What stands at a place of a value. -/
def at? : List Selector → Value → Option Value
  | [], value => some value
  | .key name :: rest, .record entries => (Bag.find? name entries).bind (at? rest)
  | .item index :: rest, .list items => items[index]?.bind (at? rest)
  | _ :: _, _ => none

/-- The place that segments lead to. -/
def place? : List String → Value → Option (List Selector)
  | [], _ => some []
  | segment :: rest, .record entries =>
      (Bag.find? segment entries).bind fun entry => (place? rest entry).map (.key segment :: ·)
  | segment :: rest, .list items =>
      (Path.index? segment).bind fun index =>
        items[index]?.bind fun item => (place? rest item).map (.item index :: ·)
  | _ :: _, _ => none

/-- The length of the list at a place, and none where no list stands. -/
def lengthAt (place : List Selector) (value : Value) : Nat :=
  match at? place value with
  | some (.list items) => items.length
  | _ => 0

/-- What stands at the place of segments is what they lead to. -/
theorem follow?_eq_at? {segments : List String} {value : Value} {place : List Selector}
    (isPlace : place? segments value = some place) :
    follow? segments value = at? place value := by
  induction segments generalizing value place with
  | nil =>
      cases isPlace
      rfl
  | cons segment rest inductionHypothesis =>
      cases value with
      | list items =>
          simp only [place?, Option.bind_eq_some_iff, Option.map_eq_some_iff] at isPlace
          obtain ⟨index, isIndex, item, there, inner, isInner, rfl⟩ := isPlace
          simp [follow?, at?, isIndex, there, inductionHypothesis isInner]
      | record entries =>
          simp only [place?, Option.bind_eq_some_iff, Option.map_eq_some_iff] at isPlace
          obtain ⟨item, there, inner, isInner, rfl⟩ := isPlace
          simp [follow?, at?, there, inductionHypothesis isInner]
      | _ => cases isPlace

section Lengths

variable {items : List Value} {entries : List (String × Value)} {place : List Selector}

/-- A list stands at its own place. -/
@[simp]
theorem lengthAt_nil_list : lengthAt [] (.list items) = items.length := rfl

/-- Nowhere in a null is a list. -/
@[simp]
theorem lengthAt_null (place : List Selector) : lengthAt place .null = 0 := by
  rcases place with _ | ⟨_ | _, rest⟩ <;> rfl

/-- The lists inside of an item are those of the list with the index before their place. -/
theorem lengthAt_item (index : Nat) :
    lengthAt (.item index :: place) (.list items) = lengthAt place (items[index]?.getD .null) := by
  cases there : items[index]? with
  | none =>
      rw [Option.getD_none, lengthAt_null]
      simp [lengthAt, at?, there]
  | some item => simp [lengthAt, at?, there]

/-- The lists inside of an entry are those of the record with the key before their place. -/
theorem lengthAt_key (name : String) :
    lengthAt (.key name :: place) (.record entries) =
      lengthAt place ((Bag.find? name entries).getD .null) := by
  cases there : Bag.find? name entries with
  | none =>
      rw [Option.getD_none, lengthAt_null]
      simp [lengthAt, at?, there]
  | some item => simp [lengthAt, at?, there]

end Lengths

/-- That the list at a place has been padded: it got nulls, not more than a write may, and behind them the
item that the place of the write goes on with. -/
inductive PaddedAt (old new : Value) (written : List Selector) : List Selector → Prop where
  | padded {place : List Selector} {items : List Value} {padding : Nat} {item : Value}
      {rest : List Selector} (before : at? place old = some (.list items))
      (after : at? place new = some (.list (items ++ List.replicate padding .null ++ [item])))
      (bounded : padding ≤ Path.maximumPadding)
      (onPath : written = place ++ .item (items.length + padding) :: rest) :
      PaddedAt old new written place

/-- Nothing is padded where nothing was. -/
theorem not_paddedAt_null {new : Value} {written place : List Selector} :
    ¬ PaddedAt .null new written place := by
  rintro ⟨before, _, _, _⟩
  rcases place with _ | ⟨_ | _, rest⟩ <;> cases before

/-- That no list has become longer but those in what was written, and one that was padded. -/
def Pads (old new : Value) (written padded : List Selector) : Prop :=
  ∀ place, lengthAt place old < lengthAt place new →
    written <+: place ∨ (place = padded ∧ PaddedAt old new written padded)

/-- Where nothing was before, there is no list but in what was written. -/
theorem exists_place_of_write_null (segments : List String) (value : Value) :
    ∃ written, place? segments (write segments value .null) = some written ∧
      ∀ place, 0 < lengthAt place (write segments value .null) → written <+: place := by
  induction segments with
  | nil => exact ⟨[], rfl, fun place _ => List.nil_prefix⟩
  | cons segment rest inductionHypothesis =>
      obtain ⟨written, isPlace, within⟩ := inductionHypothesis
      refine ⟨.key segment :: written, by simp [write, place?, Bag.find?, isPlace], ?_⟩
      intro place isList
      change 0 < lengthAt place (.record [(segment, write rest value .null)]) at isList
      rcases place with _ | ⟨name | index, place⟩
      · cases isList
      · rw [lengthAt_key, Bag.find?] at isList
        split at isList
        · rename_i same
          subst same
          exact (List.prefix_cons_inj _).mpr (within place isList)
        · simp [Bag.find?] at isList
      · cases isList

section Steps

variable {items : List Value} {index : Nat} {segments : List String} {place : List Selector}

/-- Putting an item leaves the other ones as they were, and the padding holds nothing. -/
theorem getD_putItem_of_ne {other : Nat} (different : index ≠ other) (item : Value) :
    (putItem items index item)[other]?.getD .null = items[other]?.getD .null := by
  unfold putItem
  split
  · rw [List.getElem?_set_ne different]
  · rename_i outside
    rw [List.append_assoc]
    by_cases inside : other < items.length
    · rw [List.getElem?_append_left inside]
    · have behind : other - items.length ≠ index - items.length := by omega
      rw [List.getElem?_append_right (by omega), List.getElem?_eq_none (by omega : items.length ≤ other),
        List.getElem?_append, List.length_replicate, List.getElem?_replicate, List.getElem?_singleton]
      grind

/-- What is padded within an item is so within the list. -/
theorem PaddedAt.item {old new : Value} {written padded : List Selector}
    (isPadded : PaddedAt old new written padded) (there : items[index]? = some old) :
    PaddedAt (.list items) (.list (putItem items index new)) (.item index :: written)
      (.item index :: padded) := by
  cases isPadded with
  | @padded own padding item rest before after bounded onPath =>
      refine @PaddedAt.padded _ _ _ _ own padding item rest ?_ ?_ bounded (by rw [onPath, List.cons_append])
      · rw [at?, there, Option.bind_some, before]
      · rw [at?, getElem?_putItem, Option.bind_some, after]

/-- A list whose item is replaced pads what the replacement pads. -/
theorem Pads.item {old new : Value} {written padded : List Selector} (pads : Pads old new written padded)
    (there : items[index]? = some old) :
    Pads (.list items) (.list (putItem items index new)) (.item index :: written)
      (.item index :: padded) := by
  obtain ⟨inside, _⟩ := List.getElem?_eq_some_iff.mp there
  rintro (_ | ⟨name | other, place⟩) longer
  · simp [putItem, inside] at longer
  · cases longer
  · rw [lengthAt_item, lengthAt_item] at longer
    by_cases same : index = other
    · subst same
      rw [there, getElem?_putItem] at longer
      rcases pads place longer with within | ⟨rfl, isPadded⟩
      · exact .inl ((List.prefix_cons_inj _).mpr within)
      · exact .inr ⟨rfl, isPadded.item there⟩
    · rw [getD_putItem_of_ne same] at longer
      exact absurd longer (lt_irrefl _)

/-- What is padded within an entry is so within the record. -/
theorem PaddedAt.key {old new : Value} {written padded : List Selector} {name : String}
    {entries : List (String × Value)} (isPadded : PaddedAt old new written padded)
    (there : Bag.find? name entries = some old) :
    PaddedAt (.record entries) (.record (Bag.insert name new entries)) (.key name :: written)
      (.key name :: padded) := by
  cases isPadded with
  | @padded own padding item rest before after bounded onPath =>
      refine @PaddedAt.padded _ _ _ _ own padding item rest ?_ ?_ bounded (by rw [onPath, List.cons_append])
      · rw [at?, there, Option.bind_some, before]
      · rw [at?, Bag.find?_insert_self, Option.bind_some, after]

/-- A record whose entry is replaced pads what the replacement pads. -/
theorem Pads.key {old new : Value} {written padded : List Selector} {name : String}
    {entries : List (String × Value)} (pads : Pads old new written padded)
    (there : (Bag.find? name entries).getD .null = old)
    (padding : ∀ place, PaddedAt old new written place → Bag.find? name entries = some old) :
    Pads (.record entries) (.record (Bag.insert name new entries)) (.key name :: written)
      (.key name :: padded) := by
  rintro (_ | ⟨other | index, place⟩) longer
  · cases longer
  · rw [lengthAt_key, lengthAt_key] at longer
    by_cases same : name = other
    · subst same
      rw [there, Bag.find?_insert_self] at longer
      rcases pads place longer with within | ⟨rfl, isPadded⟩
      · exact .inl ((List.prefix_cons_inj _).mpr within)
      · exact .inr ⟨rfl, isPadded.key (padding _ isPadded)⟩
    · rw [Bag.find?_insert_of_ne (Ne.symm same)] at longer
      exact absurd longer (lt_irrefl _)
  · cases longer

/-- A list with an item put behind its end is padded at most. -/
theorem pads_of_outside {new : Value} {written : List Selector} (outside : items.length ≤ index)
    (near : index ≤ items.length + Path.maximumPadding)
    (within : ∀ place, 0 < lengthAt place new → written <+: place) :
    Pads (.list items) (.list (putItem items index new)) (.item index :: written) [] := by
  have isPadded : PaddedAt (.list items) (.list (putItem items index new)) (.item index :: written) [] := by
    have behind : ¬ index < items.length := by omega
    refine @PaddedAt.padded _ _ _ _ items (index - items.length) new written rfl ?_ (by omega) ?_
    · rw [putItem, if_neg behind]
      rfl
    · rw [Nat.add_sub_cancel' outside]
      rfl
  rintro (_ | ⟨name | other, place⟩) longer
  · exact .inr ⟨rfl, isPadded⟩
  · cases longer
  · rw [lengthAt_item, lengthAt_item] at longer
    by_cases same : index = other
    · subst same
      rw [getElem?_putItem] at longer
      exact .inl ((List.prefix_cons_inj _).mpr (within place (by simpa using Nat.zero_lt_of_lt longer)))
    · rw [getD_putItem_of_ne same] at longer
      exact absurd longer (lt_irrefl _)

end Steps

/-- That a write makes no list longer but in what it writes, and one that it pads. -/
def PadsOne (segments : List String) (value old : Value) : Prop :=
  ∃ written padded, place? segments (write segments value old) = some written ∧
    Pads old (write segments value old) written padded

section PadsOne

variable {segment : String} {rest : List String} {value old : Value}

/-- Where the structure that is there ends, the write goes on from `null` and pads nothing. -/
theorem padsOne_anew {segments : List String}
    (same : write segments value old = write segments value .null) : PadsOne segments value old := by
  obtain ⟨written, isPlace, within⟩ := exists_place_of_write_null segments value
  rw [PadsOne, same]
  exact ⟨written, [], isPlace, fun place longer => .inl (within place (by omega))⟩

/-- A write into a list pads that one, or one within the item that it goes on from. -/
theorem padsOne_list {items : List Value} {index : Nat} (isIndex : Path.index? segment = some index)
    (near : index ≤ items.length + Path.maximumPadding)
    (inner : ∀ item, items[index]? = some item → PadsOne rest value item) :
    PadsOne (segment :: rest) value (.list items) := by
  simp only [PadsOne, write, isIndex]
  cases there : items[index]? with
  | some item =>
      obtain ⟨written, padded, isPlace, pads⟩ := inner item there
      rw [Option.getD_some]
      refine ⟨.item index :: written, .item index :: padded, ?_, pads.item there⟩
      simp [place?, isIndex, getElem?_putItem, isPlace]
  | none =>
      have outside : items.length ≤ index := List.getElem?_eq_none_iff.mp there
      obtain ⟨written, isPlace, within⟩ := exists_place_of_write_null rest value
      rw [Option.getD_none]
      refine ⟨.item index :: written, [], ?_, pads_of_outside outside near within⟩
      simp [place?, isIndex, getElem?_putItem, isPlace]

/-- A write into a record pads a list within the entry that it goes on from, if any. -/
theorem padsOne_record {entries : List (String × Value)}
    (inner : ∀ entry, Bag.find? segment entries = some entry → PadsOne rest value entry) :
    PadsOne (segment :: rest) value (.record entries) := by
  simp only [PadsOne, write]
  cases there : Bag.find? segment entries with
  | some entry =>
      obtain ⟨written, padded, isPlace, pads⟩ := inner entry there
      rw [Option.getD_some]
      refine ⟨.key segment :: written, .key segment :: padded, ?_,
        pads.key (by rw [there, Option.getD_some]) fun _ _ => there⟩
      simp [place?, Bag.find?_insert_self, isPlace]
  | none =>
      obtain ⟨written, isPlace, within⟩ := exists_place_of_write_null rest value
      have pads : Pads .null (write rest value .null) written [] :=
        fun place longer => .inl (within place (by simpa using longer))
      rw [Option.getD_none]
      refine ⟨.key segment :: written, [.key segment], ?_,
        pads.key (by rw [there, Option.getD_none]) fun _ isPadded => absurd isPadded not_paddedAt_null⟩
      simp [place?, Bag.find?_insert_self, isPlace]

end PadsOne

/-- A write that is not refused pads one list at most. -/
theorem padsOne_of_overreach? {segments : List String} {old : Value} (value : Value)
    (reached : overreach? segments (some old) = none) : PadsOne segments value old := by
  induction segments generalizing old with
  | nil => exact ⟨[], [], rfl, fun place _ => .inl List.nil_prefix⟩
  | cons segment rest inductionHypothesis =>
      cases old with
      | list items =>
          cases isIndex : Path.index? segment with
          | none => exact padsOne_anew (by simp [write, isIndex])
          | some index =>
              simp only [overreach?, isIndex] at reached
              split at reached
              · cases reached
              · rename_i near
                refine padsOne_list isIndex (not_lt.mp near) fun item there => inductionHypothesis ?_
                rwa [there] at reached
      | record entries =>
          simp only [overreach?] at reached
          refine padsOne_record fun entry there => inductionHypothesis ?_
          rwa [there] at reached
      | _ => exact padsOne_anew rfl

end Value

namespace Bag

variable {path : String} {value : Value} {bag : Bag}

/-- What a refused write says. -/
theorem set_eq_error_iff {error : PathError} :
    bag.set path value = .error error ↔
      ∃ reach index length, reach <+: Path.segments path ∧
        (Value.record bag).Overreaches reach index length ∧
        error = .indexOutOfRange path index length := by
  unfold set
  cases found : Value.overreach? (Path.segments path) (some (.record bag)) with
  | none =>
      refine ⟨nofun, ?_⟩
      rintro ⟨reach, index, length, within, overreaches, _⟩
      rw [Value.overreach?_eq_some_iff.mpr ⟨reach, within, overreaches⟩] at found
      cases found
  | some place =>
      obtain ⟨index, length⟩ := place
      constructor
      · rintro ⟨⟩
        obtain ⟨reach, within, overreaches⟩ := Value.overreach?_eq_some_iff.mp found
        exact ⟨reach, index, length, within, overreaches, rfl⟩
      · rintro ⟨reach, other, otherLength, within, overreaches, rfl⟩
        have same := Value.overreach?_eq_some_iff.mpr ⟨reach, within, overreaches⟩
        rw [found] at same
        cases same
        rfl

end Bag

open Value in
/-- A write is refused exactly when its path comes to a list and goes on with an index that lies further
behind the end than padding reaches. The refusal is about the first such index and changes nothing. A write
that is not refused makes no list longer but in what it writes, and one on its path, which gets the item that
the path goes on with and not more nulls in front of it than padding reaches. -/
theorem set_refused_or_padded (path : String) (value : Value) (bag : Bag) :
    ((∃ error, bag.set path value = .error error) ↔
      ∃ reach index length, reach <+: Path.segments path ∧
        (Value.record bag).Overreaches reach index length) ∧
    (∀ error, bag.set path value = .error error →
      (∃ reach index length, reach <+: Path.segments path ∧
        (Value.record bag).Overreaches reach index length ∧
        (∀ other otherIndex otherLength, other <+: Path.segments path →
          (Value.record bag).Overreaches other otherIndex otherLength → reach <+: other) ∧
        error = .indexOutOfRange path index length) ∧
      ∀ subject : Instance, subject.bag = bag →
        subject.writeVariable path value = (subject, .error (.path error))) ∧
    ∀ next, bag.set path value = .ok next →
      ∃ written padded, place? (Path.segments path) (.record next) = some written ∧
        at? written (.record next) = some value ∧
        Pads (.record bag) (.record next) written padded := by
  refine ⟨?_, fun error refused => ⟨?_, ?_⟩, fun next succeeds => ?_⟩
  · simp only [Bag.set_eq_error_iff]
    constructor
    · rintro ⟨error, reach, index, length, within, overreaches, _⟩
      exact ⟨reach, index, length, within, overreaches⟩
    · rintro ⟨reach, index, length, within, overreaches⟩
      exact ⟨_, reach, index, length, within, overreaches, rfl⟩
  · obtain ⟨reach, index, length, within, overreaches, isError⟩ := Bag.set_eq_error_iff.mp refused
    refine ⟨reach, index, length, within, overreaches, ?_, isError⟩
    intro other otherIndex otherLength otherWithin otherOverreaches
    -- Of two beginnings of one path one goes on the other, and then they are the same.
    rcases List.prefix_or_prefix_of_prefix within otherWithin with further | further
    · exact further
    · have same := otherOverreaches.eq_of_prefix overreaches further
      exact same ▸ List.prefix_refl reach
  · rintro subject rfl
    simp only [Instance.writeVariable, Bag.assignPath, refused, Except.mapError]
  · obtain ⟨reached, isNext⟩ := Bag.set_eq_ok_iff.mp succeeds
    obtain ⟨written, padded, isPlace, pads⟩ := padsOne_of_overreach? value reached
    rw [← isNext] at isPlace pads
    refine ⟨written, padded, isPlace, ?_, pads⟩
    rw [← follow?_eq_at? isPlace, isNext, follow?_write]

end Orchestration
