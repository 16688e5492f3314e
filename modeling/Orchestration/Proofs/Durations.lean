import Mathlib.Algebra.BigOperators.Group.List.Basic
import Mathlib.Algebra.GroupWithZero.Nat
import Orchestration.Duration.Reading
import Orchestration.Duration.Written
import Orchestration.Proofs.Grammar

/-!
# Durations are read back from their texts

The text of a duration is a list of parts, each a count under a name of its unit. Reading takes one part after
another and adds it to the sum so far. The sums only grow, up to the duration itself, so no word overflows
on the way when the duration's seconds fit one.
-/

namespace Orchestration

/-- To join texts is to put the separator between them. -/
theorem Text.joinWith_eq_intercalate (separator : List Char) (texts : List (List Char)) :
    joinWith separator texts = separator.intercalate texts := by
  induction texts with
  | nil => rfl
  | cons text others inductionHypothesis =>
      cases others with
      | nil => rw [joinWith, List.intercalate_singleton]
      | cons next others => rw [joinWith, inductionHypothesis, List.intercalate_cons_cons]

namespace Duration

/-! ## Sums -/

section Sums

variable {total : Duration} {seconds nanoseconds length value : Nat}

/-- The number of nanoseconds in a second, as arithmetic needs it. -/
theorem nanosecondsPerSecond_eq : nanosecondsPerSecond = 1000000000 := rfl

/-- A number that fits a word is kept. -/
theorem word_eq_ok (fits : value < Word.count) : word value = .ok value := by
  rw [word, Word.isUnsigned, decide_eq_true fits]
  rfl

/-- A sum below the limit of seconds is never out of range. -/
theorem add_eq_ok (small : nanoseconds < nanosecondsPerSecond)
    (sum : length = seconds * nanosecondsPerSecond + nanoseconds)
    (fits : total.nanoseconds + length < Word.count * nanosecondsPerSecond) :
    add total seconds nanoseconds = .ok ⟨total.nanoseconds + length⟩ := by
  simp only [nanosecondsPerSecond_eq, Word.count] at small sum fits
  have below : word (total.subsecond + nanoseconds) = .ok (total.subsecond + nanoseconds) :=
    word_eq_ok (by simp only [subsecond, nanosecondsPerSecond_eq, Word.count]; omega)
  have carried : word (seconds + (total.subsecond + nanoseconds) / nanosecondsPerSecond) =
      .ok (seconds + (total.subsecond + nanoseconds) / nanosecondsPerSecond) :=
    word_eq_ok (by simp only [subsecond, nanosecondsPerSecond_eq, Word.count]; omega)
  have whole : word (total.seconds +
      (seconds + (total.subsecond + nanoseconds) / nanosecondsPerSecond)) =
      .ok (total.seconds + (seconds + (total.subsecond + nanoseconds) / nanosecondsPerSecond)) :=
    word_eq_ok (by simp only [Duration.seconds, subsecond, nanosecondsPerSecond_eq, Word.count]; omega)
  have summed : ofSeconds (total.seconds +
      (seconds + (total.subsecond + nanoseconds) / nanosecondsPerSecond))
        ((total.subsecond + nanoseconds) % nanosecondsPerSecond) = ⟨total.nanoseconds + length⟩ := by
    simp only [ofSeconds, Duration.seconds, subsecond, nanosecondsPerSecond_eq, Duration.mk.injEq]
    omega
  simp only [add, bind, Except.bind, below, carried, whole, summed]
  rfl

end Sums

/-! ## Parts -/

/-- A count of a unit under one of its names. A count of nanoseconds or of thousands or millions of them is less
than a second. -/
structure Part where
  count : Nat
  unit : Unit
  name : String
  named : Unit.ofName? name.toList = some unit
  small : unit.inSeconds = true ∨ count * unit.nanoseconds < nanosecondsPerSecond

namespace Part

/-- The text of a part. -/
def text (part : Part) : List Char := Nat.toDigits 10 part.count ++ part.name.toList

/-- The nanoseconds of a part. -/
def length (part : Part) : Nat := part.count * part.unit.nanoseconds

end Part

/-- The units in seconds are whole seconds long. -/
theorem Unit.whole_of_inSeconds {unit : Unit} (whole : unit.inSeconds = true) :
    unit.nanoseconds = unit.nanoseconds / nanosecondsPerSecond * nanosecondsPerSecond := by
  cases unit <;> first | rfl | cases whole

/-- No unit is empty. -/
theorem Unit.nanoseconds_pos (unit : Unit) : 0 < unit.nanoseconds := by
  cases unit <;> decide

/-- Units are written in letters. -/
theorem Unit.letters_of_ofName? {name : List Char} {unit : Unit} (named : Unit.ofName? name = some unit) :
    name ≠ [] ∧ name.all isLetter = true := by
  have among := List.find?_some named
  obtain ⟨candidate, present, isName⟩ := List.any_eq_true.mp among
  obtain rfl := of_decide_eq_true isName
  have all : ∀ candidate ∈ unit.names, candidate.toList ≠ [] ∧ candidate.toList.all isLetter = true := by
    cases unit <;> decide
  exact all candidate present

section Reading

variable {total : Duration} {count value place : Nat} {fraction : Option Fraction}
  {digits letters name rest : List Char} {character : Char}

/-- Counting a part adds its length. -/
theorem addCount_part (part : Part)
    (fits : total.nanoseconds + part.length < Word.count * nanosecondsPerSecond) :
    addCount total part.count none part.name.toList = .ok ⟨total.nanoseconds + part.length⟩ := by
  rw [addCount, part.named]
  cases whole : part.unit.inSeconds with
  | true =>
      have length : part.length =
          part.count * (part.unit.nanoseconds / nanosecondsPerSecond) * nanosecondsPerSecond + 0 := by
        rw [Nat.add_zero, Nat.mul_assoc, ← Unit.whole_of_inSeconds whole, Part.length]
      have counted : word (part.count * (part.unit.nanoseconds / nanosecondsPerSecond)) =
          .ok (part.count * (part.unit.nanoseconds / nanosecondsPerSecond)) :=
        word_eq_ok (by rw [nanosecondsPerSecond_eq] at length fits ⊢; omega)
      simp only [whole, if_true, bind, Except.bind, counted, add_eq_ok (by decide) length fits]
      rfl
  | false =>
      have small : part.count * part.unit.nanoseconds < nanosecondsPerSecond :=
        part.small.resolve_left (by rw [whole]; decide)
      have counted : word (part.count * part.unit.nanoseconds) = .ok (part.count * part.unit.nanoseconds) :=
        word_eq_ok (Nat.lt_trans small (by decide))
      have length : part.length = 0 * nanosecondsPerSecond + part.count * part.unit.nanoseconds := by
        rw [Nat.zero_mul, Nat.zero_add, Part.length]
      simp only [whole, Bool.false_eq_true, if_false, bind, Except.bind, counted, add_eq_ok small length fits]
      rfl

/-- Digits behind a value do not make it less. -/
theorem le_ofDigitChars (digits : List Char) (value : Nat) : value ≤ Nat.ofDigitChars 10 digits value := by
  induction digits generalizing value with
  | nil => exact Nat.le_refl value
  | cons digit rest inductionHypothesis =>
      rw [Nat.ofDigitChars_cons]
      exact Nat.le_trans (by omega) (inductionHypothesis _)

/-- Digits are read into the count that they belong to. -/
theorem readFrom_digits (all : digits.all Char.isDigit = true)
    (fits : Nat.ofDigitChars 10 digits value < Word.count) :
    ∃ later, readFrom (.count value) total place (digits ++ rest) =
      readFrom (.count (Nat.ofDigitChars 10 digits value)) total later rest := by
  induction digits generalizing value place with
  | nil => exact ⟨place, rfl⟩
  | cons digit others inductionHypothesis =>
      rw [List.all_cons, Bool.and_eq_true] at all
      rw [Nat.ofDigitChars_cons] at fits ⊢
      have sum : value * 10 + digitValue digit = 10 * value + (digit.toNat - '0'.toNat) := by
        rw [Nat.mul_comm, digitValue]
      have grows := le_ofDigitChars others (10 * value + (digit.toNat - '0'.toNat))
      have counted : word (value * 10 + digitValue digit) =
          .ok (10 * value + (digit.toNat - '0'.toNat)) := by
        rw [sum]
        exact word_eq_ok (Nat.lt_of_le_of_lt grows fits)
      obtain ⟨later, read⟩ := inductionHypothesis all.2 fits
      refine ⟨later, ?_⟩
      rw [List.cons_append, readFrom]
      simp only [all.1, if_true, bind, Except.bind, counted]
      exact read

/-- Letters are those of the alphabet in both cases, and the sign for a millionth. -/
theorem toNat_of_isLetter (letter : isLetter character = true) :
    (0x41 ≤ character.toNat ∧ character.toNat ≤ 0x5A) ∨
      (0x61 ≤ character.toNat ∧ character.toNat ≤ 0x7A) ∨ character.toNat = 0xB5 := by
  rcases Bool.or_eq_true_iff.mp letter with letter | micro
  · exact (Text.toNat_of_isAlpha letter).imp_right .inl
  · rw [of_decide_eq_true micro]
    exact .inr (.inr rfl)

/-- A letter is no digit. -/
theorem isDigit_eq_false (letter : isLetter character = true) : character.isDigit = false := by
  have code := toNat_of_isLetter letter
  refine Bool.eq_false_iff.mpr fun digit => ?_
  have most := (Text.isDigit_iff.mp digit).2
  omega

/-- A letter is visible. -/
theorem isBlank_eq_false (letter : isLetter character = true) : Text.isBlank character = false := by
  have never : Grammar.blanks.any isLetter = false := by decide
  exact Grammar.isBlank_eq_false_of never letter

/-- Letters are read into the name that they belong to. -/
theorem readFrom_letters (all : letters.all isLetter = true) :
    ∃ later, readFrom (.unit count fraction name) total place (letters ++ rest) =
      readFrom (.unit count fraction (name ++ letters)) total later rest := by
  induction letters generalizing name place with
  | nil => exact ⟨place, by rw [List.append_nil]; rfl⟩
  | cons letter others inductionHypothesis =>
      rw [List.all_cons, Bool.and_eq_true] at all
      obtain ⟨later, read⟩ := @inductionHypothesis (place + letter.utf8Size) (name ++ [letter]) all.2
      rw [List.append_assoc, List.singleton_append] at read
      refine ⟨later, ?_⟩
      rw [List.cons_append, readFrom]
      simp only [isDigit_eq_false all.1, isBlank_eq_false all.1, all.1, if_true, Bool.false_eq_true, if_false]
      exact read

/-- A count of a part fits a word when the part's length keeps below the limit. -/
theorem count_lt_of_length_lt (part : Part) (fits : part.length < Word.count * nanosecondsPerSecond) :
    part.count < Word.count := by
  rw [Part.length] at fits
  cases whole : part.unit.inSeconds with
  | true =>
      have long : nanosecondsPerSecond ≤ part.unit.nanoseconds := of_decide_eq_true whole
      exact Nat.lt_of_mul_lt_mul_right (Nat.lt_of_le_of_lt (Nat.mul_le_mul_left part.count long) fits)
  | false =>
      have small : part.count * part.unit.nanoseconds < nanosecondsPerSecond :=
        part.small.resolve_left (by rw [whole]; decide)
      have below := Nat.le_mul_of_pos_right part.count part.unit.nanoseconds_pos
      exact Nat.lt_trans (Nat.lt_of_le_of_lt below small) (by decide)

/-- A part is read up to the end of its name. -/
theorem readFrom_part (part : Part) (fits : part.count < Word.count) (first : Bool) :
    ∃ later, readFrom (.before first) total place (part.text ++ rest) =
      readFrom (.unit part.count none part.name.toList) total later rest := by
  obtain ⟨digit, digits, isCount⟩ := List.exists_cons_of_ne_nil (@Nat.toDigits_ne_nil part.count 10)
  have value : Nat.ofDigitChars 10 digits (digitValue digit) = part.count := by
    have whole : Nat.ofDigitChars 10 (digit :: digits) 0 = part.count := by
      rw [← isCount, Nat.ofDigitChars_ten_toDigits]
    rwa [Nat.ofDigitChars_cons, Nat.mul_zero, Nat.zero_add] at whole
  have allDigits : (digit :: digits).all Char.isDigit = true := by
    rw [← isCount]
    exact List.all_eq_true.mpr fun _ => Nat.isDigit_of_mem_toDigits (by decide) (by decide)
  rw [List.all_cons, Bool.and_eq_true] at allDigits
  obtain ⟨nonempty, allLetters⟩ := Unit.letters_of_ofName? part.named
  obtain ⟨letter, letters, isName⟩ := List.exists_cons_of_ne_nil nonempty
  rw [isName, List.all_cons, Bool.and_eq_true] at allLetters
  obtain ⟨behindCount, readCount⟩ := @readFrom_digits total (digitValue digit) (place + digit.utf8Size) digits
    (letter :: letters ++ rest) allDigits.2 (by rw [value]; exact fits)
  obtain ⟨behindName, readName⟩ := @readFrom_letters total part.count (behindCount + letter.utf8Size) none
    letters [letter] rest allLetters.2
  refine ⟨behindName, ?_⟩
  rw [Part.text, isCount, isName, List.append_assoc, List.cons_append, readFrom]
  simp only [allDigits.1, if_true]
  rw [readCount, value, List.cons_append, readFrom]
  simp only [isDigit_eq_false allLetters.1, isBlank_eq_false allLetters.1, allLetters.1, if_true,
    Bool.false_eq_true, if_false]
  exact readName

/-- Parts are read to their sum. -/
theorem readFrom_parts {parts : List Part} (nonempty : parts ≠ []) (first : Bool)
    (fits : total.nanoseconds + (parts.map Part.length).sum < Word.count * nanosecondsPerSecond) :
    readFrom (.before first) total place (Text.joinWith [' '] (parts.map Part.text)) =
      .ok ⟨total.nanoseconds + (parts.map Part.length).sum⟩ := by
  induction parts generalizing total place first with
  | nil => exact absurd rfl nonempty
  | cons part others inductionHypothesis =>
      have sum : total.nanoseconds + ((part :: others).map Part.length).sum =
          total.nanoseconds + part.length + (others.map Part.length).sum := by
        rw [List.map_cons, List.sum_cons, Nat.add_assoc]
      rw [sum] at fits ⊢
      have count := count_lt_of_length_lt part (by omega)
      have added := @addCount_part total part (by omega)
      cases others with
      | nil =>
          obtain ⟨later, read⟩ := @readFrom_part total place [] part count first
          rw [List.append_nil] at read
          rw [List.map_cons, List.map_nil, Text.joinWith, read, readFrom, added]
          rfl
      | cons next others =>
          have rest := @inductionHypothesis ⟨total.nanoseconds + part.length⟩
          obtain ⟨later, read⟩ := @readFrom_part total place
            (' ' :: Text.joinWith [' '] ((next :: others).map Part.text)) part count first
          rw [List.map_cons, List.map_cons, Text.joinWith, List.append_assoc, List.singleton_append,
            ← List.map_cons, read, readFrom]
          simp only [bind, Except.bind, added]
          exact rest (List.cons_ne_nil next others) false fits

end Reading

/-! ## Texts -/

/-- That texts are those of parts with a sum. -/
def Spells (texts : List String) (length : Nat) : Prop :=
  ∃ parts : List Part, texts.map String.toList = parts.map Part.text ∧ (parts.map Part.length).sum = length

section Spelling

variable {texts others : List String} {length otherLength count : Nat} {unit : Unit} {name : String}

/-- The lengths of two spellings add up. -/
theorem Spells.append (spells : Spells texts length) (spellsOthers : Spells others otherLength) :
    Spells (texts ++ others) (length + otherLength) := by
  obtain ⟨parts, isText, rfl⟩ := spells
  obtain ⟨otherParts, isOtherText, rfl⟩ := spellsOthers
  refine ⟨parts ++ otherParts, ?_, ?_⟩
  · rw [List.map_append, List.map_append, isText, isOtherText]
  · rw [List.map_append, List.sum_append]

/-- No text at all spells no time. -/
theorem spells_nil : Spells [] 0 := ⟨[], rfl, rfl⟩

/-- A part spells its length. -/
theorem spells_part (part : Part) : Spells [toString part.count ++ part.name] part.length :=
  ⟨[part], by simp [Part.text], by simp⟩

/-- A count of a unit spells its length, also when it is zero and left out. -/
theorem spells_shortPart (named : Unit.ofName? name.toList = some unit)
    (small : unit.inSeconds = true ∨ count * unit.nanoseconds < nanosecondsPerSecond) :
    Spells (shortPart count name) (count * unit.nanoseconds) := by
  rw [shortPart]
  split
  · next none =>
      rw [none, Nat.zero_mul]
      exact spells_nil
  · exact spells_part ⟨count, unit, name, named, small⟩

/-- A count of a unit with a plural spells its length under either name. -/
theorem spells_spelledPart (singular : Unit.ofName? name.toList = some unit)
    (plural : Unit.ofName? (name ++ "s").toList = some unit) (whole : unit.inSeconds = true) :
    Spells (spelledPart count name) (count * unit.nanoseconds) := by
  rw [spelledPart]
  split
  · next none =>
      rw [none, Nat.zero_mul]
      exact spells_nil
  · split
    · change Spells [toString count ++ name ++ "s"] _
      rw [String.append_assoc]
      exact spells_part ⟨count, unit, name ++ "s", plural, .inl whole⟩
    · change Spells [toString count ++ name ++ ""] _
      rw [String.append_empty]
      exact spells_part ⟨count, unit, name, singular, .inl whole⟩

/-- What is left behind one unit is counted in the next, down to single nanoseconds. -/
theorem sum_of_remainders (duration : Duration) :
    duration.nanoseconds =
      duration.seconds / 31557600 * Unit.year.nanoseconds +
      duration.seconds % 31557600 / 2630016 * Unit.month.nanoseconds +
      duration.seconds % 31557600 % 2630016 / 86400 * Unit.day.nanoseconds +
      duration.seconds % 31557600 % 2630016 % 86400 / 3600 * Unit.hour.nanoseconds +
      duration.seconds % 31557600 % 2630016 % 86400 % 3600 / 60 * Unit.minute.nanoseconds +
      duration.seconds % 31557600 % 2630016 % 86400 % 60 * Unit.second.nanoseconds +
      duration.subsecond / 1000000 * Unit.millisecond.nanoseconds +
      duration.subsecond / 1000 % 1000 * Unit.microsecond.nanoseconds +
      duration.subsecond % 1000 * Unit.nanosecond.nanoseconds := by
  simp only [Unit.nanoseconds, seconds, subsecond, nanosecondsPerSecond_eq]
  omega

/-- The parts that a duration is written in add up to it. -/
theorem spells_parts (duration : Duration) : Spells duration.parts duration.nanoseconds := by
  have below : duration.subsecond < nanosecondsPerSecond := Nat.mod_lt _ (by decide)
  rw [nanosecondsPerSecond_eq] at below
  rw [sum_of_remainders duration, parts]
  refine .append (.append (.append (.append (.append (.append (.append (.append ?years ?months) ?days) ?hours)
    ?minutes) ?seconds) ?milliseconds) ?microseconds) ?nanoseconds
  case years => exact spells_spelledPart (by decide) (by decide) rfl
  case months => exact spells_spelledPart (by decide) (by decide) rfl
  case days => exact spells_spelledPart (by decide) (by decide) rfl
  case hours => exact spells_shortPart (by decide) (.inl rfl)
  case minutes => exact spells_shortPart (by decide) (.inl rfl)
  case seconds => exact spells_shortPart (by decide) (.inl rfl)
  case milliseconds =>
    refine spells_shortPart (by decide) (.inr ?_)
    simp only [Unit.nanoseconds, nanosecondsPerSecond_eq]
    omega
  case microseconds =>
    refine spells_shortPart (by decide) (.inr ?_)
    simp only [Unit.nanoseconds, nanosecondsPerSecond_eq]
    omega
  case nanoseconds =>
    refine spells_shortPart (by decide) (.inr ?_)
    simp only [Unit.nanoseconds, nanosecondsPerSecond_eq]
    omega

end Spelling

/-- A duration whose seconds fit a word is read back from its text. -/
theorem read_text {duration : Duration} (fits : Word.isUnsigned duration.seconds = true) :
    read duration.text = .ok duration := by
  have limit : duration.nanoseconds < Word.count * nanosecondsPerSecond := by
    have below : duration.seconds < Word.count := of_decide_eq_true fits
    rw [seconds] at below
    exact (Nat.div_lt_iff_lt_mul (by decide)).mp below
  rw [text]
  split
  · next nothing =>
      obtain ⟨nanoseconds⟩ := duration
      obtain rfl : nanoseconds = 0 := nothing
      rfl
  · next something =>
      obtain ⟨parts, isText, isSum⟩ := spells_parts duration
      have nonempty : parts ≠ [] := by
        rintro rfl
        exact something isSum.symm
      have readParts := @readFrom_parts zero 0 parts nonempty true
      rw [isSum, zero, Nat.zero_add] at readParts
      have characters : (" ".intercalate duration.parts).toList = Text.joinWith [' '] (parts.map Part.text) := by
        rw [String.toList_intercalate, isText, Text.joinWith_eq_intercalate]
        rfl
      rw [read, characters, zero, readParts limit, if_neg]
      intro lone
      -- A lone zero has no unit, and so is not what the parts are read from.
      rw [lone] at characters
      rw [← characters] at readParts
      cases readParts limit

end Duration

end Orchestration
