import Orchestration.Proofs.Grammar
import Orchestration.Proofs.Printing
import Orchestration.Timestamp.Reading

/-!
# Timestamps as text

Days become dates by a formula over an era of four hundred years. It grows with the day and is right at both
ends of every year, so it is right on every day between them, and counting the days up to a date leads back.

A timestamp that could be read is written in universal time and read back as it was, a second that begins with
sixty included.
-/

namespace Orchestration.Timestamp

/-! ## Days and dates -/

section Dates

/-- The first day of a year in its era. -/
def yearStart (year : Int) : Int := 365 * year + year / 4 - year / 100

def yearOfEra (day : Int) : Int :=
  (day - day / 1460 + day / 36524 - day / 146096) / 365

/-- From one day to the next the year does not go back. -/
theorem yearOfEra_succ (day : Int) : yearOfEra day ≤ yearOfEra (day + 1) := by
  have step : day - day / 1460 + day / 36524 - day / 146096 ≤
      day + 1 - (day + 1) / 1460 + (day + 1) / 36524 - (day + 1) / 146096 := by omega
  exact Int.ediv_le_ediv (by decide) step

/-- A later day has no earlier year. -/
theorem yearOfEra_mono {first last : Int} (ordered : first ≤ last) : yearOfEra first ≤ yearOfEra last := by
  induction last, ordered using Int.leInduction with
  | base => exact le_rfl
  | succ last ordered inductionHypothesis => exact inductionHypothesis.trans (yearOfEra_succ last)

/-- The first day and the last day of every year of an era have that year. -/
theorem yearOfEra_ends : ∀ year < 400, yearOfEra (yearStart (year : Nat)) = year ∧
    yearOfEra (yearStart ((year : Nat) + 1) - 1) = year := by
  decide +kernel

/-- Every day of an era lies in its year. The last day of the era has no year after it. -/
theorem yearOfEra_spec {day : Int} (low : 0 ≤ day) (high : day < 146097) :
    0 ≤ yearOfEra day ∧ yearOfEra day ≤ 399 ∧ yearStart (yearOfEra day) ≤ day ∧
      (day < yearStart (yearOfEra day + 1) ∨ yearOfEra day = 399) := by
  have first : 0 ≤ yearOfEra day := yearOfEra_mono low
  have last : yearOfEra day ≤ 399 := yearOfEra_mono (show day ≤ 146096 by omega)
  obtain ⟨year, same⟩ := Int.eq_ofNat_of_zero_le first
  refine ⟨first, last, ?_, ?_⟩
  · by_contra early
    rcases Nat.eq_zero_or_pos year with rfl | positive
    · exact early (by rw [same]; exact low)
    · have before := (yearOfEra_ends (year - 1) (by omega)).2
      rw [Int.ofNat_sub positive] at before
      simp only [Nat.cast_one, sub_add_cancel] at before
      have notLater := yearOfEra_mono (show day ≤ yearStart year - 1 by rw [same] at early; omega)
      omega
  · by_contra late
    push Not at late
    have after := (yearOfEra_ends (year + 1) (by omega)).1
    have notEarlier := yearOfEra_mono
      (show yearStart (year + 1 : Nat) ≤ day by rw [same] at late; exact_mod_cast late.1)
    omega

/-- A day as an era of four hundred years, a year of the era that begins in March, a month counted from
March and a day of the year. -/
structure IsDay (days era year dayOfYear : Int) (fromMarch : Nat) : Prop where
  days : days = era * 146097 + yearStart year + dayOfYear - 719468
  first : 0 ≤ year
  last : year ≤ 399
  begins : 0 ≤ dayOfYear
  ends : yearStart year + dayOfYear < yearStart (year + 1) ∨ year = 399 ∧ yearStart year + dayOfYear ≤ 146096
  month : fromMarch ≤ 11
  monthBegins : (153 * (fromMarch : Int) + 2) / 5 ≤ dayOfYear
  monthEnds : dayOfYear < (153 * ((fromMarch : Int) + 1) + 2) / 5

/-- The date of a day has the month and the day of the month that its place in the year gives, counted from
March. -/
theorem dateOfDays_eq (days : Int) : ∃ era year dayOfYear : Int, ∃ fromMarch : Nat,
    IsDay days era year dayOfYear fromMarch ∧
      dateOfDays days = (if fromMarch < 10 then year + era * 400 else year + era * 400 + 1,
        if fromMarch < 10 then fromMarch + 3 else fromMarch - 9,
        (dayOfYear - (153 * (fromMarch : Int) + 2) / 5 + 1).toNat) := by
  have low : 0 ≤ days + 719468 - (days + 719468) / 146097 * 146097 := by omega
  have high : days + 719468 - (days + 719468) / 146097 * 146097 < 146097 := by omega
  obtain ⟨first, last, starts, ends⟩ := yearOfEra_spec low high
  generalize same : yearOfEra (days + 719468 - (days + 719468) / 146097 * 146097) = year at *
  have begins : 0 ≤ days + 719468 - (days + 719468) / 146097 * 146097 - yearStart year := by omega
  have within : days + 719468 - (days + 719468) / 146097 * 146097 - yearStart year ≤ 365 := by
    unfold yearStart at *
    omega
  obtain ⟨fromMarch, month⟩ := Int.eq_ofNat_of_zero_le
    (show 0 ≤ (5 * (days + 719468 - (days + 719468) / 146097 * 146097 - yearStart year) + 2) / 153 by omega)
  refine ⟨(days + 719468) / 146097, year, _, fromMarch,
    ⟨?_, first, last, begins, ?_, ?_, ?_, ?_⟩, ?_⟩
  · omega
  · omega
  · omega
  · omega
  · omega
  · unfold dateOfDays
    dsimp only
    unfold yearOfEra at same
    rw [same, show 365 * year + year / 4 - year / 100 = yearStart year from rfl, month]
    by_cases early : fromMarch < 10
    · have signed : (fromMarch : Int) < 10 := by exact_mod_cast early
      have month : ¬ (fromMarch : Int) + 3 ≤ 2 := by omega
      have same : ((fromMarch : Int) + 3).toNat = fromMarch + 3 := by omega
      simp only [early, signed, month, same, if_true, if_false]
    · have signed : ¬ (fromMarch : Int) < 10 := by exact_mod_cast early
      have month : (fromMarch : Int) - 9 ≤ 2 := by omega
      have same : ((fromMarch : Int) - 9).toNat = fromMarch - 9 := by omega
      simp only [early, signed, month, same, if_true, if_false]

/-- Leap years are those that four divides, and of the centuries those that four hundred divides. -/
theorem isLeapYear_iff {year : Int} :
    isLeapYear year = true ↔ year % 4 = 0 ∧ (year % 100 ≠ 0 ∨ year % 400 = 0) := by
  simp [isLeapYear]

/-- The months before February are as long as the formula has it, counted from March. -/
theorem length_of_month {fromMarch : Nat} (before : fromMarch ≤ 10) (year : Int) :
    (153 * ((fromMarch : Int) + 1) + 2) / 5 ≤ (153 * (fromMarch : Int) + 2) / 5 +
      daysInMonth year (if fromMarch < 10 then fromMarch + 3 else fromMarch - 9) := by
  interval_cases fromMarch <;> simp [daysInMonth]

/-- The leap day ends the years that are a day longer. -/
theorem day_of_february {era year dayOfYear : Int} 
    (ends : yearStart year + dayOfYear < yearStart (year + 1) ∨
      year = 399 ∧ yearStart year + dayOfYear ≤ 146096) :
    dayOfYear < 337 + daysInMonth (year + era * 400 + 1) 2 := by
  by_cases leap : isLeapYear (year + era * 400 + 1) = true
  · simp only [daysInMonth, leap, if_true]
    unfold yearStart at ends
    omega
  · simp only [daysInMonth, leap, if_true, Bool.false_eq_true, if_false]
    rw [isLeapYear_iff] at leap
    unfold yearStart at ends
    omega

/-- The date of a day is one of the calendar, and the days up to it are counted back. -/
theorem dateOfDays_spec {days year : Int} {month day : Nat} (date : dateOfDays days = (year, month, day)) :
    1 ≤ month ∧ month ≤ 12 ∧ 1 ≤ day ∧ day ≤ daysInMonth year month ∧ daysFromDate year month day = days := by
  obtain ⟨era, yearOfEra, dayOfYear, fromMarch, isDay, parts⟩ := dateOfDays_eq days
  obtain ⟨rfl, first, last, begins, ends, lastMonth, monthBegins, monthEnds⟩ := isDay
  rw [parts] at date
  simp only [Prod.mk.injEq] at date
  obtain ⟨rfl, rfl, rfl⟩ := date
  refine ⟨?_, ?_, ?_, ?_, ?_⟩
  · split <;> omega
  · split <;> omega
  · omega
  · rcases Nat.lt_or_ge fromMarch 11 with before | february
    · have length := length_of_month (Nat.le_of_lt_succ before)
        (if fromMarch < 10 then yearOfEra + era * 400 else yearOfEra + era * 400 + 1)
      omega
    · obtain rfl : fromMarch = 11 := by omega
      have length := @day_of_february era _ _ ends
      simp only [Nat.reduceLT, if_false, Nat.reduceSub]
      omega
  · unfold daysFromDate
    dsimp only
    by_cases early : fromMarch < 10
    · have late : ¬ fromMarch + 3 ≤ 2 := by omega
      have back : (fromMarch + 3 + 9) % 12 = fromMarch := by omega
      simp only [early, late, if_true, if_false, back]
      unfold yearStart
      omega
    · have late : fromMarch - 9 ≤ 2 := by omega
      have back : (fromMarch - 9 + 9) % 12 = fromMarch := by omega
      simp only [early, late, if_true, if_false, back]
      unfold yearStart
      omega

end Dates

/-! ## Parts -/

section Parts

open Orchestration.Text (digitsToNat)

variable {digits rest : List Char}

/-- Digits are read up to a bound on their number or to the first character that is none. -/
theorem number?_append {most : Nat} (nonempty : digits ≠ []) (all : digits.all Char.isDigit = true)
    (fits : digits.length ≤ most)
    (ends : digits.length = most ∨ ∀ character ∈ rest.head?, character.isDigit = false) :
    number? most (digits ++ rest) = some (digitsToNat digits, rest) := by
  have taken : ((digits ++ rest).take most).takeWhile Char.isDigit = digits := by
    rw [List.take_append, List.take_of_length_le fits]
    rcases ends with full | ends
    · simp [full, List.takeWhile_eq_self_iff.mpr (List.all_eq_true.mp all)]
    · refine (Text.span_append all ?_).1
      intro character front
      cases rest with
      | nil => simp at front
      | cons first others =>
          cases room : most - digits.length with
          | zero => simp [room] at front
          | succ count =>
              rw [room, List.take_succ_cons] at front
              exact ends character front
  unfold number?
  simp [taken, nonempty]

/-- A padded number is its digits behind zeros. -/
theorem toList_padded (width number : Nat) : (padded width number).toList =
    List.replicate (width - (Nat.toDigits 10 number).length) '0' ++ Nat.toDigits 10 number := by
  simp [padded]

/-- A padded number is made of digits. -/
theorem all_padded (width number : Nat) : (padded width number).toList.all Char.isDigit = true := by
  rw [toList_padded, List.all_append, Binary64.Decimal.all_toDigits]
  simp

/-- Padding does not change the number. -/
theorem digitsToNat_padded (width number : Nat) : digitsToNat (padded width number).toList = number := by
  rw [toList_padded, Text.digitsToNat_append, Text.digitsToNat_replicate_zero, Text.digitsToNat_toDigits]
  simp

/-- A padded number has a digit. -/
theorem padded_ne_nil (width number : Nat) : (padded width number).toList ≠ [] := by
  rw [toList_padded]
  simp [Nat.toDigits_ne_nil]

/-- A number that fits its width is as long as it. -/
theorem length_padded {width number : Nat} (positive : 0 < width) (fits : number < 10 ^ width) :
    (padded width number).toList.length = width := by
  have short : (Nat.toDigits 10 number).length ≤ width := (Binary64.digitCount_le_iff positive).mpr fits
  rw [toList_padded, List.length_append, List.length_replicate]
  omega

/-- Nothing is trimmed from a text that begins with no blank. -/
theorem trimStart_of_head {first : Char} (visible : Text.isBlank first = false) :
    Text.trimStart (first :: rest) = first :: rest := by
  rw [Text.trimStart, List.dropWhile_cons_of_neg (by simp [visible])]

/-- Digits are no blanks. -/
theorem isBlank_of_isDigit {digit : Char} (isDigit : digit.isDigit = true) : Text.isBlank digit = false :=
  Grammar.isBlank_of_isWord (Text.isWord_of_isPlainWord (by simp [Text.isPlainWord, Char.isAlphanum, isDigit]))

/-- Digits are not trimmed. -/
theorem trimStart_digits (nonempty : digits ≠ []) (all : digits.all Char.isDigit = true) :
    Text.trimStart (digits ++ rest) = digits ++ rest := by
  obtain ⟨first, others, rfl⟩ := List.exists_cons_of_ne_nil nonempty
  exact trimStart_of_head (isBlank_of_isDigit (List.all_eq_true.mp all first List.mem_cons_self))

/-- Two digits are read back whatever follows them. -/
theorem part?_padded {number : Nat} (fits : number < 100) :
    part? ((padded 2 number).toList ++ rest) = some (number, rest) := by
  rw [part?, trimStart_digits (padded_ne_nil 2 number) (all_padded 2 number),
    number?_append (padded_ne_nil 2 number) (all_padded 2 number)
      (length_padded (by decide) fits).le (.inl (length_padded (by decide) fits)), digitsToNat_padded]

/-- A sign is read where it stands. -/
theorem sign?_cons {sign : Char} (visible : Text.isBlank sign = false) :
    sign? sign (sign :: rest) = some rest := by
  rw [sign?, trimStart_of_head visible]
  simp

/-- A year of any length is read up to the sign minus behind it. -/
theorem number?_year (year : Nat) :
    number? ((padded 4 year).toList ++ '-' :: rest).length ((padded 4 year).toList ++ '-' :: rest) =
      some (year, '-' :: rest) := by
  rw [number?_append (padded_ne_nil 4 year) (all_padded 4 year) (by simp) (.inr (by simp)),
    digitsToNat_padded]

/-- A year of four digits is read back in front of a minus. -/
theorem year?_unsigned {year : Nat} (fits : year ≤ 9999) :
    year? ((padded 4 year).toList ++ '-' :: rest) = some ((year : Int), '-' :: rest) := by
  have all := all_padded 4 year
  have length := length_padded (by decide) (show year < 10 ^ 4 by omega)
  have trimmed := @trimStart_digits _ ('-' :: rest) (padded_ne_nil 4 year) all
  have read := @number?_append _ ('-' :: rest) 4 (padded_ne_nil 4 year) all length.le (.inl length)
  obtain ⟨first, others, cons⟩ := List.exists_cons_of_ne_nil (padded_ne_nil 4 year)
  have digit := List.all_eq_true.mp all first (cons ▸ List.mem_cons_self)
  have notMinus : first ≠ '-' := by
    rintro rfl
    cases digit
  have notPlus : first ≠ '+' := by
    rintro rfl
    cases digit
  rw [digitsToNat_padded, cons, List.cons_append] at read
  rw [cons, List.cons_append] at trimmed
  rw [year?, cons, List.cons_append, trimmed]
  simp [notMinus, notPlus, read]

/-- Every year is read back in front of a minus, with its sign if it has one. -/
theorem year?_yearText (year : Int) :
    year? ((yearText year).toList ++ '-' :: rest) = some (year, '-' :: rest) := by
  unfold yearText
  split
  · next plain =>
      rw [year?_unsigned (by omega), Int.toNat_of_nonneg plain.1]
  · next signed =>
      have read := @number?_year rest year.natAbs
      by_cases negative : year < 0
      · have text : ("-" ++ padded 4 year.natAbs).toList ++ '-' :: rest =
            '-' :: ((padded 4 year.natAbs).toList ++ '-' :: rest) := by simp
        rw [if_pos negative, text]
        simp only [year?, trimStart_of_head (show Text.isBlank '-' = false by decide), read, Option.map_some]
        rw [Int.ofNat_natAbs_of_nonpos negative.le, neg_neg]
      · have text : ("+" ++ padded 4 year.natAbs).toList ++ '-' :: rest =
            '+' :: ((padded 4 year.natAbs).toList ++ '-' :: rest) := by simp
        rw [if_neg negative, text]
        simp only [year?, trimStart_of_head (show Text.isBlank '+' = false by decide), read, Option.map_some]
        rw [Int.natAbs_of_nonneg (not_lt.mp negative)]

/-- The digits of a fraction, at most nine, count nanoseconds. -/
theorem fraction?_digits (nonempty : digits ≠ []) (all : digits.all Char.isDigit = true)
    (fits : digits.length ≤ 9) (ends : ∀ character ∈ rest.head?, character.isDigit = false) :
    fraction? ('.' :: (digits ++ rest)) = some (digitsToNat digits * 10 ^ (9 - digits.length), rest) := by
  have taken := (Text.span_append all ends).1
  simp [fraction?, taken, nonempty, List.take_of_length_le fits]

/-- A fraction with a width for its digits, of which none is lost. -/
theorem fraction?_padded {width unit count : Nat} (positive : 0 < width) (fits : width ≤ 9)
    (within : count < 10 ^ width) (whole : 10 ^ (9 - width) = unit) :
    fraction? (("." ++ padded width count).toList ++ ['Z']) = some (count * unit, ['Z']) := by
  have length := length_padded positive within
  have pointed : ("." ++ padded width count).toList ++ ['Z'] =
      '.' :: ((padded width count).toList ++ ['Z']) := by simp
  rw [pointed, fraction?_digits (padded_ne_nil width count) (all_padded width count)
    (length.le.trans fits) (by simp), digitsToNat_padded, length, whole]

/-- A fraction of a second is read back in front of the zone. -/
theorem fraction?_fractionText {nanoseconds : Nat} (fits : nanoseconds < 1000000000) :
    fraction? ((fractionText nanoseconds).toList ++ ['Z']) = some (nanoseconds, ['Z']) := by
  unfold fractionText
  split
  · next none =>
      subst none
      rfl
  · split
    · next milli =>
        rw [@fraction?_padded 3 1000000 _ (by decide) (by decide) (by omega) (by decide),
          Nat.div_mul_cancel (Nat.dvd_of_mod_eq_zero milli)]
    · split
      · next micro =>
          rw [@fraction?_padded 6 1000 _ (by decide) (by decide) (by omega) (by decide),
            Nat.div_mul_cancel (Nat.dvd_of_mod_eq_zero micro)]
      · rw [@fraction?_padded 9 1 _ (by decide) (by decide) (by omega) (by decide), mul_one]

end Parts

/-! ## Timestamps -/

section Whole

variable {timestamp : Timestamp}

/-- That a timestamp is one that a text can spell: its year is within the bounds, and the excess of its
nanoseconds, if any, is that of the last second of a minute. -/
structure IsSpelled (timestamp : Timestamp) : Prop where
  year : isYear (dateOfDays (timestamp.seconds / 86400)).1 = true
  nanoseconds : timestamp.nanoseconds < 2 * Duration.nanosecondsPerSecond
  excess : Duration.nanosecondsPerSecond ≤ timestamp.nanoseconds → timestamp.seconds % 60 = 59

/-- A second has a thousand million nanoseconds. -/
theorem nanosecondsPerSecond_eq : Duration.nanosecondsPerSecond = 1000000000 := rfl

/-- A date is read back whatever follows it. -/
theorem date?_text {year : Int} {month day : Nat} (monthFits : month < 100) (dayFits : day < 100)
    (rest : List Char) :
    date? ((yearText year).toList ++
        '-' :: ((padded 2 month).toList ++ '-' :: ((padded 2 day).toList ++ rest))) =
      some ((year, month, day), rest) := by
  have minus : Text.isBlank '-' = false := by decide
  simp [date?, year?_yearText, sign?_cons minus, part?_padded monthFits, part?_padded dayFits]

/-- A time of day is read back whatever follows it. -/
theorem time?_text {hour minute second : Nat} (hourFits : hour < 100) (minuteFits : minute < 100)
    (secondFits : second < 100) (rest : List Char) :
    time? ((padded 2 hour).toList ++ ':' :: ((padded 2 minute).toList ++ ':' ::
      ((padded 2 second).toList ++ rest))) = some ((hour, minute, second), rest) := by
  have colon : Text.isBlank ':' = false := by decide
  simp [time?, sign?_cons colon, part?_padded hourFits, part?_padded minuteFits, part?_padded secondFits]

/-- The parts of a timestamp in universal time make it up again. -/
theorem ofParts?_of_date (spelled : IsSpelled timestamp) {year : Int} {month day second : Nat}
    (date : dateOfDays (timestamp.seconds / 86400) = (year, month, day))
    (fromMidnight : (timestamp.seconds % 86400).toNat = second) :
    ofParts? (year, month, day)
      (second / 3600, second / 60 % 60, second % 60 + timestamp.nanoseconds / 1000000000)
      (timestamp.nanoseconds % 1000000000) 0 = some timestamp := by
  obtain ⟨yearFits, nanoseconds, excess⟩ := spelled
  obtain ⟨monthFirst, monthLast, dayFirst, dayLast, counted⟩ := dateOfDays_spec date
  rw [nanosecondsPerSecond_eq] at nanoseconds excess
  have isDate : isYear year && 1 ≤ month && month ≤ 12 && 1 ≤ day && day ≤ daysInMonth year month := by
    rw [date] at yearFits
    simp [yearFits, monthFirst, monthLast, dayFirst, dayLast]
  have isTime : second / 3600 < 24 && second / 60 % 60 < 60 &&
      second % 60 + timestamp.nanoseconds / 1000000000 ≤ 60 := by
    simp only [Bool.and_eq_true, decide_eq_true_eq]
    omega
  have seconds : daysFromDate year month day * 86400 + ((second / 3600 * 3600 + second / 60 % 60 * 60 +
      min (second % 60 + timestamp.nanoseconds / 1000000000) 59 : Nat) : Int) - 0 = timestamp.seconds := by
    omega
  have leap : timestamp.nanoseconds % 1000000000 +
      (if second % 60 + timestamp.nanoseconds / 1000000000 = 60 then 1000000000 else 0) =
        timestamp.nanoseconds := by
    split <;> omega
  unfold ofParts?
  dsimp only
  rw [if_pos (by rw [isDate, isTime]; rfl), seconds, if_pos yearFits, nanosecondsPerSecond_eq, leap]

/-- A timestamp is written as its date, its time of day and the zone. -/
theorem toList_text {year : Int} {month day second : Nat}
    (date : dateOfDays (timestamp.seconds / 86400) = (year, month, day))
    (fromMidnight : (timestamp.seconds % 86400).toNat = second) :
    timestamp.text.toList = (yearText year).toList ++ '-' :: ((padded 2 month).toList ++
      '-' :: ((padded 2 day).toList ++ 'T' :: ((padded 2 (second / 3600)).toList ++
        ':' :: ((padded 2 (second / 60 % 60)).toList ++
          ':' :: ((padded 2 (second % 60 + timestamp.nanoseconds / 1000000000)).toList ++
            ((fractionText (timestamp.nanoseconds % 1000000000)).toList ++ ['Z'])))))) := by
  simp [text, date, fromMidnight, nanosecondsPerSecond_eq]

/-- A timestamp is read back from its text. -/
theorem read?_text (spelled : IsSpelled timestamp) : read? timestamp.text.toList = some timestamp := by
  obtain ⟨year, month, day, date⟩ : ∃ year month day,
    dateOfDays (timestamp.seconds / 86400) = (year, month, day) := ⟨_, _, _, rfl⟩
  generalize fromMidnight : (timestamp.seconds % 86400).toNat = second
  have isDate := dateOfDays_spec date
  have longest : daysInMonth year month ≤ 31 := by
    unfold daysInMonth
    split_ifs <;> omega
  have nanoseconds := spelled.nanoseconds
  rw [nanosecondsPerSecond_eq] at nanoseconds
  have dateRead := @date?_text year month day (by omega) (by omega)
  have timeRead := @time?_text (second / 3600) (second / 60 % 60)
    (second % 60 + timestamp.nanoseconds / 1000000000) (by omega) (by omega) (by omega)
  have fractionRead := fraction?_fractionText
    (Nat.mod_lt timestamp.nanoseconds (by decide : 0 < 1000000000))
  have separated : ∀ rest, separator? ('T' :: rest) = some rest := fun _ => rfl
  have zone : offset? (Text.trimStart ['Z']) = some (0, []) := by decide
  rw [toList_text date fromMidnight, read?, dateRead]
  simp only [Option.bind_eq_bind, Option.bind_some, separated]
  rw [timeRead]
  simp only [Option.bind_some, fractionRead, zone]
  exact ofParts?_of_date spelled date fromMidnight

/-- Offsets from universal time are whole minutes. -/
theorem offset?_whole {text rest : List Char} {offset : Int} (read : offset? text = some (offset, rest)) :
    offset % 60 = 0 := by
  unfold offset? at read
  dsimp only at read
  split at read
  · cases read
    rfl
  · split at read
    · cases read
    · next sign others =>
        split at read
        · cases read
          rfl
        · split at read
          · simp only [Option.bind_eq_bind, Option.bind_eq_some_iff] at read
            obtain ⟨⟨hours, first⟩, -, ⟨minutes, second⟩, -, read⟩ := read
            split at read
            · cases read
              split <;> omega
            · cases read
          · cases read

/-- A fraction that was read is less than a second. -/
theorem fraction?_lt {text rest : List Char} {nanoseconds : Nat}
    (read : fraction? text = some (nanoseconds, rest)) : nanoseconds < 1000000000 := by
  unfold fraction? at read
  split at read
  · next digits =>
      dsimp only at read
      split at read
      · cases read
      · cases read
        have all : ((digits.takeWhile Char.isDigit).take 9).all Char.isDigit = true :=
          List.all_eq_true.mpr fun digit within =>
            List.all_eq_true.mp List.all_takeWhile digit (List.mem_of_mem_take within)
        have short : ((digits.takeWhile Char.isDigit).take 9).length ≤ 9 := List.length_take_le _ _
        have below := Text.digitsToNat_lt all
        generalize (digits.takeWhile Char.isDigit).take 9 = kept at *
        calc Text.digitsToNat kept * 10 ^ (9 - kept.length)
            < 10 ^ kept.length * 10 ^ (9 - kept.length) := Nat.mul_lt_mul_of_pos_right below (by positivity)
          _ = 1000000000 := by
            rw [← pow_add, Nat.add_sub_cancel' short]
            rfl
  · cases read
    decide

/-- What was read can be spelled. -/
theorem isSpelled_of_read? {text : List Char} (read : read? text = some timestamp) : IsSpelled timestamp := by
  simp only [read?, Option.bind_eq_bind, Option.bind_eq_some_iff] at read
  obtain ⟨⟨⟨year, month, day⟩, afterDate⟩, -, begun, -, ⟨⟨hour, minute, second⟩, afterTime⟩, -,
    ⟨nanoseconds, afterFraction⟩, fraction, ⟨offset, rest⟩, zone, made⟩ := read
  have whole := offset?_whole zone
  have below := fraction?_lt fraction
  dsimp only at made
  split at made
  · unfold ofParts? at made
    dsimp only at made
    split at made
    · next valid =>
        split at made
        · next yearFits =>
            cases made
            simp only [Bool.and_eq_true, decide_eq_true_eq] at valid
            refine ⟨yearFits, ?_, ?_⟩
            · rw [nanosecondsPerSecond_eq]
              dsimp only
              split <;> omega
            · intro excess
              rw [nanosecondsPerSecond_eq] at excess
              dsimp only at excess ⊢
              split at excess <;> omega
        · cases made
    · cases made
  · cases made

end Whole

end Orchestration.Timestamp
