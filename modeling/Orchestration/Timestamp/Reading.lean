import Orchestration.Timestamp.Basic

/-!
# Reading timestamps

A date, a time and an offset from universal time. Month, day, hour, minute and second have one or two
digits, a year has up to four or any number behind a sign, and blanks may stand around the parts. The
date and the time are set apart by a `T` or a blank; the offset is a `Z`, the letters `UTC`, or a sign
with two digits of hours and two of minutes.
-/

namespace Orchestration.Timestamp

/-- Reads a number of at least one and at most the given count of digits. -/
def number? (most : Nat) (text : List Char) : Option (Nat × List Char) :=
  let digits := (text.take most).takeWhile Char.isDigit
  if digits.isEmpty then none
  else some (Text.digitsToNat digits, text.drop digits.length)

/-- Reads a number of up to two digits behind blanks. -/
def part? (text : List Char) : Option (Nat × List Char) :=
  number? 2 (Text.trimStart text)

/-- Reads a year behind blanks. -/
def year? (text : List Char) : Option (Int × List Char) :=
  match Text.trimStart text with
  | '-' :: rest => (number? rest.length rest).map fun (year, rest) => (-(year : Int), rest)
  | '+' :: rest => (number? rest.length rest).map fun (year, rest) => ((year : Int), rest)
  | rest => (number? 4 rest).map fun (year, rest) => ((year : Int), rest)

/-- Reads a sign behind blanks. -/
def sign? (sign : Char) (text : List Char) : Option (List Char) :=
  match Text.trimStart text with
  | character :: rest => if character = sign then some rest else none
  | [] => none

/-- Reads the fraction of a second, if there is one, as nanoseconds. Digits after the ninth say
nothing. -/
def fraction? (text : List Char) : Option (Nat × List Char) :=
  match text with
  | '.' :: rest =>
      let digits := rest.takeWhile Char.isDigit
      let kept := digits.take 9
      if digits.isEmpty then none
      else
        some (Text.digitsToNat kept * Nat.pow 10 (9 - kept.length), rest.drop digits.length)
  | _ => some (0, text)

/-- Two digits. -/
def twoDigits? : List Char → Option (Nat × List Char)
  | tens :: ones :: rest =>
      if tens.isDigit && ones.isDigit then some (Text.digitsToNat [tens, ones], rest) else none
  | _ => none

/-- Reads an offset from universal time, in seconds. -/
def offset? (text : List Char) : Option (Int × List Char) :=
  let zone := (text.take 3).map Char.toUpper
  if zone = ['U', 'T', 'C'] then some (0, text.drop 3)
  else
    match text with
    | [] => none
    | sign :: rest =>
        if sign = 'Z' ∨ sign = 'z' then some (0, rest)
        else if sign = '+' ∨ sign = '-' ∨ sign = '−' then do
          let (hours, rest) ← twoDigits? rest
          let rest := rest.dropWhile fun character => character = ':' || Text.isBlank character
          let (minutes, rest) ← twoDigits? rest
          let seconds : Int := (hours * 3600 + minutes * 60 : Nat)
          if minutes < 60 ∧ hours < 24 then
            some (if sign = '+' then seconds else -seconds, rest)
          else none
        else none

/-- Reads a year, a month and a day. -/
def date? (text : List Char) : Option ((Int × Nat × Nat) × List Char) := do
  let (year, rest) ← year? text
  let rest ← sign? '-' rest
  let (month, rest) ← part? rest
  let rest ← sign? '-' rest
  let (day, rest) ← part? rest
  some ((year, month, day), rest)

/-- Reads what sets the time apart from the date. -/
def separator? : List Char → Option (List Char)
  | separator :: rest =>
      if separator = 'T' ∨ separator = 't' ∨ separator = ' ' then some rest else none
  | [] => none

/-- Reads an hour, a minute and a second. -/
def time? (text : List Char) : Option ((Nat × Nat × Nat) × List Char) := do
  let (hour, rest) ← part? text
  let rest ← sign? ':' rest
  let (minute, rest) ← part? rest
  let rest ← sign? ':' rest
  let (second, rest) ← part? rest
  some ((hour, minute, second), rest)

/-- The timestamp of a date and a time of day with nanoseconds, at an offset from universal time. -/
def ofParts? (date : Int × Nat × Nat) (time : Nat × Nat × Nat) (nanoseconds : Nat) (offset : Int) :
    Option Timestamp :=
  let (year, month, day) := date
  let (hour, minute, second) := time
  let isDate := isYear year && 1 ≤ month && month ≤ 12 && 1 ≤ day && day ≤ daysInMonth year month
  let isTime := hour < 24 && minute < 60 && second ≤ 60
  if isDate && isTime then
    let leap := if second = 60 then Duration.nanosecondsPerSecond else 0
    let seconds := daysFromDate year month day * 86400 +
      ((hour * 3600 + minute * 60 + min second 59 : Nat) : Int) - offset
    if isYear (dateOfDays (seconds / 86400)).1 then some ⟨seconds, nanoseconds + leap⟩ else none
  else none

/-- Reads a timestamp. -/
def read? (text : List Char) : Option Timestamp := do
  let (date, rest) ← date? text
  let rest ← separator? rest
  let (time, rest) ← time? rest
  let (nanoseconds, rest) ← fraction? rest
  let (offset, rest) ← offset? (Text.trimStart rest)
  if Text.isBlankText rest then ofParts? date time nanoseconds offset else none

end Orchestration.Timestamp
