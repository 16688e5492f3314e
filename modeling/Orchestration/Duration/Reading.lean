import Orchestration.Duration.Basic
import Orchestration.Text.Blank
import Orchestration.Word

/-!
# Reading durations

A duration is written as counts with units, such as `1h 30m` or `1.5s`, and stands for their sum. Blanks
may stand almost anywhere. Counts, their fractions and the sums are held in words of 64 bits, of whole
seconds and of nanoseconds; what fits no word, and a fraction that does not divide into the unit's
smallest part, is out of range.
-/

namespace Orchestration.Duration

/-- Why a text is no duration. Places are offsets in bytes. -/
inductive ReadingError where
  | empty
  | numberExpected (place : Nat)
  | invalidCharacter (place : Nat)
  | outOfRange
  | unitMissing (count : Nat)
  | unknownUnit (name : String)
  deriving DecidableEq, Repr

/-- The wording of a failure. -/
def ReadingError.message : ReadingError → String
  | .empty => "value was empty"
  | .numberExpected place => s!"expected number at {place}"
  | .invalidCharacter place => s!"invalid character at {place}"
  | .outOfRange =>
      "number is too large or cannot be represented without a lack of precision " ++
        "(values below 1ns are not supported)"
  | .unitMissing count => s!"time unit needed, for example {count}sec or {count}ms"
  | .unknownUnit name =>
      s!"unknown time unit \"{name}\", supported units: ns, us/µs, ms, sec, min, hours, days, " ++
        "weeks, months, years (and few variations)"

/-- A number, if it fits a word. -/
def word (value : Nat) : Except ReadingError Nat :=
  if Word.isUnsigned value then .ok value else .error .outOfRange

/-- True of the units that are counted in whole seconds and not in nanoseconds. -/
def Unit.inSeconds (unit : Unit) : Bool :=
  nanosecondsPerSecond ≤ unit.nanoseconds

/-- The sum of a duration, whole seconds and nanoseconds. -/
def add (total : Duration) (seconds nanoseconds : Nat) : Except ReadingError Duration := do
  let below ← word (total.subsecond + nanoseconds)
  let carried ← word (seconds + below / nanosecondsPerSecond)
  let whole ← word (total.seconds + carried)
  return ofSeconds whole (below % nanosecondsPerSecond)

/-- The digits behind a point: their value and the power of ten they are counted in. -/
structure Fraction where
  numerator : Nat
  denominator : Nat
  deriving DecidableEq, Repr

/-- The parts of a unit that a fraction of it is counted in: nanoseconds up to a minute, and whole
seconds from an hour on. A nanosecond has no parts. -/
def Unit.fractionParts? : Unit → Option Nat
  | .nanosecond => none
  | .microsecond => some 1000
  | .millisecond => some 1000000
  | .second => some nanosecondsPerSecond
  | .minute => some (60 * nanosecondsPerSecond)
  | unit => some (unit.nanoseconds / nanosecondsPerSecond)

/-- True of the units whose fractions are counted in whole seconds. -/
def Unit.fractionInSeconds (unit : Unit) : Bool :=
  Unit.hour.nanoseconds ≤ unit.nanoseconds

/-- The sum of a duration and a fraction of a unit. -/
def addFraction (total : Duration) (unit : Unit) (fraction : Fraction) :
    Except ReadingError Duration := do
  match unit.fractionParts? with
  | none => .error .outOfRange
  | some parts =>
      let scaled ← word (fraction.numerator * parts)
      if scaled % fraction.denominator ≠ 0 then .error .outOfRange
      else if unit.fractionInSeconds then add total (scaled / fraction.denominator) 0
      else add total 0 (scaled / fraction.denominator)

/-- The sum of a duration and a count of a unit that is given by its name. -/
def addCount (total : Duration) (count : Nat) (fraction : Option Fraction) (name : List Char) :
    Except ReadingError Duration := do
  match Unit.ofName? name with
  | none =>
      if name.isEmpty then .error (.unitMissing count)
      else .error (.unknownUnit (String.ofList name))
  | some unit =>
      let sum ←
        if unit.inSeconds then do
          add total (← word (count * (unit.nanoseconds / nanosecondsPerSecond))) 0
        else do
          add total 0 (← word (count * unit.nanoseconds))
      match fraction with
      | none => return sum
      | some fraction => addFraction sum unit fraction

/-- True of the letters that units are made of. -/
def isLetter (character : Char) : Bool :=
  character.isAlpha || character = 'µ'

/-- The value of an ASCII digit. -/
def digitValue (digit : Char) : Nat := digit.toNat - '0'.toNat

/-- Where reading stands. -/
inductive Cursor where
  /-- Before a count; the first one has to come. -/
  | before (first : Bool)
  /-- In a count. -/
  | count (value : Nat)
  /-- In the fraction of a count. The place is the one to blame if the fraction goes wrong. -/
  | fraction (count : Nat) (fraction : Fraction) (place : Nat)
  /-- In the name of a unit. -/
  | unit (count : Nat) (fraction : Option Fraction) (name : List Char)

/-- Reads on from a cursor, with the sum so far and the offset of the next character. -/
def readFrom : Cursor → Duration → Nat → List Char → Except ReadingError Duration
  | .before first, total, _, [] => if first then .error .empty else .ok total
  | .count value, total, _, [] => addCount total value none []
  | .fraction count fraction place, total, _, [] =>
      if fraction.denominator = 1 then .error (.invalidCharacter place)
      else addCount total count (some fraction) []
  | .unit count fraction name, total, _, [] => addCount total count fraction name
  | .before first, total, place, character :: rest =>
      let after := place + character.utf8Size
      if character.isDigit then readFrom (.count (digitValue character)) total after rest
      else if Text.isBlank character then readFrom (.before first) total after rest
      else .error (.numberExpected place)
  | .count value, total, place, character :: rest =>
      let after := place + character.utf8Size
      if character.isDigit then do
        let value ← word (value * 10 + digitValue character)
        readFrom (.count value) total after rest
      else if Text.isBlank character then readFrom (.count value) total after rest
      else if isLetter character then readFrom (.unit value none [character]) total after rest
      else if character = '.' then readFrom (.fraction value ⟨0, 1⟩ place) total after rest
      else .error (.invalidCharacter place)
  | .fraction count fraction blamed, total, place, character :: rest =>
      let after := place + character.utf8Size
      if character.isDigit then do
        let denominator ← word (fraction.denominator * 10)
        let numerator ← word (fraction.numerator * 10 + digitValue character)
        readFrom (.fraction count ⟨numerator, denominator⟩ after) total after rest
      else if Text.isBlank character then
        readFrom (.fraction count fraction after) total after rest
      else if isLetter character && fraction.denominator != 1 then
        readFrom (.unit count (some fraction) [character]) total after rest
      else .error (.invalidCharacter blamed)
  | .unit count fraction name, total, place, character :: rest =>
      let after := place + character.utf8Size
      if character.isDigit then do
        let sum ← addCount total count fraction name
        readFrom (.count (digitValue character)) sum after rest
      else if Text.isBlank character then do
        let sum ← addCount total count fraction name
        readFrom (.before false) sum after rest
      else if isLetter character then
        readFrom (.unit count fraction (name ++ [character])) total after rest
      else .error (.invalidCharacter place)

/-- Reads a duration. A lone zero needs no unit. -/
def read (text : String) : Except ReadingError Duration :=
  if text = "0" then .ok zero else readFrom (.before true) zero 0 text.toList

end Orchestration.Duration
