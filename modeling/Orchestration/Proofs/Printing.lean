import Orchestration.Document.Json
import Orchestration.Proofs.Shortest
import Orchestration.Text.Digit
import Orchestration.Value.Written

/-!
# Doubles as text

The text of a double is a sign and a numeral: digits, a point with further digits, an exponent. The numeral
stands for the shortest decimal of the double, so reading it gives the double back.
-/

namespace Orchestration.Text

/-- The value of digits is the one that the library gives them. -/
theorem digitsToNat_eq (digits : List Char) : digitsToNat digits = Nat.ofDigitChars 10 digits 0 := by
  simp only [digitsToNat, Nat.ofDigitChars, Nat.mul_comm]

/-- A number is read back from its digits. -/
theorem digitsToNat_toDigits (number : Nat) : digitsToNat (Nat.toDigits 10 number) = number := by
  rw [digitsToNat_eq, Nat.ofDigitChars_ten_toDigits]

/-- Digits in front of others count for a power of ten each. -/
theorem digitsToNat_append (front back : List Char) :
    digitsToNat (front ++ back) = digitsToNat front * 10 ^ back.length + digitsToNat back := by
  have foldl : ∀ (digits : List Char) (value : Nat),
      digits.foldl (fun value digit => value * 10 + (digit.toNat - '0'.toNat)) value =
        value * 10 ^ digits.length + digitsToNat digits := by
    intro digits
    induction digits with
    | nil => intro value; simp [digitsToNat]
    | cons digit rest inductionHypothesis =>
        intro value
        rw [digitsToNat, List.foldl_cons, List.foldl_cons, inductionHypothesis, inductionHypothesis,
          List.length_cons, pow_succ]
        ring
  rw [digitsToNat, List.foldl_append, foldl]
  rfl

/-- Zeros are worth nothing. -/
theorem digitsToNat_replicate_zero (count : Nat) : digitsToNat (List.replicate count '0') = 0 := by
  induction count with
  | zero => rfl
  | succ count inductionHypothesis =>
      rw [List.replicate_succ', digitsToNat_append, inductionHypothesis]
      rfl

/-- Digits count for less than one digit more. -/
theorem digitsToNat_lt {digits : List Char} (all : digits.all Char.isDigit = true) :
    digitsToNat digits < 10 ^ digits.length := by
  induction digits with
  | nil => decide
  | cons digit rest inductionHypothesis =>
      simp only [List.all_cons, Bool.and_eq_true] at all
      have fewer := inductionHypothesis all.2
      have most := (isDigit_iff.mp all.1).2
      have zero : '0'.toNat = 0x30 := rfl
      have single : digitsToNat [digit] ≤ 9 := by
        change 0 * 10 + (digit.toNat - '0'.toNat) ≤ 9
        omega
      calc digitsToNat (digit :: rest)
          = digitsToNat [digit] * 10 ^ rest.length + digitsToNat rest := digitsToNat_append [digit] rest
        _ < 9 * 10 ^ rest.length + 10 ^ rest.length :=
          Nat.add_lt_add_of_le_of_lt (Nat.mul_le_mul_right _ single) fewer
        _ = 10 ^ (digit :: rest).length := by
          rw [List.length_cons, pow_succ]
          ring

/-- Numbers are written in ASCII digits. -/
theorem isDigit_of_mem_toDigits {number : Nat} {digit : Char} (within : digit ∈ Nat.toDigits 10 number) :
    digit.isDigit = true :=
  Nat.isDigit_of_mem_toDigits (by norm_num) (by norm_num) within

/-- The digits of a positive number do not begin with a zero. -/
theorem exists_toDigits {number : Nat} (positive : 0 < number) :
    ∃ first rest, Nat.toDigits 10 number = first :: rest ∧ first ≠ '0' := by
  induction number using Nat.strong_induction_on with
  | _ number inductionHypothesis =>
      rw [Nat.toDigits_eq_if (by norm_num)]
      split
      · next single =>
          refine ⟨number.digitChar, [], rfl, ?_⟩
          interval_cases number <;> decide
      · next more =>
          obtain ⟨first, rest, front, nonzero⟩ := inductionHypothesis (number / 10) (by omega) (by omega)
          exact ⟨first, rest ++ [(number % 10).digitChar], by rw [front]; rfl, nonzero⟩

/-- A run of characters ends where one comes that does not belong to it. -/
theorem span_append {front back : List Char} {test : Char → Bool} (all : front.all test = true)
    (ends : ∀ character ∈ back.head?, test character = false) :
    (front ++ back).takeWhile test = front ∧ (front ++ back).dropWhile test = back := by
  have holds := List.all_eq_true.mp all
  rw [List.takeWhile_append_of_pos holds, List.dropWhile_append_of_pos holds]
  cases back with
  | nil => simp
  | cons character rest => simp [ends character rfl]

end Orchestration.Text

namespace Orchestration.Binary64

open Orchestration.Text

/-! ## Numerals -/

/-- The parts of a written numeral: the digits before the point, those after it, and the mark of the exponent
with the exponent it marks. -/
structure Parts where
  whole : List Char
  fraction : List Char
  mark : List Char
  exponent : Int

namespace Parts

/-- A numeral without decimals is written without the point. -/
def text (parts : Parts) : List Char :=
  parts.whole ++ if parts.fraction.isEmpty then parts.mark else '.' :: (parts.fraction ++ parts.mark)

/-- The digits of a numeral as a whole number. -/
def digits (parts : Parts) : Nat :=
  digitsToNat (parts.whole ++ parts.fraction)

/-- The power of ten of the last digit. -/
def scale (parts : Parts) : Int :=
  parts.exponent - parts.fraction.length

/-- That a numeral is well formed. It is no whole number if it has decimals or an exponent. -/
structure IsNumeral (parts : Parts) : Prop where
  whole : Json.isWholePart parts.whole = true
  fraction : parts.fraction.all Char.isDigit = true
  mark : readExponent? parts.mark = some parts.exponent
  fractional : parts.fraction ≠ [] ∨ parts.mark ≠ []

variable {parts : Parts}

/-- The whole part of a numeral is a run of digits. -/
theorem all_of_isWholePart {whole : List Char} (isWhole : Json.isWholePart whole = true) :
    whole ≠ [] ∧ whole.all Char.isDigit = true := by
  unfold Json.isWholePart at isWhole
  split at isWhole
  · cases isWhole
  · exact ⟨by simp, rfl⟩
  · rw [Bool.and_eq_true] at isWhole
    exact ⟨by simp, isWhole.2⟩

/-- The mark of an exponent begins with a letter. -/
theorem exists_mark {mark : List Char} {exponent : Int} (read : readExponent? mark = some exponent) :
    mark = [] ∨ ∃ rest, mark = 'e' :: rest ∨ mark = 'E' :: rest := by
  cases mark with
  | nil => exact .inl rfl
  | cons letter rest =>
      simp only [readExponent?] at read
      split at read
      · next letters =>
          rcases letters with rfl | rfl
          · exact .inr ⟨rest, .inl rfl⟩
          · exact .inr ⟨rest, .inr rfl⟩
      · cases read

/-- The digits before the point end there. -/
theorem IsNumeral.span_whole (isNumeral : parts.IsNumeral) :
    parts.text.takeWhile Char.isDigit = parts.whole ∧
      parts.text.dropWhile Char.isDigit =
        if parts.fraction.isEmpty then parts.mark else '.' :: (parts.fraction ++ parts.mark) := by
  refine span_append (all_of_isWholePart isNumeral.whole).2 ?_
  rcases exists_mark isNumeral.mark with none | ⟨rest, lower | upper⟩ <;> split <;> simp_all

/-- The digits of a fraction end where the mark of an exponent begins. -/
theorem IsNumeral.span_fraction (isNumeral : parts.IsNumeral) :
    (parts.fraction ++ parts.mark).takeWhile Char.isDigit = parts.fraction ∧
      (parts.fraction ++ parts.mark).dropWhile Char.isDigit = parts.mark := by
  refine span_append isNumeral.fraction ?_
  rcases exists_mark isNumeral.mark with none | ⟨rest, lower | upper⟩ <;> simp_all

/-- A numeral that was written is read part by part. -/
theorem IsNumeral.readNumeral?_text (isNumeral : parts.IsNumeral) :
    readNumeral? parts.text = some ⟨parts.whole, parts.fraction, parts.exponent⟩ := by
  have nonempty := (all_of_isWholePart isNumeral.whole).1
  have mark := isNumeral.mark
  unfold readNumeral?
  rw [isNumeral.span_whole.1, isNumeral.span_whole.2]
  by_cases none : parts.fraction = []
  · rcases exists_mark mark with empty | ⟨rest, lower | upper⟩ <;> simp_all
  · simp [none, isNumeral.span_fraction, mark]

/-- A numeral that is no whole number is a double in JSON. -/
theorem IsNumeral.magnitude?_text (isNumeral : parts.IsNumeral) {negative : Bool}
    (finite : isFinite (ofDecimal negative parts.digits parts.scale) = true) :
    Json.magnitude? negative parts.text =
      some (some (.double (ofDecimal negative parts.digits parts.scale))) := by
  have nonempty := (all_of_isWholePart isNumeral.whole).1
  have mark := isNumeral.mark
  have value : Numeral.toFloat negative ⟨parts.whole, parts.fraction, parts.exponent⟩ =
    ofDecimal negative parts.digits parts.scale := rfl
  unfold Json.magnitude?
  dsimp only
  rw [isNumeral.span_whole.1, isNumeral.span_whole.2, isNumeral.whole]
  by_cases none : parts.fraction = []
  · rcases exists_mark mark with empty | ⟨rest, lower | upper⟩
    · exact absurd empty (isNumeral.fractional.resolve_left (not_not.mpr none))
    · simp_all
    · simp_all
  · simp [none, isNumeral.span_fraction, mark, value, finite]

/-- A sign in front of a numeral is told apart from it. -/
theorem IsNumeral.number?_signed (isNumeral : parts.IsNumeral) (negative : Bool) :
    Json.number? (if negative then '-' :: parts.text else parts.text) =
      Json.magnitude? negative parts.text := by
  obtain ⟨nonempty, digits⟩ := all_of_isWholePart isNumeral.whole
  obtain ⟨first, rest, cons⟩ := List.exists_cons_of_ne_nil nonempty
  have notMinus : first ≠ '-' := by
    rintro rfl
    rw [cons] at digits
    cases digits
  cases negative
  · rw [if_neg (by decide), text, cons, List.cons_append]
    simp [Json.number?, notMinus]
  · rfl

end Parts

/-! ## Layouts -/

namespace Decimal

variable {decimal : Decimal}

/-- The parts of a decimal with its point at its place. -/
def positionalParts (decimal : Decimal) : Parts :=
  let digits := Nat.toDigits 10 decimal.digits
  if 0 ≤ decimal.scale then ⟨digits ++ List.replicate decimal.scale.toNat '0', ['0'], [], 0⟩
  else if 0 ≤ decimal.leading then
    ⟨digits.take (decimal.leading + 1).toNat, digits.drop (decimal.leading + 1).toNat, [], 0⟩
  else ⟨['0'], List.replicate (-decimal.leading - 1).toNat '0' ++ digits, [], 0⟩

/-- The parts of a decimal with one digit before the point. -/
def scientificParts (decimal : Decimal) : Parts :=
  let digits := Nat.toDigits 10 decimal.digits
  ⟨digits.take 1, digits.drop 1,
    'e' :: (if decimal.leading < 0 then '-' else '+') :: Nat.toDigits 10 decimal.leading.natAbs,
    decimal.leading⟩

/-- A decimal without exponent is written as its parts. -/
theorem positional_eq (decimal : Decimal) :
    (decimal.positional ".0").toList = decimal.positionalParts.text := by
  unfold positional positionalParts
  dsimp only
  split
  · simp [Parts.text]
  · next fractional =>
      split
      · next whole =>
          have more : (Nat.toDigits 10 decimal.digits).drop (decimal.leading + 1).toNat ≠ [] := by
            rw [Ne, List.drop_eq_nil_iff]
            unfold leading digitCount at whole ⊢
            omega
          simp [Parts.text, more]
      · have more : Nat.toDigits 10 decimal.digits ≠ [] := Nat.toDigits_ne_nil
        simp [Parts.text, more]

/-- A decimal with an exponent is written as its parts. -/
theorem scientific_eq (decimal : Decimal) :
    decimal.scientific.toList = decimal.scientificParts.text := by
  unfold scientific scientificParts
  dsimp only
  have mark : ((if decimal.leading < 0 then "e-" else "e+") ++ toString decimal.leading.natAbs).toList =
      'e' :: (if decimal.leading < 0 then '-' else '+') :: Nat.toDigits 10 decimal.leading.natAbs := by
    split <;> simp
  split
  · next none => exact absurd none Nat.toDigits_ne_nil
  · next digit one =>
    rw [one, String.toList_append, mark]
    simp [Parts.text]
  · next digit rest more several =>
    have nonempty : rest ≠ [] := more
    rw [several, String.toList_append, mark]
    simp [Parts.text, nonempty]

/-- That parts are a numeral of a decimal's number, with no more digits than its zeros call for. -/
structure Spells (parts : Parts) (decimal : Decimal) : Prop where
  isNumeral : parts.IsNumeral
  value : (parts.digits : ℚ) * 10 ^ parts.scale = decimal.value
  short : digitCount parts.digits ≤ digitCount decimal.digits + decimal.scale.toNat + 1

/-- Digits that do not begin with zero are a whole part. -/
theorem isWholePart_cons {first : Char} {rest : List Char} (nonzero : first ≠ '0')
    (digits : (first :: rest).all Char.isDigit = true) : Json.isWholePart (first :: rest) = true := by
  unfold Json.isWholePart
  split
  · next none => cases none
  · rfl
  · next cons =>
      cases cons
      rw [digits, Bool.and_true, bne_iff_ne]
      exact nonzero

/-- Numbers are written in digits and nothing else. -/
theorem all_toDigits (number : Nat) : (Nat.toDigits 10 number).all Char.isDigit = true :=
  List.all_eq_true.mpr fun _ => isDigit_of_mem_toDigits

/-- A number whose digits are not changed is spelled with the same scale. -/
theorem spells_of_digits {parts : Parts} (isNumeral : parts.IsNumeral) (digits : parts.digits = decimal.digits)
    (scale : parts.scale = decimal.scale) : Spells parts decimal :=
  ⟨isNumeral, by rw [digits, scale]; rfl, by rw [digits]; omega⟩

/-- A whole number is spelled by its digits with zeros behind them. -/
theorem spells_whole (positive : 0 < decimal.digits) (upward : 0 ≤ decimal.scale) :
    Spells ⟨Nat.toDigits 10 decimal.digits ++ List.replicate decimal.scale.toNat '0', ['0'], [], 0⟩
      decimal := by
  obtain ⟨first, rest, cons, nonzero⟩ := exists_toDigits positive
  have digits : Parts.digits
      ⟨Nat.toDigits 10 decimal.digits ++ List.replicate decimal.scale.toNat '0', ['0'], [], 0⟩ =
        decimal.digits * 10 ^ (decimal.scale.toNat + 1) := by
    rw [Parts.digits, digitsToNat_append, digitsToNat_append, digitsToNat_toDigits,
      digitsToNat_replicate_zero, List.length_replicate, pow_succ, ← mul_assoc]
    rfl
  refine ⟨⟨?_, rfl, rfl, .inl (by simp)⟩, ?_, ?_⟩
  · have all : (Nat.toDigits 10 decimal.digits ++ List.replicate decimal.scale.toNat '0').all
        Char.isDigit = true := by
      rw [List.all_append, all_toDigits]
      simp
    rw [cons] at all ⊢
    exact isWholePart_cons nonzero all
  · rw [digits, Decimal.value]
    change ((decimal.digits * 10 ^ (decimal.scale.toNat + 1) : Nat) : ℚ) * 10 ^ (0 - 1 : Int) = _
    rw [show decimal.scale = (decimal.scale.toNat : Int) by omega, zpow_natCast, Int.toNat_natCast]
    push_cast
    rw [pow_succ]
    norm_num
    ring
  · rw [digits, digitCount_le_iff (by omega), add_assoc, pow_add _ (digitCount decimal.digits)]
    exact Nat.mul_lt_mul_of_pos_right (lt_pow_digitCount _) (by positivity)

/-- A decimal with a point among its digits is spelled by what stands before it and behind it. -/
theorem spells_pointed (positive : 0 < decimal.digits) (downward : decimal.scale < 0)
    (whole : 0 ≤ decimal.leading) :
    Spells ⟨(Nat.toDigits 10 decimal.digits).take (decimal.leading + 1).toNat,
      (Nat.toDigits 10 decimal.digits).drop (decimal.leading + 1).toNat, [], 0⟩ decimal := by
  obtain ⟨first, rest, cons, nonzero⟩ := exists_toDigits positive
  have all := all_toDigits decimal.digits
  have leading : decimal.leading = ((Nat.toDigits 10 decimal.digits).length : Int) - 1 + decimal.scale := rfl
  refine spells_of_digits ⟨?_, ?_, rfl, .inl ?_⟩ ?_ ?_
  · obtain ⟨places, count⟩ : ∃ places, (decimal.leading + 1).toNat = places + 1 :=
      ⟨decimal.leading.toNat, by omega⟩
    have front : ((Nat.toDigits 10 decimal.digits).take (places + 1)).all Char.isDigit = true :=
      List.all_eq_true.mpr fun digit within => isDigit_of_mem_toDigits (List.mem_of_mem_take within)
    rw [cons, List.take_succ_cons] at front
    simp only [count, cons, List.take_succ_cons]
    exact isWholePart_cons nonzero front
  · exact List.all_eq_true.mpr fun digit within => isDigit_of_mem_toDigits (List.mem_of_mem_drop within)
  · rw [Ne, List.drop_eq_nil_iff]
    omega
  · rw [Parts.digits, List.take_append_drop, digitsToNat_toDigits]
  · simp only [Parts.scale, List.length_drop]
    omega

/-- A decimal below one is spelled with zeros behind the point. -/
theorem spells_small (small : decimal.leading < 0) :
    Spells ⟨['0'], List.replicate (-decimal.leading - 1).toNat '0' ++ Nat.toDigits 10 decimal.digits, [], 0⟩
      decimal := by
  have leading : decimal.leading = ((Nat.toDigits 10 decimal.digits).length : Int) - 1 + decimal.scale := rfl
  refine spells_of_digits ⟨rfl, ?_, rfl, .inl ?_⟩ ?_ ?_
  · rw [List.all_append, all_toDigits]
    simp
  · simp [Nat.toDigits_ne_nil]
  · rw [Parts.digits, digitsToNat_append, digitsToNat_append, digitsToNat_toDigits, digitsToNat_replicate_zero]
    simp [digitsToNat]
  · simp only [Parts.scale, List.length_append, List.length_replicate]
    omega

/-- A positive decimal with its point at its place. -/
theorem spells_positionalParts (positive : 0 < decimal.digits) : Spells decimal.positionalParts decimal := by
  unfold positionalParts
  dsimp only
  split
  · next upward => exact spells_whole positive upward
  · split
    · next downward whole => exact spells_pointed positive (not_le.mp downward) whole
    · next small => exact spells_small (not_le.mp small)

/-- A decimal with an exponent is spelled by its first digit, the others behind a point, and the exponent. -/
theorem spells_scientificParts (positive : 0 < decimal.digits) : Spells decimal.scientificParts decimal := by
  obtain ⟨first, rest, cons, nonzero⟩ := exists_toDigits positive
  have isDigit : first.isDigit = true := isDigit_of_mem_toDigits (cons ▸ List.mem_cons_self)
  have leading : decimal.leading = ((Nat.toDigits 10 decimal.digits).length : Int) - 1 + decimal.scale := rfl
  have count : 0 < (Nat.toDigits 10 decimal.digits).length := Nat.length_toDigits_pos
  refine spells_of_digits ⟨?_, ?_, ?_, .inr (by simp [scientificParts])⟩ ?_ ?_
  · simp only [scientificParts, cons]
    exact isWholePart_cons nonzero (by simp [isDigit])
  · exact List.all_eq_true.mpr fun digit within => isDigit_of_mem_toDigits (List.mem_of_mem_drop within)
  · have mark : takeSign ((if decimal.leading < 0 then '-' else '+') :: Nat.toDigits 10 decimal.leading.natAbs) =
        (decide (decimal.leading < 0), Nat.toDigits 10 decimal.leading.natAbs) := by
      by_cases negative : decimal.leading < 0 <;> simp [takeSign, negative]
    have nonempty : Nat.toDigits 10 decimal.leading.natAbs ≠ [] := Nat.toDigits_ne_nil
    simp only [scientificParts, readExponent?, mark, all_toDigits, digitsToNat_toDigits]
    by_cases negative : decimal.leading < 0
    · simp [nonempty, negative, abs_of_neg negative]
    · simp [nonempty, negative, abs_of_nonneg (not_lt.mp negative)]
  · rw [Parts.digits, scientificParts, List.take_append_drop, digitsToNat_toDigits]
  · simp only [Parts.scale, scientificParts, List.length_drop]
    omega

end Decimal

/-! ## Doubles -/

section Doubles

variable {value : Float} {negative : Bool} {mantissa : Nat} {exponent : Int}

/-- The parts of a finite double's text without its sign. -/
def partsOf (mantissa : Nat) (exponent : Int) : Parts :=
  if mantissa = 0 then ⟨['0'], ['0'], [], 0⟩
  else
    let decimal := shortest .even mantissa exponent
    if -5 ≤ decimal.leading ∧ decimal.leading ≤ 15 then decimal.positionalParts else decimal.scientificParts

/-- A finite double is written as its parts, behind a minus if it is negative. -/
theorem text_json (found : content value = .finite negative mantissa exponent) :
    (text .json value).toList =
      if negative then '-' :: (partsOf mantissa exponent).text else (partsOf mantissa exponent).text := by
  have signed : ∀ magnitude : String, ((if negative then "-" else "") ++ magnitude).toList =
      if negative then '-' :: magnitude.toList else magnitude.toList := by
    intro magnitude
    cases negative <;> simp
  unfold text
  rw [found]
  dsimp only
  by_cases zero : mantissa = 0
  · rw [if_pos zero, partsOf, if_pos zero, String.append_assoc, signed]
    rfl
  · have written : (Layout.json.write (shortest .even mantissa exponent)).toList =
        (partsOf mantissa exponent).text := by
      unfold Layout.write partsOf
      rw [if_neg zero]
      dsimp only [Layout.json]
      split
      · exact Decimal.positional_eq _
      · exact Decimal.scientific_eq _
    rw [if_neg zero, signed, show Layout.json.tie = .even from rfl, written]

/-- What is read from zero is zero with the sign in front of it. -/
theorem content_zero (negative : Bool) : content (ofDecimal negative 0 (-1)) = .finite negative 0 (-1074) := by
  cases negative <;> decide

/-- The parts that a double is written as spell its shortest decimal. -/
theorem spells_partsOf (positive : 0 < mantissa) (canonical : IsCanonical mantissa exponent) :
    Decimal.Spells (partsOf mantissa exponent) (shortest .even mantissa exponent) := by
  have digits := digits_shortest_pos .even positive canonical
  unfold partsOf
  rw [if_neg positive.ne']
  dsimp only
  split
  · exact Decimal.spells_positionalParts digits
  · exact Decimal.spells_scientificParts digits

/-- The numeral that a double is written as. -/
theorem isNumeral_partsOf (canonical : IsCanonical mantissa exponent) :
    (partsOf mantissa exponent).IsNumeral := by
  rcases Nat.eq_zero_or_pos mantissa with rfl | positive
  · exact ⟨rfl, rfl, rfl, .inl (by simp [partsOf])⟩
  · exact (spells_partsOf positive canonical).isNumeral

/-- An exponent is marked by a letter, and its sign is always written. -/
theorem mark_partsOf (mantissa : Nat) (exponent : Int) :
    (partsOf mantissa exponent).mark = [] ∨ ∃ sign digits, (sign = '-' ∨ sign = '+') ∧
      digits.all Char.isDigit = true ∧ (partsOf mantissa exponent).mark = 'e' :: sign :: digits := by
  unfold partsOf
  dsimp only
  split
  · exact .inl rfl
  · split
    · refine .inl ?_
      unfold Decimal.positionalParts
      dsimp only
      split
      · rfl
      · split <;> rfl
    · exact .inr ⟨_, _, by split <;> simp, Decimal.all_toDigits _, rfl⟩

/-- A double is the one that is nearest to the decimal of its parts. -/
theorem ofDecimal_partsOf (found : content value = .finite negative mantissa exponent) :
    ofDecimal negative (partsOf mantissa exponent).digits (partsOf mantissa exponent).scale = value := by
  have canonical := isCanonical_of_content found
  apply content_injective
  rw [found]
  rcases Nat.eq_zero_or_pos mantissa with rfl | positive
  · rw [canonical.normal.resolve_left (by decide)]
    exact content_zero negative
  · obtain ⟨isNumeral, value, short⟩ := spells_partsOf positive canonical
    have isNearest := isNearest_shortest .even positive canonical
    have digits := digits_shortest_pos .even positive canonical
    have count := digitCount_shortest_le .even positive canonical
    have leading := (leading_bounds digits positive canonical isNearest).2
    have some := digitCount_pos (shortest .even mantissa exponent).digits
    rw [← value] at isNearest
    refine content_ofDecimal ?_ (by omega) positive canonical isNearest
    refine Nat.pos_of_ne_zero fun zero => ?_
    have bounds := (isNearest.bounds positive canonical).1
    rw [zero, Nat.cast_zero, zero_mul] at bounds
    exact absurd bounds (not_le.mpr (by positivity))

/-- A finite double is read back from its JSON text. -/
theorem number?_text (finite : isFinite value = true) :
    Json.number? (text .json value).toList = some (some (.double value)) := by
  obtain ⟨negative, mantissa, exponent, found⟩ := isFinite_iff.mp finite
  have isNumeral := isNumeral_partsOf (isCanonical_of_content found)
  have same := ofDecimal_partsOf found
  rw [text_json found, isNumeral.number?_signed, isNumeral.magnitude?_text (same.symm ▸ finite), same]

end Doubles

/-! ## Whole numbers -/

section Whole

variable {number : Nat}

/-- The digits of a number are a whole part: the only one that begins with zero is zero. -/
theorem isWholePart_toDigits (number : Nat) : Json.isWholePart (Nat.toDigits 10 number) = true := by
  rcases Nat.eq_zero_or_pos number with rfl | positive
  · rfl
  · obtain ⟨first, rest, cons, nonzero⟩ := exists_toDigits positive
    have all := Decimal.all_toDigits number
    rw [cons] at all ⊢
    exact Decimal.isWholePart_cons nonzero all

/-- The digits of a whole number are a numeral to their end. -/
theorem span_toDigits (number : Nat) :
    (Nat.toDigits 10 number).takeWhile Char.isDigit = Nat.toDigits 10 number ∧
      (Nat.toDigits 10 number).dropWhile Char.isDigit = [] := by
  simpa using @span_append _ [] _ (Decimal.all_toDigits number) (by simp)

/-- The digits of a number are a numeral without fraction and exponent. -/
theorem readNumeral?_toDigits (number : Nat) :
    readNumeral? (Nat.toDigits 10 number) = some ⟨Nat.toDigits 10 number, [], 0⟩ := by
  unfold readNumeral?
  simp [span_toDigits, Nat.toDigits_ne_nil, readExponent?]

/-- A word is written and read as the double nearest to it. -/
theorem ofDecimal_word (word : number ≤ Word.count) : ofDecimal false number 0 = Float.ofNat number := by
  rcases Nat.eq_zero_or_pos number with rfl | positive
  · exact content_injective (by decide)
  · have short : digitCount number ≤ 20 :=
      (digitCount_le_iff (by norm_num)).mpr (lt_of_le_of_lt word (by decide))
    have within : ¬ (number = 0 ∨ (digitCount number : Int) + 0 < -330) := by omega
    have bounded : ¬ (330 : Int) < digitCount number + 0 := by omega
    unfold ofDecimal
    dsimp only
    rw [if_neg within, if_neg bounded]
    rfl

end Whole

end Orchestration.Binary64

namespace Orchestration.Number

open Orchestration.Binary64

/-- That a number is one that a variable can have: a whole number that fits a word of its sign, or a finite
double. -/
def IsStored : Number → Prop
  | .integer value => -(Word.signedLimit : Int) ≤ value ∧ value < Word.count
  | .double value => isFinite value = true

instance : (number : Number) → Decidable number.IsStored
  | .integer value => inferInstanceAs (Decidable (-(Word.signedLimit : Int) ≤ value ∧ value < Word.count))
  | .double value => inferInstanceAs (Decidable (isFinite value = true))

variable {number : Number}

/-- A word is read back as a whole number. -/
theorem magnitude?_whole {value : Nat} (unsigned : value < Word.count) :
    Json.magnitude? false (Nat.toDigits 10 value) = some (some (.integer value)) := by
  unfold Json.magnitude?
  simp [span_toDigits, isWholePart_toDigits, Text.digitsToNat_toDigits, Word.isUnsigned, unsigned]

/-- A whole number below zero is read back from its digits if it fits a signed word. -/
theorem magnitude?_negative {value : Nat} (positive : 0 < value) (signed : value ≤ Word.signedLimit) :
    Json.magnitude? true (Nat.toDigits 10 value) = some (some (.integer (-value))) := by
  unfold Json.magnitude?
  simp [span_toDigits, isWholePart_toDigits, Text.digitsToNat_toDigits, positive, signed]

/-- A stored number is read back from its text. -/
theorem number?_json (stored : number.IsStored) : Json.number? number.json = some (some number) := by
  cases number with
  | double value => exact number?_text stored
  | integer value =>
      cases value with
      | ofNat magnitude =>
          have unsigned := stored.2
          rw [Int.ofNat_eq_natCast, Nat.cast_lt] at unsigned
          obtain ⟨first, rest, cons⟩ := List.exists_cons_of_ne_nil (@Nat.toDigits_ne_nil magnitude 10)
          have notMinus : first ≠ '-' := by
            rintro rfl
            have digit := Text.isDigit_of_mem_toDigits (cons ▸ List.mem_cons_self)
            cases digit
          have split : Json.number? (first :: rest) = Json.magnitude? false (first :: rest) := by
            simp [Json.number?, notMinus]
          rw [json, integerText, cons, split, ← cons, magnitude?_whole unsigned]
          rfl
      | negSucc magnitude =>
          have signed := stored.1
          simp only [Int.negSucc_eq] at signed
          exact magnitude?_negative (Nat.succ_pos magnitude) (by omega)

end Orchestration.Number
