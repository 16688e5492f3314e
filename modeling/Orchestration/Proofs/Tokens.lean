import Orchestration.Proofs.Grammar

/-!
# Reading single tokens

What a token without blanks and parentheses is read as. The tests for it are made in a fixed order, so
each kind of leaf has to fail the tests that come before its own: a numeral is no keyword, a quotation
neither of them, and a path nothing else at all.
-/

namespace Orchestration.Grammar

open Condition

/-! ## Numerals -/

section Numerals

variable {numeral : Numeral}

/-- A numeral has only digits before its point. -/
theorem Numeral.isDigit_of_mem_whole {digit : Char} (within : digit ∈ numeral.whole) :
    digit.isDigit = true :=
  List.all_eq_true.mp numeral.digits digit (List.mem_append_left _ within)

/-- A numeral has only digits behind its point. -/
theorem Numeral.isDigit_of_mem_fraction {digit : Char} (within : digit ∈ numeral.fraction) :
    digit.isDigit = true :=
  List.all_eq_true.mp numeral.digits digit (List.mem_append_right _ within)

/-- Whatever test the digits pass and the point fails, it tells the whole number from its decimals. -/
theorem Numeral.span_magnitude {test : Char → Bool}
    (digits : ∀ digit : Char, digit.isDigit = true → test digit = true) (point : test '.' = false) :
    numeral.magnitude.takeWhile test = numeral.whole ∧
      numeral.magnitude.dropWhile test = numeral.decimals := by
  have whole : ∀ digit ∈ numeral.whole, test digit = true := fun digit within =>
    digits digit (isDigit_of_mem_whole within)
  have stops : numeral.decimals.takeWhile test = [] ∧
      numeral.decimals.dropWhile test = numeral.decimals := by
    rw [decimals]
    split <;> simp [point]
  rw [magnitude, List.takeWhile_append_of_pos whole, List.dropWhile_append_of_pos whole, stops.1,
    stops.2, List.append_nil]
  exact ⟨rfl, rfl⟩

/-- A numeral without its sign begins with a digit. -/
theorem Numeral.exists_magnitude :
    ∃ digit rest, numeral.magnitude = digit :: rest ∧ digit.isDigit = true := by
  obtain ⟨digit, rest, whole⟩ := List.exists_cons_of_ne_nil numeral.nonempty
  refine ⟨digit, rest ++ numeral.decimals, by simp [magnitude, whole], ?_⟩
  exact numeral.isDigit_of_mem_whole (by simp [whole])

/-- The sign of a numeral is taken off its front. -/
theorem Numeral.takeSign_text :
    Binary64.takeSign numeral.text = (numeral.negative, numeral.magnitude) := by
  obtain ⟨digit, rest, magnitude, isDigit⟩ := numeral.exists_magnitude
  rw [text, magnitude]
  cases numeral.negative with
  | true => rfl
  | false =>
      have notMinus : digit ≠ '-' := by rintro rfl; cases isDigit
      have notPlus : digit ≠ '+' := by rintro rfl; cases isDigit
      simp [Binary64.takeSign, notMinus, notPlus]

/-- A minus sign in front makes no difference to being a numeral. -/
theorem isNumeral_minus {first : Char} {rest : List Char} (notMinus : first ≠ '-') :
    isNumeral ('-' :: first :: rest) = isNumeral (first :: rest) := by
  simp [isNumeral, notMinus]

/-- A numeral is recognised as one. -/
theorem Numeral.isNumeral_text : isNumeral numeral.text = true := by
  obtain ⟨whole, decimals⟩ := numeral.span_magnitude
    (fun _ => Text.isDecimalDigit_of_isDigit) (by decide)
  have signed : isNumeral numeral.text = isNumeral ('-' :: numeral.magnitude) := by
    obtain ⟨digit, rest, magnitude, isDigit⟩ := numeral.exists_magnitude
    have notMinus : digit ≠ '-' := by rintro rfl; cases isDigit
    rw [text, magnitude]
    cases numeral.negative with
    | true => rfl
    | false => exact (isNumeral_minus notMinus).symm
  have fraction : ∀ digit ∈ numeral.fraction, Text.isDecimalDigit digit = true := fun _ within =>
    Text.isDecimalDigit_of_isDigit (isDigit_of_mem_fraction within)
  rw [signed]
  simp only [isNumeral]
  rw [whole, decimals, Numeral.decimals]
  by_cases point : numeral.fraction = []
  · simp [point, numeral.nonempty]
  · simp [point, numeral.nonempty, List.all_eq_true.mpr fraction]

/-- A numeral falls into the digits before and behind its point. -/
theorem Numeral.readNumeral?_magnitude :
    Binary64.readNumeral? numeral.magnitude = some ⟨numeral.whole, numeral.fraction, 0⟩ := by
  obtain ⟨whole, decimals⟩ := numeral.span_magnitude (fun _ digit => digit) (by decide)
  have fraction : ∀ digit ∈ numeral.fraction, digit.isDigit = true := fun _ =>
    isDigit_of_mem_fraction
  simp only [Binary64.readNumeral?]
  rw [whole, decimals, Numeral.decimals]
  by_cases point : numeral.fraction = []
  · simp [point, numeral.nonempty, Binary64.readExponent?]
  · have all : numeral.fraction.takeWhile Char.isDigit = numeral.fraction ∧
        numeral.fraction.dropWhile Char.isDigit = [] :=
      ⟨List.takeWhile_eq_self_iff.mpr fraction, List.dropWhile_eq_nil_iff.mpr fraction⟩
    simp [point, numeral.nonempty, Binary64.readExponent?, all]

/-- A numeral is read as the double nearest to it. -/
theorem Numeral.read?_text : Binary64.read? numeral.text = some numeral.double := by
  simp [Binary64.read?, takeSign_text, readNumeral?_magnitude, Binary64.Numeral.toFloat, double]

/-- A numeral is read as digits only when it has no point. -/
theorem Numeral.readDigits?_magnitude :
    Text.readDigits? numeral.magnitude =
      if numeral.fraction.isEmpty then some (Text.digitsToNat numeral.whole) else none := by
  have whole : ∀ digit ∈ numeral.whole, digit.isDigit = true := fun _ => isDigit_of_mem_whole
  rw [Text.readDigits?, magnitude, decimals]
  by_cases point : numeral.fraction = []
  · simp [point, numeral.nonempty, List.all_eq_true.mpr whole]
  · have notDigit : Char.isDigit '.' = false := rfl
    simp [point, notDigit]

/-- A numeral without decimals is read as a whole number where its value fits a signed word. -/
theorem Numeral.readInteger?_text :
    Text.readInteger? numeral.text =
      if numeral.fraction.isEmpty && Word.isSigned numeral.integer then some numeral.integer
      else none := by
  obtain ⟨digit, rest, magnitude, isDigit⟩ := numeral.exists_magnitude
  have digits := numeral.readDigits?_magnitude
  rw [text, integer]
  cases numeral.negative with
  | true =>
      have fits : Word.isSigned (-(Text.digitsToNat numeral.whole : Int)) =
          decide (Text.digitsToNat numeral.whole ≤ Word.signedLimit) := by
        rw [Bool.eq_iff_iff, Word.isSigned_iff, decide_eq_true_iff, Word.signedLimit]
        omega
      simp only [if_true, Text.readInteger?, digits, fits]
      by_cases point : numeral.fraction = []
      · simp only [point, List.isEmpty_nil, if_true, Option.filter_some, Bool.true_and]
        split <;> rfl
      · simp [point]
  | false =>
      have notMinus : digit ≠ '-' := by rintro rfl; cases isDigit
      have notPlus : digit ≠ '+' := by rintro rfl; cases isDigit
      have fits : Word.isSigned (Text.digitsToNat numeral.whole : Int) =
          decide (Text.digitsToNat numeral.whole < Word.signedLimit) := by
        rw [Bool.eq_iff_iff, Word.isSigned_natCast, decide_eq_true_iff]
      have unsigned : Text.readInteger? numeral.magnitude =
          ((Text.readDigits? numeral.magnitude).filter fun value =>
            value < Word.signedLimit).map Int.ofNat := by
        rw [magnitude]
        simp [Text.readInteger?, notMinus, notPlus]
      simp only [Bool.false_eq_true, if_false, unsigned, digits, fits]
      by_cases point : numeral.fraction = []
      · simp only [point, List.isEmpty_nil, if_true, Option.filter_some, Bool.true_and]
        split <;> rfl
      · simp [point]

/-- A numeral is read as the number it stands for. -/
theorem Numeral.ofNumeral_text (finite : numeral.IsFinite) :
    ofNumeral numeral.text = .literal (some (.number numeral.number)) := by
  rw [IsFinite, number] at finite
  rw [ofNumeral, read?_text, readInteger?_text, number]
  cases fits : numeral.fraction.isEmpty && Word.isSigned numeral.integer with
  | true => rfl
  | false =>
      rw [fits] at finite
      exact if_pos finite

end Numerals

/-! ## Leaves -/

section Leaves

variable {token : List Char} {bag : Bag}

/-- What is read of a token that is no keyword. -/
theorem ofToken_of_free (free : ∀ word : Keyword, token ≠ word.text) :
    ofToken token =
      if isNumeral token then ofNumeral token
      else
        match quotation? token with
        | some quotation => .literal (some (.text (String.ofList quotation)))
        | none => .stored (String.ofList token) := by
  rw [ofToken]
  exact (if_neg (free .yes)).trans <| (if_neg (free .no)).trans <| (if_neg (free .null)).trans <|
    if_neg (free .undefined)

/-- A token is no numeral when it begins with neither a digit nor a minus sign. -/
theorem isNumeral_eq_false {first : Char} {rest : List Char}
    (notDigit : Text.isDecimalDigit first = false) (notMinus : first ≠ '-') :
    isNumeral (first :: rest) = false := by
  have whole : (first :: rest).takeWhile Text.isDecimalDigit = [] := by simp [notDigit]
  have others : (first :: rest).dropWhile Text.isDecimalDigit = first :: rest := by simp [notDigit]
  rw [← isNumeral_minus notMinus]
  simp only [isNumeral]
  rw [whole, others]
  split <;> simp_all

/-- A keyword has its own value. -/
theorem Keyword.value_ofToken (word : Keyword) :
    (ofToken word.text).value bag = .ok word.operand := by
  cases word <;> rfl

/-- A finite numeral has the value of its number. -/
theorem Numeral.value_ofToken {numeral : Numeral} (finite : numeral.IsFinite) :
    (ofToken numeral.text).value bag = .ok (some (.number numeral.number)) := by
  have free : ∀ word : Keyword, numeral.text ≠ word.text := by
    intro word same
    have notNumeral : isNumeral word.text = false := by cases word <;> decide
    rw [← same, numeral.isNumeral_text] at notNumeral
    cases notNumeral
  rw [ofToken_of_free free, if_pos numeral.isNumeral_text, ofNumeral_text finite, Condition.value]

/-- A quotation is recognised by its quotes. -/
theorem Quotation.quotation?_text (quotation : Quotation) :
    quotation? quotation.text = some quotation.content := by
  simp [text, quotation?, quotation.marks]

/-- A quotation has what is between its quotes as its value. -/
theorem Quotation.value_ofToken (quotation : Quotation) :
    (ofToken quotation.text).value bag = .ok (some (.text (String.ofList quotation.content))) := by
  have mark : quotation.quote ∈ punctuation := by
    rcases quotation.marks with mark | mark <;> rw [mark] <;> decide
  have free : ∀ word : Keyword, quotation.text ≠ word.text := by
    intro word same
    have within : quotation.quote ∈ word.text := same ▸ List.mem_cons_self
    exact (Keyword.isOrdinary within).not_mem mark
  have notNumeral : isNumeral quotation.text = false := by
    rcases quotation.marks with mark | mark <;> rw [text, mark] <;>
      exact isNumeral_eq_false (by decide) (by decide)
  rw [ofToken_of_free free, notNumeral, quotation.quotation?_text]
  simp [Condition.value]

/-- A path begins with a word character that is no digit. -/
theorem DottedPath.exists_text (path : DottedPath) :
    ∃ first rest, path.text = first :: rest ∧ Text.isWord first = true ∧
      Text.isDecimalDigit first = false := by
  obtain ⟨nonempty, words⟩ := path.words path.first List.mem_cons_self
  obtain ⟨first, rest, name⟩ := List.exists_cons_of_ne_nil nonempty
  have shape : ∃ rest, path.text = first :: rest := by
    rw [text, name]
    cases path.others with
    | nil => exact ⟨rest, rfl⟩
    | cons next others => exact ⟨_, by simp [Text.joinWith]; rfl⟩
  obtain ⟨others, text⟩ := shape
  have notDigit : Text.isDecimalDigit first = false := by simpa [name] using path.begins
  exact ⟨first, others, text, List.all_eq_true.mp words first (by simp [name]), notDigit⟩

/-- A path is followed name by name. -/
theorem DottedPath.segments_text (path : DottedPath) :
    Path.segments (String.ofList path.text) = (path.first :: path.others).map String.ofList := by
  have absent : ∀ name ∈ path.first :: path.others, '.' ∉ name := by
    intro name among within
    have word := List.all_eq_true.mp (path.words name among).2 '.' within
    revert word
    decide +kernel
  rw [Path.segments, String.toList_ofList, text, Text.splitOn_joinWith (by simp) absent]

/-- A path has the value that its names lead to. -/
theorem DottedPath.value_ofToken (path : DottedPath) :
    (ofToken path.text).value bag = .ok (path.operand bag) := by
  obtain ⟨first, rest, text, word, notDigit⟩ := path.exists_text
  have ordinary : first ∉ punctuation := IsOrdinary.not_mem (.inr (.inr word))
  have notMinus : first ≠ '-' := by
    rintro rfl
    revert word
    decide +kernel
  have unquoted : quotation? path.text = none := by
    have notQuote : first ≠ '"' ∧ first ≠ '\'' := by
      constructor <;> rintro rfl <;> exact ordinary (by decide)
    simp [text, quotation?, notQuote]
  have notNumeral : isNumeral path.text = false := text ▸ isNumeral_eq_false notDigit notMinus
  have free : ∀ word : Keyword, path.text ≠ word.text := path.free
  rw [ofToken_of_free free, notNumeral, unquoted]
  simp [Condition.value, Bag.get?, path.segments_text, operand]

/-- A leaf is read as the operand it stands for. -/
theorem Leaf.value_ofToken (leaf : Leaf) : (ofToken leaf.text).value bag = .ok (leaf.operand bag) := by
  cases leaf with
  | keyword word => exact word.value_ofToken
  | numeral digits finite => exact Numeral.value_ofToken finite
  | quotation quoted => exact quoted.value_ofToken
  | path names => exact names.value_ofToken

/-- No leaf begins with a parenthesis. -/
theorem Leaf.enclosed?_text (leaf : Leaf) : enclosed? leaf.text = none := by
  have notOpening : leaf.text.head? ≠ some '(' := by
    intro opening
    rcases leaf.ordinary_or with ordinary | ⟨quotation, rfl⟩
    · exact (ordinary '(' (List.mem_of_head? opening)).not_mem (by decide)
    · rcases quotation.marks with mark | mark <;>
        simp [text, Quotation.text, mark] at opening
  cases text : leaf.text with
  | nil => rfl
  | cons first rest =>
      have different : first ≠ '(' := by
        rintro rfl
        exact notOpening (by simp [text])
      simp [enclosed?, different]

end Leaves

end Orchestration.Grammar
