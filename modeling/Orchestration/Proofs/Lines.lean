import Orchestration.Document.Toml
import Orchestration.Proofs.Printing

/-!
# Lines of a settings file

What is read from a line that assigns a value to a key. The values that settings are written with are of two
kinds: digits, which reach to the end of their line and are taken for no moment and no double, and quotations
of characters that stand for themselves. A line is read before the lines behind it, whatever they are.
-/

namespace Orchestration.Toml

section Written

variable {first mark character : Char} {digits content rest behind : List Char} {bound value : Nat}

/-- True of the characters that stand for themselves between double quotes. -/
def isPlain (character : Char) : Bool :=
  isCommentCharacter character && character != '"' && character != '\\'

/-- A character that is no control, no quote and no backslash stands for itself. -/
theorem isPlain_of_toNat (printable : 0x20 ≤ character.toNat) (noQuote : character.toNat ≠ 0x22)
    (noBackslash : character.toNat ≠ 0x5C) (noDelete : character.toNat ≠ 0x7F) : isPlain character = true := by
  have notQuote : character ≠ '"' := fun isQuote => noQuote (congrArg Char.toNat isQuote)
  have notBackslash : character ≠ '\\' := fun isBackslash => noBackslash (congrArg Char.toNat isBackslash)
  simp [isPlain, isCommentCharacter, isPrintable, printable, noDelete, notQuote, notBackslash]

/-- Digits stand for themselves. -/
theorem isPlain_of_isDigit (digit : character.isDigit = true) : isPlain character = true := by
  have code := Text.isDigit_iff.mp digit
  apply isPlain_of_toNat <;> omega

/-- Plain characters are read up to the closing quote. -/
theorem readQuoted?_append (plain : content.all isPlain = true) (reaches : content.length < bound) :
    readQuoted? bound (content ++ '"' :: rest) = some (content, rest) := by
  induction content generalizing bound with
  | nil =>
      obtain ⟨smaller, rfl⟩ := Nat.exists_eq_succ_of_ne_zero (Nat.ne_of_gt reaches)
      rfl
  | cons character others inductionHypothesis =>
      obtain ⟨smaller, rfl⟩ := Nat.exists_eq_succ_of_ne_zero (Nat.ne_of_gt (Nat.zero_lt_of_lt reaches))
      rw [List.all_cons, Bool.and_eq_true] at plain
      have read := inductionHypothesis plain.2 (Nat.lt_of_succ_lt_succ reaches)
      simp only [isPlain, Bool.and_eq_true, bne_iff_ne] at plain
      rw [List.cons_append, readQuoted?, if_neg plain.1.1.2, if_neg plain.1.2, if_pos plain.1.1.1, read]
      rfl

/-- A quotation of plain characters is read as a text. -/
theorem readValue?_quotation (nonempty : content ≠ []) (plain : content.all isPlain = true) :
    readValue? (bound + 1) ('"' :: (content ++ '"' :: rest)) = some (.text (String.ofList content), rest) := by
  have quoted : readText? ('"' :: (content ++ '"' :: rest)) = some (content, rest) := by
    have read := @readQuoted?_append content rest ('"' :: (content ++ '"' :: rest)).length plain
      (by simp only [List.length_cons, List.length_append]; omega)
    obtain ⟨first, others, rfl⟩ := List.exists_cons_of_ne_nil nonempty
    rw [List.all_cons, Bool.and_eq_true] at plain
    simp only [isPlain, Bool.and_eq_true, bne_iff_ne] at plain
    unfold readText?
    split
    · next triple =>
        rw [List.cons_append] at triple
        injection triple with _ triple
        injection triple with isQuote
        exact absurd isQuote plain.1.1.2
    · next single =>
        injection single with _ isRest
        rw [← isRest]
        exact read
    · next triple => injection triple with isQuote; cases isQuote
    · next single => injection single with isQuote; cases isQuote
    · next noQuote _ _ => exact absurd rfl (noQuote _)
  rw [readValue?, readScalar?]
  · simp [quoted]
  all_goals simp

/-- Digits before the end of a line are followed by a digit or that end, and by no other mark. -/
theorem expect?_of_readBounded? {width least most : Nat} (all : digits.all Char.isDigit = true)
    (noDigit : mark.isDigit = false) (inLine : mark ≠ '\n')
    (read : readBounded? width least most (digits ++ '\n' :: rest) = some (value, behind)) :
    expect? mark behind = none := by
  have isDigit := List.all_eq_true.mp all
  unfold readBounded? at read
  dsimp only at read
  split at read
  · next bounded =>
      split at read
      · obtain rfl : (digits ++ '\n' :: rest).drop width = behind := congrArg Prod.snd (Option.some.inj read)
        rw [Bool.and_eq_true] at bounded
        by_cases within : width ≤ digits.length
        · rw [List.drop_append_of_le_length within]
          cases left : digits.drop width with
          | nil => rw [List.nil_append, expect?, if_neg (Ne.symm inLine)]
          | cons digit others =>
              have present : digit ∈ digits := List.mem_of_mem_drop (left ▸ List.mem_cons_self)
              rw [List.cons_append, expect?, if_neg]
              rintro rfl
              rw [isDigit digit present] at noDigit
              cases noDigit
        · have lineEnd : '\n' ∈ (digits ++ '\n' :: rest).take width := by
            obtain ⟨more, isMore⟩ := Nat.exists_eq_add_of_lt (Nat.lt_of_not_le within)
            rw [isMore, Nat.add_assoc, List.take_append, Nat.add_sub_cancel_left, List.take_succ_cons]
            exact List.mem_append_right _ List.mem_cons_self
          cases List.all_eq_true.mp bounded.2 _ lineEnd
      · cases read
  · cases read

/-- Digits are no date and no time of day. -/
theorem readMoment?_digits (all : digits.all Char.isDigit = true) :
    readMoment? (digits ++ '\n' :: rest) = none := by
  have date : skipDate? (digits ++ '\n' :: rest) = none := by
    unfold skipDate?
    cases read : readBounded? 4 0 9999 (digits ++ '\n' :: rest) with
    | none => rfl
    | some parts =>
        have unmarked : expect? '-' parts.2 = none := expect?_of_readBounded? all (by decide) (by decide) read
        simp [unmarked]
  have time : skipTime? (digits ++ '\n' :: rest) = none := by
    unfold skipTime?
    cases read : readBounded? 2 0 23 (digits ++ '\n' :: rest) with
    | none => rfl
    | some parts =>
        have unmarked : expect? ':' parts.2 = none := expect?_of_readBounded? all (by decide) (by decide) read
        simp [unmarked]
  rw [readMoment?, date, time]
  rfl

/-- A run of digits is read up to the end of its line. -/
theorem readDigits?_digits (nonempty : digits ≠ []) (all : digits.all Char.isDigit = true) :
    readDigits? Char.isDigit (digits ++ '\n' :: rest) = some (digits, '\n' :: rest) := by
  induction digits with
  | nil => exact absurd rfl nonempty
  | cons digit others inductionHypothesis =>
      rw [List.all_cons, Bool.and_eq_true] at all
      unfold readDigits?
      rw [List.cons_append]
      simp only [all.1, if_true]
      cases others with
      | nil => rfl
      | cons next others =>
          have read := inductionHypothesis (List.cons_ne_nil next others) all.2
          rw [List.all_cons, Bool.and_eq_true] at all
          split
          · next underscore =>
              injection underscore with isUnderscore
              rw [isUnderscore] at all
              cases all.2.1
          · next isNext =>
              injection isNext with isNext isAfter
              rw [← isNext, ← isAfter, if_pos all.2.1]
              exact congrArg (withFirst digit) read
          · next isEmpty => cases isEmpty

/-- The digits of a number are read up to the end of their line. -/
theorem readWhole?_toDigits (number : Nat) :
    readWhole? (Nat.toDigits 10 number ++ '\n' :: rest) = some (Nat.toDigits 10 number, '\n' :: rest) := by
  rcases Nat.eq_zero_or_pos number with rfl | positive
  · rfl
  · have read := @readDigits?_digits (Nat.toDigits 10 number) rest Nat.toDigits_ne_nil
      (Binary64.Decimal.all_toDigits number)
    obtain ⟨first, others, isNumber, nonzero⟩ := Text.exists_toDigits positive
    rw [isNumber] at read ⊢
    unfold readWhole?
    split
    · next zero =>
        injection zero with isZero
        exact absurd isZero nonzero
    · exact read

/-- What is said of the front of a text that begins with a digit. -/
theorem head_ne_of_isDigit {others : List Char} (isDigit : first.isDigit = true)
    (noDigit : mark.isDigit = false) : first :: rest ≠ mark :: others := by
  intro same
  rw [List.head_eq_of_cons_eq same, noDigit] at isDigit
  cases isDigit

/-- No mark follows digits before the end of their line. -/
theorem append_ne_of_isDigit {others : List Char} (all : digits.all Char.isDigit = true)
    (noDigit : mark.isDigit = false) (inLine : '\n' ≠ mark) : digits ++ '\n' :: rest ≠ mark :: others := by
  cases digits with
  | nil => exact fun same => inLine (List.head_eq_of_cons_eq same)
  | cons digit digits => exact head_ne_of_isDigit (Bool.and_eq_true_iff.mp (List.all_cons ▸ all)).1 noDigit

/-- A number begins with no blank. -/
theorem skipSpaces_toDigits (number : Nat) :
    skipSpaces (Nat.toDigits 10 number ++ rest) = Nat.toDigits 10 number ++ rest := by
  have all := Binary64.Decimal.all_toDigits number
  obtain ⟨first, others, isNumber⟩ := List.exists_cons_of_ne_nil (@Nat.toDigits_ne_nil number 10)
  rw [isNumber, List.all_cons, Bool.and_eq_true] at all
  have visible : ¬ isSpace first = true := by
    intro space
    rcases Bool.or_eq_true_iff.mp space with blank | tab
    · rw [of_decide_eq_true blank] at all
      cases all.1
    · rw [of_decide_eq_true tab] at all
      cases all.1
  rw [isNumber, List.cons_append, skipSpaces, List.dropWhile_cons_of_neg visible]

/-- A number that fits a signed word is read from its digits. -/
theorem readValue?_toDigits {number : Nat} (fits : Word.isSigned number = true) :
    readValue? (bound + 1) (Nat.toDigits 10 number ++ '\n' :: rest) = some (.integer number, '\n' :: rest) := by
  have all := Binary64.Decimal.all_toDigits number
  have moment := @readMoment?_digits (Nat.toDigits 10 number) rest all
  have whole := @readWhole?_toDigits rest number
  have value := Text.digitsToNat_toDigits number
  obtain ⟨first, others, isNumber⟩ := List.exists_cons_of_ne_nil (@Nat.toDigits_ne_nil number 10)
  rw [isNumber] at all moment whole value ⊢
  rw [List.all_cons, Bool.and_eq_true] at all
  rw [List.cons_append] at moment whole ⊢
  have unsigned : takeSign (first :: (others ++ '\n' :: rest)) = ([], first :: (others ++ '\n' :: rest)) := by
    unfold takeSign
    split
    · next plus => exact absurd plus (head_ne_of_isDigit all.1 rfl)
    · next minus => exact absurd minus (head_ne_of_isDigit all.1 rfl)
    · rfl
  have double : readDouble? (first :: (others ++ '\n' :: rest)) = none := by
    rw [readDouble?, unsigned]
    dsimp only
    split
    · next infinite => exact absurd infinite (head_ne_of_isDigit all.1 rfl)
    · next undefined => exact absurd undefined (head_ne_of_isDigit all.1 rfl)
    · rw [whole]
      rfl
  have integer : readInteger? (first :: (others ++ '\n' :: rest)) = some (.integer number, '\n' :: rest) := by
    unfold readInteger?
    split
    · next based => exact absurd (List.tail_eq_of_cons_eq based) (append_ne_of_isDigit all.2 rfl (by decide))
    · next based => exact absurd (List.tail_eq_of_cons_eq based) (append_ne_of_isDigit all.2 rfl (by decide))
    · next based => exact absurd (List.tail_eq_of_cons_eq based) (append_ne_of_isDigit all.2 rfl (by decide))
    · rw [unsigned]
      dsimp only
      rw [whole, Option.bind_some]
      dsimp only
      rw [value, List.isEmpty_nil, if_pos rfl, integer?, if_pos fits, Option.map_some]
  have scalar : readScalar? (first :: (others ++ '\n' :: rest)) = some (.integer number, '\n' :: rest) := by
    unfold readScalar?
    split
    · next empty => cases empty
    · next true => exact absurd true (head_ne_of_isDigit all.1 rfl)
    · next false => exact absurd false (head_ne_of_isDigit all.1 rfl)
    · next same =>
        have unquoted : ∀ quote : Char, quote.isDigit = false → first ≠ quote := by
          rintro quote noDigit rfl
          rw [noDigit] at all
          cases all.1
        obtain rfl := List.head_eq_of_cons_eq same
        simp [unquoted '"' rfl, unquoted '\'' rfl, moment, double, integer]
  unfold readValue?
  split
  · next bracket => exact absurd bracket (head_ne_of_isDigit all.1 rfl)
  · next brace => exact absurd brace (head_ne_of_isDigit all.1 rfl)
  · exact scalar

/-- An assignment is read when its key and its value are, with blanks around the sign between them. -/
theorem readStatement?_assignment {line behind : List Char} {path : List String} {assigned : TableValue}
    (begins : line.head? = some first) (noHeader : first ≠ '[')
    (isKey : readKey? line.length line = some (path, '=' :: ' ' :: behind))
    (visible : skipSpaces behind = behind)
    (isValue : readValue? (line.length + 1) behind = some (assigned, rest)) :
    readStatement? line = some (.assignment path assigned, rest) := by
  have blank : skipSpaces (' ' :: behind) = behind := visible
  unfold readStatement?
  split
  · exact absurd (Option.some.inj begins).symm noHeader
  · exact absurd (Option.some.inj begins).symm noHeader
  · simp only [isKey, expect?, if_true, blank, isValue, Option.bind_eq_bind, Option.bind_some]

/-- A statement with a line of its own is read before those on the lines behind it. -/
theorem readStatements?_line {line : List Char} {statement : TableStatement} (nonempty : line ≠ [])
    (visible : skipLines line.length line = line)
    (read : readStatement? line = some (statement, '\n' :: rest)) :
    readStatements? (bound + 1) line = (readStatements? bound rest).map (statement :: ·) := by
  have finished : finishLine? ('\n' :: rest) = some rest := rfl
  obtain ⟨first, others, rfl⟩ := List.exists_cons_of_ne_nil nonempty
  rw [readStatements?, visible]
  simp only [read, Option.bind_eq_bind, Option.bind_some, finished]
  cases readStatements? bound rest <;> rfl

end Written

end Orchestration.Toml
