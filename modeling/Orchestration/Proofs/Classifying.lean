import Orchestration.Expression.Substitution
import Orchestration.Proofs.Arithmetic
import Orchestration.Proofs.Dangling

/-!
# What is taken for arithmetic or for a numeral

A text is taken for arithmetic, and a token for a numeral, before it is read as one. The two tests know the
decimal digits of every script, and the two readers know those of ASCII only. In all other characters a test
and the reader behind it agree. So a reader comes to a character of arithmetic that it does not know only at a
digit of another script, and a token that is taken for a numeral is refused only if it has such a digit.
-/

namespace Orchestration

/-! ## Digits of other scripts -/

section Digits

variable {character : Char}

/-- A decimal digit that is not one of the ten of ASCII. -/
def Text.IsForeignDigit (character : Char) : Prop :=
  isDecimalDigit character = true ∧ character.isDigit = false

namespace Text.IsForeignDigit

/-- The digits of other scripts come behind all of ASCII. -/
theorem lt_toNat (foreign : IsForeignDigit character) : 0x7F < character.toNat := by
  have behind : ∀ range ∈ decimalDigitRanges, range = (0x30, 0x39) ∨ 0x7F < range.1 := by decide
  obtain ⟨digit, notPlain⟩ := foreign
  rw [isDecimalDigit, notPlain, Bool.false_or, inRanges, List.any_eq_true] at digit
  obtain ⟨range, within, inside⟩ := digit
  simp only [Bool.and_eq_true, decide_eq_true_eq] at inside
  rcases behind range within with rfl | later
  · have plain := isDigit_iff.mpr inside
    rw [notPlain] at plain
    cases plain
  · exact Nat.lt_of_lt_of_le later inside.1

/-- A digit of another script is no ASCII character. -/
theorem ne {other : Char} (foreign : IsForeignDigit character) (plain : other.toNat ≤ 0x7F) :
    character ≠ other := by
  rintro rfl
  exact absurd foreign.lt_toNat (Nat.not_lt.mpr plain)

/-- A digit of another script is not among ASCII characters. -/
theorem not_mem {others : List Char} (foreign : IsForeignDigit character)
    (plain : others.all (·.toNat ≤ 0x7F) = true) : character ∉ others :=
  fun within => foreign.ne (of_decide_eq_true (List.all_eq_true.mp plain character within)) rfl

/-- A digit of another script is no blank. -/
theorem isBlank_eq_false (foreign : IsForeignDigit character) : isBlank character = false := by
  have never : Grammar.blanks.any isDecimalDigit = false := by decide
  exact Grammar.isBlank_eq_false_of never foreign.1

end Text.IsForeignDigit

end Digits

/-! ## Arithmetic -/

namespace Arithmetic

section Tokens

variable {character other : Char} {run rest text : List Char}

/-- Two readings after one another fail when the first does, or when the second does behind it. -/
theorem bind_eq_error_iff {Error First Second : Type} {first : Except Error First}
    {next : First → Except Error Second} {error : Error} :
    first >>= next = .error error ↔
      first = .error error ∨ ∃ value, first = .ok value ∧ next value = .error error := by
  cases first <;> simp [bind, Except.bind]

/-- That a character is no part of a numeral, no blank and no sign. -/
structure IsUnexpected (character : Char) : Prop where
  ordinary : isNumeralCharacter character = false
  visible : Text.isBlank character = false
  noSign : Token.ofSign? character = none

/-- Among the characters that arithmetic is made of, those that are in no token are the digits of other
scripts. -/
theorem isUnexpected_iff (arithmetic : Expression.isArithmeticCharacter character = true) :
    IsUnexpected character ↔ Text.IsForeignDigit character := by
  constructor
  · rintro ⟨ordinary, visible, noSign⟩
    obtain ⟨notDigit, notPoint⟩ := Bool.or_eq_false_iff.mp ordinary
    rw [Expression.isArithmeticCharacter, visible, Bool.or_false, Bool.or_eq_true] at arithmetic
    refine ⟨arithmetic.resolve_right fun isSign => ?_, notDigit⟩
    have signs : ['+', '-', '*', '/', '%', '(', ')', '.'].all
        (fun sign => decide (sign = '.') || (Token.ofSign? sign).isSome) = true := by decide
    have either := List.all_eq_true.mp signs character (List.contains_iff_mem.mp isSign)
    rw [notPoint, noSign] at either
    cases either
  · intro foreign
    refine ⟨?_, foreign.isBlank_eq_false, ?_⟩
    · rw [isNumeralCharacter, foreign.2, Bool.false_or, decide_eq_false_iff_not]
      exact foreign.ne (by decide)
    · unfold Token.ofSign?
      split <;> first | rfl | exact absurd rfl (foreign.ne (by decide))

/-- A run may be no numeral, but all its characters are ones of numerals. -/
theorem heldBack_ne_unexpected (run : List Char) (character : Char) :
    heldBack run ≠ .error (.unexpectedCharacter character) := by
  intro fails
  rw [heldBack] at fails
  split at fails
  · cases fails
  · rw [ofRun] at fails
    split at fails <;> cases fails

/-- A character outside of numerals fails by itself exactly if it is in no token. -/
theorem ownTokens_eq_error_iff {error : ExpressionError} (ordinary : isNumeralCharacter character = false) :
    ownTokens character = .error error ↔ IsUnexpected character ∧ error = .unexpectedCharacter character := by
  unfold ownTokens
  split
  · rename_i blank
    exact ⟨fun fails => (by cases fails), fun unexpected => by simp [unexpected.1.visible] at blank⟩
  · rename_i visible
    split
    · rename_i isSign
      exact ⟨fun fails => (by cases fails), fun unexpected => by simp [unexpected.1.noSign] at isSign⟩
    · rename_i noSign
      have unexpected : IsUnexpected character := ⟨ordinary, Bool.eq_false_iff.mpr visible, noSign⟩
      simp [unexpected, eq_comm]

/-- Reading comes to the end of a run, then to the character that ends it, and then to the rest. -/
theorem tokensAfter_cons_eq_unexpected_iff (ordinary : isNumeralCharacter other = false) :
    tokensAfter run (other :: rest) = .error (.unexpectedCharacter character) ↔
      ∃ held, heldBack run = .ok held ∧ (IsUnexpected other ∧ character = other ∨
        ∃ added, StandsFor other added ∧ tokensAfter [] rest = .error (.unexpectedCharacter character)) := by
  simp [tokensAfter_cons ordinary, bind_eq_error_iff, heldBack_ne_unexpected, ownTokens_eq_error_iff ordinary,
    ownTokens_eq_ok_iff, pure, Except.pure]

/-- Reading stops at a character that is in no token exactly if it can read everything before it. -/
theorem tokensAfter_eq_unexpected_iff : tokensAfter run text = .error (.unexpectedCharacter character) ↔
    ∃ before after, text = before ++ character :: after ∧ (∃ tokens, tokensAfter run before = .ok tokens) ∧
      IsUnexpected character := by
  induction text generalizing run with
  | nil =>
      have stops := heldBack_ne_unexpected run character
      exact ⟨fun fails => absurd fails stops, fun ⟨before, after, same, _⟩ => by simp at same⟩
  | cons first rest inductionHypothesis =>
      cases numeral : isNumeralCharacter first with
      | true =>
          have step (text : List Char) : tokensAfter run (first :: text) = tokensAfter (run ++ [first]) text := by
            rw [tokensAfter, if_pos numeral]
          rw [step, inductionHypothesis]
          constructor
          · rintro ⟨before, after, rfl, reads, unexpected⟩
            exact ⟨first :: before, after, rfl, (step before).symm ▸ reads, unexpected⟩
          · rintro ⟨before, after, same, reads, unexpected⟩
            cases before with
            | nil =>
                obtain ⟨rfl, -⟩ := List.cons.inj same
                simp [unexpected.ordinary] at numeral
            | cons next before =>
                obtain ⟨rfl, rfl⟩ := List.cons.inj same
                exact ⟨before, after, rfl, step before ▸ reads, unexpected⟩
      | false =>
          rw [tokensAfter_cons_eq_unexpected_iff numeral]
          constructor
          · rintro ⟨held, holds, ⟨unexpected, rfl⟩ | ⟨added, stands, fails⟩⟩
            · exact ⟨[], rest, rfl, ⟨held, holds⟩, unexpected⟩
            · obtain ⟨before, after, rfl, ⟨tokens, reads⟩, unexpected⟩ := inductionHypothesis.mp fails
              exact ⟨first :: before, after, rfl, ⟨_, (tokensAfter_cons_eq_ok_iff numeral).mpr
                ⟨held, added, tokens, holds, stands, reads, rfl⟩⟩, unexpected⟩
          · rintro ⟨before, after, same, ⟨tokens, reads⟩, unexpected⟩
            cases before with
            | nil =>
                obtain ⟨rfl, rfl⟩ := List.cons.inj same
                exact ⟨tokens, reads, .inl ⟨unexpected, rfl⟩⟩
            | cons next before =>
                obtain ⟨rfl, rfl⟩ := List.cons.inj same
                obtain ⟨held, added, following, holds, stands, readsOn, -⟩ :=
                  (tokensAfter_cons_eq_ok_iff numeral).mp reads
                exact ⟨held, holds, .inr ⟨added, stands,
                  inductionHypothesis.mpr ⟨before, after, rfl, ⟨following, readsOn⟩, unexpected⟩⟩⟩

end Tokens

/-! ## Trees -/

section Trees

variable {error : ExpressionError}

/-- That an error is one of arranging tokens: one is missing, one is in the wrong place, or they nest too
deeply. -/
def IsArranging : ExpressionError → Prop
  | .unexpectedEnd => True
  | .unexpectedToken _ => True
  | .tooDeep _ => True
  | _ => False

/-- That reading tokens fails for their arrangement only. -/
def FailsArranging (read : List Token → Reading) : Prop :=
  ∀ tokens error, read tokens = .error error → IsArranging error

/-- A chain fails as its operands do. -/
theorem chain_failsArranging {operation? : Token → Option Operation} {operand : List Token → Reading}
    (fails : FailsArranging operand) (bound : Nat) (tree : Tree) :
    FailsArranging (chain operation? operand bound tree) := by
  intro tokens error found
  induction bound generalizing tree tokens with
  | zero => cases found
  | succ bound inductionHypothesis =>
      unfold chain at found
      split at found
      · cases found
      · split at found
        · cases found
        · rcases bind_eq_error_iff.mp found with failed | ⟨⟨right, rest⟩, -, failed⟩
          · exact fails _ error failed
          · exact inductionHypothesis _ _ failed

/-- Operands with operations between them fail as the operands do. -/
theorem chained_failsArranging {operation? : Token → Option Operation} {operand : List Token → Reading}
    (fails : FailsArranging operand) : FailsArranging (chained operation? operand) := by
  intro tokens error found
  rcases bind_eq_error_iff.mp found with failed | ⟨⟨first, rest⟩, -, failed⟩
  · exact fails _ error failed
  · exact chain_failsArranging fails _ _ _ error failed

/-- A sum fails as its signed operands do. -/
theorem readSum_failsArranging {signed : List Token → Reading} (fails : FailsArranging signed) :
    FailsArranging (readSum signed) :=
  chained_failsArranging (chained_failsArranging fails)

/-- A signed operand fails for the arrangement of its tokens only. -/
theorem readSigned_failsArranging (levels : Nat) : FailsArranging (readSigned levels) := by
  induction levels with
  | zero =>
      intro tokens error found
      cases found
      trivial
  | succ levels inductionHypothesis =>
      intro tokens error found
      unfold readSigned at found
      split at found
      · cases found
        trivial
      · cases found
      · rcases bind_eq_error_iff.mp found with failed | ⟨_, -, failed⟩
        · exact inductionHypothesis _ error failed
        · cases failed
      · exact inductionHypothesis _ error found
      · rcases bind_eq_error_iff.mp found with failed | ⟨⟨inner, rest⟩, -, failed⟩
        · exact readSum_failsArranging inductionHypothesis _ error failed
        · dsimp only at failed
          split at failed <;> cases failed <;> trivial
      · cases found
        trivial

/-- Tokens are refused for their arrangement only. -/
theorem isArranging_of_ofTokens {tokens : List Token} (found : ofTokens tokens = .error error) :
    IsArranging error := by
  rcases bind_eq_error_iff.mp found with failed | ⟨⟨tree, rest⟩, -, failed⟩
  · exact readSum_failsArranging (readSigned_failsArranging maximumNesting) _ error failed
  · dsimp only at failed
    split at failed <;> cases failed
    trivial

end Trees
end Arithmetic

/-! ## Expressions -/

namespace Expression

variable {text : String} {bag : Bag}

/-- A text that is not taken for arithmetic is left as it stands. -/
theorem evaluate_of_not_isArithmetic (plain : isArithmetic (substitute text.toList bag) = false) :
    evaluate text bag = .ok (.text (String.ofList (substitute text.toList bag))) := by
  rw [evaluate]
  exact if_neg (Bool.eq_false_iff.mp plain)

/-- What is wrong with an evaluated text apart from its tokens is wrong with their arrangement or with its
result. -/
theorem evaluate_eq_unexpected_iff {character : Char} :
    evaluate text bag = .error (.unexpectedCharacter character) ↔
      isArithmetic (substitute text.toList bag) = true ∧
        Arithmetic.tokens (substitute text.toList bag) = .error (.unexpectedCharacter character) := by
  have toValue (result : Float) : Arithmetic.toValue result ≠ .error (.unexpectedCharacter character) := by
    intro fails
    unfold Arithmetic.toValue at fails
    split at fails
    · split at fails
      · split at fails <;> cases fails
      · cases fails
    · cases fails
  have ofTokens (tokens : List Arithmetic.Token) :
      Arithmetic.ofTokens tokens ≠ .error (.unexpectedCharacter character) :=
    fun fails => Arithmetic.isArranging_of_ofTokens fails
  cases arithmetic : isArithmetic (substitute text.toList bag) with
  | false => simp [evaluate_of_not_isArithmetic arithmetic]
  | true =>
      have evaluated : evaluate text bag =
          Arithmetic.evaluate (substitute text.toList bag) >>= Arithmetic.toValue := by
        rw [evaluate]
        exact if_pos arithmetic
      rw [evaluated, Arithmetic.evaluate, Arithmetic.ofText]
      cases Arithmetic.tokens (substitute text.toList bag) with
      | error error => simp [bind, Except.bind, Except.map]
      | ok tokens =>
          have arranged := ofTokens tokens
          cases found : Arithmetic.ofTokens tokens with
          | error error => simpa [bind, Except.bind, Except.map, found] using arranged
          | ok tree => simpa [bind, Except.bind, Except.map, found] using toValue tree.value

end Expression

/-! ## Numerals -/

section Numerals

variable {token : List Char} {character : Char}

/-- Behind its sign a numeral is digits, in those of any script, and perhaps a point and more digits. -/
theorem Condition.exists_of_isNumeral_minus {magnitude : List Char}
    (numeral : isNumeral ('-' :: magnitude) = true) :
    ∃ whole fraction : List Char, magnitude = (whole ++ if fraction = [] then [] else '.' :: fraction) ∧
      whole ≠ [] ∧ whole.all Text.isDecimalDigit = true ∧ fraction.all Text.isDecimalDigit = true := by
  have parts := List.takeWhile_append_dropWhile (p := Text.isDecimalDigit) (l := magnitude)
  have digits : (magnitude.takeWhile Text.isDecimalDigit).all Text.isDecimalDigit = true := List.all_takeWhile
  simp only [isNumeral] at numeral
  split at numeral
  · rename_i ends
    rw [ends, List.append_nil] at parts
    refine ⟨_, [], by rw [if_pos rfl, List.append_nil, parts], ?_, digits, rfl⟩
    simpa using numeral
  · rename_i fraction goesOn
    rw [goesOn] at parts
    simp only [Bool.and_eq_true, Bool.not_eq_true', List.isEmpty_eq_false_iff] at numeral
    obtain ⟨⟨nonempty, fractionNonempty⟩, fractionDigits⟩ := numeral
    exact ⟨_, fraction, by rw [if_neg fractionNonempty, parts], nonempty, digits, fractionDigits⟩
  · cases numeral

/-- A token that matches the pattern of numerals is a sign, digits and perhaps a fraction, where digits are of
any script. -/
theorem Condition.exists_of_isNumeral (numeral : isNumeral token = true) :
    ∃ (negative : Bool) (whole fraction : List Char),
      token = (if negative then ['-'] else []) ++ (whole ++ if fraction = [] then [] else '.' :: fraction) ∧
      whole ≠ [] ∧ whole.all Text.isDecimalDigit = true ∧ fraction.all Text.isDecimalDigit = true := by
  cases token with
  | nil => cases numeral
  | cons first rest =>
      by_cases minus : first = '-'
      · subst minus
        obtain ⟨whole, fraction, rfl, digits⟩ := exists_of_isNumeral_minus numeral
        exact ⟨true, whole, fraction, rfl, digits⟩
      · rw [← Grammar.isNumeral_minus minus] at numeral
        obtain ⟨whole, fraction, same, digits⟩ := exists_of_isNumeral_minus numeral
        exact ⟨false, whole, fraction, same, digits⟩

/-- A numeral whose digits are all of ASCII is read. -/
theorem Condition.read?_of_isNumeral (numeral : isNumeral token = true)
    (plain : ∀ character ∈ token, ¬ Text.IsForeignDigit character) : Binary64.read? token ≠ none := by
  obtain ⟨negative, whole, fraction, rfl, nonempty, wholeDigits, fractionDigits⟩ := exists_of_isNumeral numeral
  have isDigit {digits : List Char} (all : digits.all Text.isDecimalDigit = true)
      (within : ∀ digit ∈ digits, ¬ Text.IsForeignDigit digit) : digits.all Char.isDigit = true :=
    List.all_eq_true.mpr fun digit member => Bool.not_eq_false _ |>.mp fun notPlain =>
      within digit member ⟨List.all_eq_true.mp all digit member, notPlain⟩
  have wholePlain := isDigit wholeDigits fun digit within => plain digit (by simp [within])
  have fractionPlain := isDigit fractionDigits fun digit within => plain digit (by
    have nonempty : fraction ≠ [] := List.ne_nil_of_mem within
    simp [within, nonempty])
  let spelled : Grammar.Numeral := ⟨negative, whole, fraction, nonempty, by
    rw [List.all_append, wholePlain, fractionPlain]; rfl⟩
  have text : spelled.text = (if negative then ['-'] else []) ++
      (whole ++ if fraction = [] then [] else '.' :: fraction) := by
    cases negative <;> simp [spelled, Grammar.Numeral.text, Grammar.Numeral.magnitude, Grammar.Numeral.decimals]
  rw [← text, spelled.read?_text]
  exact Option.some_ne_none _

namespace Binary64

/-- That no digit of another script is in a text. -/
def IsPlain (text : List Char) : Prop :=
  ∀ character ∈ text, ¬ Text.IsForeignDigit character

/-- A text is plain where both its parts are. -/
theorem isPlain_append {first second : List Char} :
    IsPlain (first ++ second) ↔ IsPlain first ∧ IsPlain second :=
  List.forall_mem_append

/-- ASCII texts are plain. -/
theorem isPlain_of_ascii {text : List Char} (ascii : text.all (·.toNat ≤ 0x7F) = true) : IsPlain text :=
  fun _ within foreign => foreign.not_mem ascii within

/-- ASCII digits are plain. -/
theorem isPlain_of_isDigit {text : List Char} (digits : text.all Char.isDigit = true) : IsPlain text := by
  intro character within foreign
  have digit := List.all_eq_true.mp digits character within
  rw [foreign.2] at digit
  cases digit

/-- Taking a sign off leaves the digits of every script. -/
theorem isPlain_takeSign {text : List Char} : IsPlain (takeSign text).2 ↔ IsPlain text := by
  have signed (sign : Char) (ascii : sign.toNat ≤ 0x7F) (rest : List Char) :
      IsPlain rest ↔ IsPlain (sign :: rest) :=
    ⟨fun plain => List.forall_mem_cons.mpr ⟨fun foreign => foreign.ne ascii rfl, plain⟩,
      fun plain => (List.forall_mem_cons.mp plain).2⟩
  unfold takeSign
  split
  · exact signed '-' (by decide) _
  · exact signed '+' (by decide) _
  · exact Iff.rfl

/-- Only plain exponents are read. -/
theorem isPlain_of_readExponent? {text : List Char} {exponent : Int}
    (read : readExponent? text = some exponent) : IsPlain text := by
  cases text with
  | nil => exact List.forall_mem_nil _
  | cons mark rest =>
      by_cases isMark : mark = 'e' ∨ mark = 'E'
      · rw [readExponent?, if_pos isMark] at read
        dsimp only at read
        split at read
        · cases read
        · rename_i digits
          simp only [Bool.or_eq_true, not_or, Bool.not_eq_true', Bool.not_eq_false] at digits
          refine List.forall_mem_cons.mpr ⟨fun foreign => ?_, isPlain_takeSign.mp (isPlain_of_isDigit digits.2)⟩
          rcases isMark with rfl | rfl <;> exact foreign.ne (by decide) rfl
      · rw [readExponent?, if_neg isMark] at read
        cases read

/-- Only plain numerals are read. -/
theorem isPlain_of_readNumeral? {text : List Char} {numeral : Numeral}
    (read : readNumeral? text = some numeral) : IsPlain text := by
  rw [← List.takeWhile_append_dropWhile (p := Char.isDigit) (l := text), isPlain_append]
  refine ⟨isPlain_of_isDigit List.all_takeWhile, ?_⟩
  unfold readNumeral? at read
  dsimp only at read
  split at read
  · rename_i rest goesOn
    split at read
    · cases read
    · obtain ⟨exponent, readsExponent, -⟩ := Option.map_eq_some_iff.mp read
      refine goesOn ▸ List.forall_mem_cons.mpr ⟨fun foreign => foreign.ne (by decide) rfl, ?_⟩
      rw [← List.takeWhile_append_dropWhile (p := Char.isDigit) (l := rest)]
      exact isPlain_append.mpr ⟨isPlain_of_isDigit List.all_takeWhile, isPlain_of_readExponent? readsExponent⟩
  · split at read
    · cases read
    · obtain ⟨exponent, readsExponent, -⟩ := Option.map_eq_some_iff.mp read
      exact isPlain_of_readExponent? readsExponent

/-- The words for the special values are in ASCII, in any case. -/
theorem isPlain_of_map_toLower {text word : List Char} (same : text.map Char.toLower = word)
    (ascii : word.all (·.toNat ≤ 0x7F) = true) : IsPlain text := by
  intro character within foreign
  have unchanged : character.toLower = character := by
    have bound := foreign.lt_toNat
    unfold Char.toLower
    rw [dif_neg]
    rintro ⟨-, last⟩
    have small : character.toNat ≤ 'Z'.toNat := last
    have ends : 'Z'.toNat = 0x5A := rfl
    omega
  refine foreign.not_mem ascii ?_
  rw [← same, ← unchanged]
  exact List.mem_map_of_mem within

/-- What is read as a double has no digit of another script. -/
theorem isPlain_of_read? {text : List Char} {value : Float} (read : read? text = some value) :
    IsPlain text := by
  rw [← isPlain_takeSign]
  unfold read? at read
  dsimp only at read
  split at read
  · exact isPlain_of_readNumeral? ‹_›
  · split at read
    · rename_i word
      rcases word with word | word <;> exact isPlain_of_map_toLower word (by decide)
    · split at read
      · exact isPlain_of_map_toLower ‹_› (by decide)
      · cases read

end Binary64

/-- A numeral is refused exactly if one of its digits is not of ASCII. -/
theorem Condition.read?_eq_none_iff (numeral : isNumeral token = true) :
    Binary64.read? token = none ↔ ∃ character ∈ token, Text.IsForeignDigit character := by
  constructor
  · intro unread
    by_contra plain
    push Not at plain
    exact read?_of_isNumeral numeral plain unread
  · rintro ⟨character, within, foreign⟩
    exact Option.eq_none_iff_forall_ne_some.mpr fun value read =>
      Binary64.isPlain_of_read? read character within foreign

/-- A token is refused exactly if it is a numeral with a digit that is not of ASCII. -/
theorem Condition.ofToken_eq_refused_iff {error : ExpressionError} : ofToken token = .refused error ↔
    isNumeral token = true ∧ (∃ character ∈ token, Text.IsForeignDigit character) ∧
      error = .invalidNumber (String.ofList token) := by
  constructor
  · intro refused
    unfold ofToken at refused
    split_ifs at refused with _ _ _ _ numeral
    · unfold ofNumeral at refused
      split at refused
      · rename_i unread
        cases refused
        exact ⟨numeral, (read?_eq_none_iff numeral).mp unread, rfl⟩
      · split at refused
        · cases refused
        · split at refused <;> cases refused
    · split at refused <;> cases refused
  · rintro ⟨numeral, foreign, rfl⟩
    have free : ∀ word : Grammar.Keyword, token ≠ word.text := by
      rintro word rfl
      have notNumeral : isNumeral word.text = false := by cases word <;> decide
      rw [numeral] at notNumeral
      cases notNumeral
    rw [Grammar.ofToken_of_free free, if_pos numeral, ofNumeral, (read?_eq_none_iff numeral).mpr foreign]

end Numerals

/-! ## Conditions -/

namespace Condition

/-- What the reading of a text may blame: an empty term, the nesting, or a numeral of the text that is
refused. -/
inductive Blames (text : List Char) : ExpressionError → Prop where
  | emptyTerm (level : String) : Blames text (.emptyTerm level)
  | tooDeep : Blames text (.tooDeep maximumNesting)
  | invalidNumber {token : List Char} (within : token <:+: text) (numeral : isNumeral token = true)
      (foreign : ∃ character ∈ token, Text.IsForeignDigit character) :
      Blames text (.invalidNumber (String.ofList token))

/-- That every faulty place of a condition blames something that the reading of a text may blame. -/
def OnlyBlames (text : List Char) (condition : Condition) : Prop :=
  ∀ error guards, Stands (.refused error) guards condition → Blames text error

section Blaming

variable {text wider whole : List Char}

/-- What the reading of a part may blame, that of the whole may. -/
theorem Blames.mono {error : ExpressionError} (blames : Blames text error) (within : text <:+: wider) :
    Blames wider error := by
  cases blames with
  | emptyTerm level => exact .emptyTerm level
  | tooDeep => exact .tooDeep
  | invalidNumber inside numeral foreign => exact .invalidNumber (inside.trans within) numeral foreign

/-- A condition that blames a part only, blames the whole only. -/
theorem OnlyBlames.mono {condition : Condition} (blames : OnlyBlames text condition)
    (within : text <:+: wider) : OnlyBlames wider condition :=
  fun error guards stands => (blames error guards stands).mono within

/-- A place that is refused blames its error. -/
theorem onlyBlames_refused {error : ExpressionError} (blames : Blames text error) :
    OnlyBlames text (.refused error) := by
  intro other guards stands
  cases stands
  exact blames

/-- A negated condition blames what the condition does. -/
theorem onlyBlames_negated {inner : Condition} (blames : OnlyBlames text inner) :
    OnlyBlames text (.negated inner) := by
  intro error guards stands
  cases stands with
  | negated within => exact blames error _ within

/-- A comparison blames what its two sides do. -/
theorem onlyBlames_compared {comparison : Comparison} {left right : Condition}
    (leftBlames : OnlyBlames text left) (rightBlames : OnlyBlames text right) :
    OnlyBlames text (.compared comparison left right) := by
  intro error guards stands
  cases stands with
  | left _ _ within => exact leftBlames error _ within
  | right _ _ within => exact rightBlames error _ within

/-- A conjunction blames what its terms do. -/
theorem onlyBlames_conjunction {terms : List Condition} (blames : ∀ term ∈ terms, OnlyBlames text term) :
    OnlyBlames text (.conjunction terms) := by
  intro error guards stands
  cases stands with
  | conjunct before after within => exact blames _ List.mem_append_cons_self error _ within

/-- A disjunction blames what its terms do. -/
theorem onlyBlames_disjunction {terms : List Condition} (blames : ∀ term ∈ terms, OnlyBlames text term) :
    OnlyBlames text (.disjunction terms) := by
  intro error guards stands
  cases stands with
  | disjunct before after within => exact blames _ List.mem_append_cons_self error _ within

/-- A token that is refused is a numeral with a digit of another script. -/
theorem onlyBlames_ofToken (token : List Char) : OnlyBlames token (ofToken token) := by
  intro error guards stands
  rcases ofToken_cases token with ⟨operand, read⟩ | ⟨path, read⟩ | ⟨literal, read⟩ <;>
    rw [read] at stands <;> cases stands
  obtain ⟨numeral, foreign, same⟩ := ofToken_eq_refused_iff.mp read
  rw [same]
  exact .invalidNumber List.infix_rfl numeral foreign

/-- An operand blames its token, or what is inside of its parentheses. -/
theorem onlyBlames_readOperand {nested : List Char → Condition}
    (blames : ∀ inner, OnlyBlames inner (nested inner)) (text : List Char) :
    OnlyBlames text (readOperand nested text) := by
  refine OnlyBlames.mono ?_ (Text.trim_isInfix text)
  rw [readOperand]
  split
  · exact onlyBlames_refused (.emptyTerm _)
  · split
    · rename_i inner encloses
      exact (blames inner).mono ⟨['('], [')'], (eq_of_enclosed? encloses).symm⟩
    · exact onlyBlames_ofToken _

/-- A signed operand blames the operand. -/
theorem onlyBlames_readSigned {nested : Nat → List Char → Condition}
    (blames : ∀ signs inner, OnlyBlames inner (nested signs inner)) (signs : Nat) :
    OnlyBlames text (readSigned nested whole signs text) := by
  induction text generalizing signs with
  | nil => exact onlyBlames_refused (.emptyTerm _)
  | cons character rest inductionHypothesis =>
      have within : rest <:+: character :: rest := (List.suffix_cons _ _).isInfix
      rw [readSigned]
      split
      · exact (inductionHypothesis signs).mono within
      · split
        · exact onlyBlames_negated ((inductionHypothesis (signs + 1)).mono within)
        · exact onlyBlames_readOperand (blames signs) _

/-- A term blames its sides, which are parts of it. -/
theorem onlyBlames_readTerm {nested : Nat → List Char → Condition}
    (blames : ∀ signs inner, OnlyBlames inner (nested signs inner)) :
    OnlyBlames text (readTerm nested whole text) := by
  rw [readTerm]
  split
  · rename_i comparison left right found
    have sides := eq_append_of_comparison? found
    exact onlyBlames_compared
      ((onlyBlames_readOperand (blames 0) left).mono ⟨[], comparison.sign.toList ++ right, sides.symm⟩)
      ((onlyBlames_readOperand (blames 0) right).mono
        ⟨left ++ comparison.sign.toList, [], by simpa using sides.symm⟩)
  · exact onlyBlames_readSigned blames 0

/-- The reading of a text blames nothing that is not in the text, by induction on the levels left. -/
theorem onlyBlames_read (levels : Nat) (text : List Char) : OnlyBlames text (read levels text) := by
  induction levels using Nat.strong_induction_on generalizing text with
  | _ levels inductionHypothesis =>
      cases levels with
      | zero =>
          rw [read]
          exact onlyBlames_refused .tooDeep
      | succ deeper =>
          cases visible : (terms text).any fun conjuncts => conjuncts.any Text.isBlankText with
          | true =>
              rw [read, if_pos visible]
              exact onlyBlames_refused (.emptyTerm _)
          | false =>
              rw [read_of_visible deeper visible]
              refine onlyBlames_disjunction fun disjunct isDisjunct => ?_
              obtain ⟨conjuncts, isConjunction, rfl⟩ := List.mem_map.mp isDisjunct
              refine onlyBlames_conjunction fun conjunct isConjunct => ?_
              obtain ⟨term, present, rfl⟩ := List.mem_map.mp isConjunct
              refine OnlyBlames.mono ?_ (isInfix_of_mem_terms isConjunction present)
              exact onlyBlames_readTerm fun signs inner => inductionHypothesis _ (by omega) inner

end Blaming

/-- A numeral is blamed exactly if evaluation comes to a numeral that has a digit of another script. -/
theorem evaluate_eq_invalidNumber_iff {text literal : String} {bag : Bag} :
    evaluate text bag = .error (.invalidNumber literal) ↔
      isNumeral literal.toList = true ∧ (∃ character ∈ literal.toList, Text.IsForeignDigit character) ∧
      ∃ guards, Stands (ofToken literal.toList) guards (ofText text) ∧ ∀ guard ∈ guards, guard.Met bag := by
  rw [evaluate_eq_error_iff]
  constructor
  · rintro ⟨guards, stands, met⟩
    have blames := onlyBlames_read maximumNesting text.toList _ _ stands
    obtain ⟨token, numeral, foreign, rfl⟩ : ∃ token, isNumeral token = true ∧
        (∃ character ∈ token, Text.IsForeignDigit character) ∧ literal = String.ofList token := by
      cases blames with
      | @invalidNumber token _ numeral foreign => exact ⟨token, numeral, foreign, rfl⟩
    rw [String.toList_ofList]
    rw [← ofToken_eq_refused_iff.mpr ⟨numeral, foreign, rfl⟩] at stands
    exact ⟨numeral, foreign, guards, stands, met⟩
  · rintro ⟨numeral, foreign, guards, stands, met⟩
    rw [ofToken_eq_refused_iff.mpr ⟨numeral, foreign, rfl⟩, String.ofList_toList] at stands
    exact ⟨guards, stands, met⟩

/-- Where a text has no digit of another script no numeral of it is blamed. -/
theorem evaluate_ne_invalidNumber {text : String} {bag : Bag}
    (plain : ∀ character ∈ text.toList, ¬ Text.IsForeignDigit character) (literal : String) :
    evaluate text bag ≠ .error (.invalidNumber literal) := by
  intro fails
  obtain ⟨guards, stands, -⟩ := evaluate_eq_error_iff.mp fails
  cases onlyBlames_read maximumNesting text.toList _ _ stands with
  | invalidNumber within numeral foreign =>
      obtain ⟨character, member, isForeign⟩ := foreign
      exact plain character (within.subset member) isForeign

end Condition

/-! ## Both tests -/

/-- The tests agree with the readers behind them but for the digits of other scripts. A text that is not taken
for arithmetic stands for itself. One that is comes to a character that is in no token exactly if a digit of
another script stands behind what can be read. And a token that is taken for a numeral is refused exactly if
it has such a digit and evaluation comes to it. -/
theorem refused_digit_iff (text : String) (bag : Bag) :
    (Expression.isArithmetic (Expression.substitute text.toList bag) = false →
      Expression.evaluate text bag = .ok (.text (String.ofList (Expression.substitute text.toList bag)))) ∧
    (∀ character, Expression.evaluate text bag = .error (.unexpectedCharacter character) ↔
      Expression.isArithmetic (Expression.substitute text.toList bag) = true ∧
      ∃ before after, Expression.substitute text.toList bag = before ++ character :: after ∧
        (∃ tokens, Arithmetic.tokens before = .ok tokens) ∧ Text.IsForeignDigit character) ∧
    (∀ literal, Condition.evaluate text bag = .error (.invalidNumber literal) ↔
      Condition.isNumeral literal.toList = true ∧
      (∃ character ∈ literal.toList, Text.IsForeignDigit character) ∧
      ∃ guards, Condition.Stands (Condition.ofToken literal.toList) guards (Condition.ofText text) ∧
        ∀ guard ∈ guards, guard.Met bag) ∧
    ((∀ character ∈ text.toList, ¬ Text.IsForeignDigit character) →
      ∀ literal, Condition.evaluate text bag ≠ .error (.invalidNumber literal)) := by
  refine ⟨Expression.evaluate_of_not_isArithmetic, fun character => ?_,
    fun literal => Condition.evaluate_eq_invalidNumber_iff, Condition.evaluate_ne_invalidNumber⟩
  rw [Expression.evaluate_eq_unexpected_iff]
  refine and_congr_right fun arithmetic => ?_
  rw [Arithmetic.tokens, Arithmetic.tokensAfter_eq_unexpected_iff]
  refine exists_congr fun before => exists_congr fun after => and_congr_right fun divided =>
    and_congr_right fun _ => Arithmetic.isUnexpected_iff ?_
  have all := (Bool.and_eq_true_iff.mp arithmetic).1
  exact List.all_eq_true.mp all character (divided ▸ List.mem_append_cons_self)

/-- A digit of another script is taken for a part of arithmetic and for a numeral, and refused by the readers
of both. -/
theorem exists_refused_digit :
    Expression.evaluate "1 + \u0663" [] = .error (.unexpectedCharacter '\u0663') ∧
      Condition.evaluate "\u0663 == 'x'" [] = .error (.invalidNumber "\u0663") := by
  constructor
  · have substituted : Expression.substitute "1 + \u0663".toList [] = "1 + \u0663".toList := by decide
    refine Expression.evaluate_eq_unexpected_iff.mpr ⟨by rw [substituted]; decide, ?_⟩
    rw [substituted, Arithmetic.tokens, Arithmetic.tokensAfter_eq_unexpected_iff]
    exact ⟨"1 + ".toList, [], rfl, ⟨_, rfl⟩, rfl, by decide, rfl⟩
  · rw [Condition.evaluate_eq_invalidNumber_iff]
    refine ⟨by decide, ⟨'\u0663', by decide, by decide +kernel, rfl⟩, [], ?_, List.forall_mem_nil _⟩
    have cut : Condition.terms "\u0663 == 'x'".toList = [["\u0663 == 'x'".toList]] := by decide
    rw [Condition.ofText, maximumNesting, Condition.read_of_visible 255 (by rw [cut]; decide), cut]
    exact .disjunct [] [] (.conjunct [] [] (.left .equal _ .here))

/-- In a text of ASCII every character and every numeral is read. -/
theorem digits_of_ascii_read :
    (∀ character, Expression.evaluate "1 + 2" [] ≠ .error (.unexpectedCharacter character)) ∧
      ∀ literal, Condition.evaluate "1 + 2" [] ≠ .error (.invalidNumber literal) := by
  have plain : ∀ character ∈ "1 + 2".toList, ¬ Text.IsForeignDigit character :=
    Binary64.isPlain_of_ascii (by decide)
  obtain ⟨-, unexpected, -, invalid⟩ := refused_digit_iff "1 + 2" []
  refine ⟨fun character fails => ?_, invalid plain⟩
  obtain ⟨-, before, after, divided, -, foreign⟩ := (unexpected character).mp fails
  have substituted : Expression.substitute "1 + 2".toList [] = "1 + 2".toList := by decide
  rw [substituted] at divided
  exact plain character (divided ▸ List.mem_append_cons_self) foreign

end Orchestration
