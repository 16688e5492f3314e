import Orchestration.Proofs.Formulas
import Orchestration.Proofs.Grammar

/-!
# Evaluated texts

The texts that spell a list of tokens: its signs and numerals in their order, each numeral a longest run of
digits and points, and blanks wherever no run is torn apart by them. The tokens of a text are exactly those
that it spells, so a text has a value exactly when it spells a formula that is not nested too deeply.
-/

namespace Orchestration.Arithmetic

/-- That a numeral may have a character in it. -/
def InNumeral (character : Char) : Prop :=
  character.isDigit = true ∨ character = '.'

/-- That no numeral goes on at the front of a text. -/
def EndsRun (text : List Char) : Prop :=
  ∀ character ∈ text.head?, ¬ InNumeral character

/-- The signs, with the tokens that they stand for. -/
def signs : List (Char × Token) :=
  [('+', .plus), ('-', .minus), ('*', .times), ('/', .divided), ('%', .modulo), ('(', .opening),
    (')', .closing)]

/-- That a text spells the given tokens. -/
inductive Spelled : List Token → List Char → Prop where
  | nil : Spelled [] []
  | blank {character : Char} {tokens : List Token} {rest : List Char}
      (white : character ∈ Grammar.blanks) (spelled : Spelled tokens rest) :
      Spelled tokens (character :: rest)
  | sign {character : Char} {token : Token} {tokens : List Token} {rest : List Char}
      (isSign : (character, token) ∈ signs) (spelled : Spelled tokens rest) :
      Spelled (token :: tokens) (character :: rest)
  | numeral {run rest : List Char} {value : Float} {tokens : List Token}
      (nonempty : run ≠ []) (digits : ∀ character ∈ run, InNumeral character)
      (reads : Binary64.read? run = some value) (ends : EndsRun rest) (spelled : Spelled tokens rest) :
      Spelled (.numeral value :: tokens) (run ++ rest)

/-! ## Characters -/

section Characters

variable {character : Char}

/-- The characters of numerals are told apart as they are to be. -/
theorem isNumeralCharacter_iff : isNumeralCharacter character = true ↔ InNumeral character := by
  rw [isNumeralCharacter, Bool.or_eq_true, decide_eq_true_iff, InNumeral]

/-- What cannot be in a numeral is told apart too. -/
theorem isNumeralCharacter_eq_false_iff : isNumeralCharacter character = false ↔ ¬ InNumeral character := by
  rw [← isNumeralCharacter_iff, Bool.not_eq_true]

/-- A run is one when each of its characters may be in a numeral. -/
theorem all_isNumeralCharacter_iff {run : List Char} :
    run.all isNumeralCharacter = true ↔ ∀ character ∈ run, InNumeral character := by
  simp only [List.all_eq_true, isNumeralCharacter_iff]

/-- Every sign is known, and no other character is taken for one. -/
theorem ofSign?_eq_some_iff {token : Token} :
    Token.ofSign? character = some token ↔ (character, token) ∈ signs := by
  constructor
  · intro isSign
    unfold Token.ofSign? at isSign
    split at isSign <;> cases isSign <;> simp [signs]
  · intro among
    have all : ∀ sign ∈ signs, Token.ofSign? sign.1 = some sign.2 := by
      simp only [signs, List.forall_mem_cons]
      exact ⟨rfl, rfl, rfl, rfl, rfl, rfl, rfl, nofun⟩
    exact all _ among

/-- No blank is in a numeral. -/
theorem isNumeralCharacter_of_isBlank (blank : Text.isBlank character = true) :
    isNumeralCharacter character = false := by
  have never : Grammar.blanks.any isNumeralCharacter = false := by decide
  exact List.any_eq_false.mp never character (Grammar.mem_blanks blank) |> Bool.eq_false_iff.mpr

/-- No blank is a sign. -/
theorem ofSign?_of_isBlank (blank : Text.isBlank character = true) : Token.ofSign? character = none := by
  have never : Grammar.blanks.all (fun blank => (Token.ofSign? blank).isNone) = true := by decide
  exact Option.isNone_iff_eq_none.mp (List.all_eq_true.mp never character (Grammar.mem_blanks blank))

/-- No sign is in a numeral. -/
theorem isNumeralCharacter_of_sign {token : Token} (isSign : Token.ofSign? character = some token) :
    isNumeralCharacter character = false := by
  unfold Token.ofSign? at isSign
  split at isSign <;> first | rfl | cases isSign

end Characters

/-! ## Tokens -/

section Tokens

variable {character : Char} {run rest text : List Char} {held tokens : List Token}

/-- The token that a run of digits and points becomes when it ends, if it is not empty. -/
def heldBack (run : List Char) : Except ExpressionError (List Token) :=
  if run.isEmpty then .ok [] else (ofRun run).map fun token => [token]

/-- Nothing is held back without a run, and of a run its number. -/
theorem heldBack_eq_ok_iff : heldBack run = .ok held ↔
    run = [] ∧ held = [] ∨
      run ≠ [] ∧ ∃ value, Binary64.read? run = some value ∧ held = [.numeral value] := by
  cases run with
  | nil => simp [heldBack, eq_comm]
  | cons first others =>
      simp only [heldBack, List.isEmpty_cons, Bool.false_eq_true, if_false, ofRun, reduceCtorEq, false_and,
        false_or, ne_eq, not_false_eq_true, true_and]
      cases Binary64.read? (first :: others) <;> simp [Except.map, eq_comm]

/-- Digits and points are added to the run. -/
theorem tokensAfter_append (digits : rest.all isNumeralCharacter = true) :
    tokensAfter run (rest ++ text) = tokensAfter (run ++ rest) text := by
  induction rest generalizing run with
  | nil => simp
  | cons character rest inductionHypothesis =>
      simp only [List.all_cons, Bool.and_eq_true] at digits
      simp [tokensAfter, digits.1, inductionHypothesis digits.2]

/-- What a character outside of numerals adds to the tokens: nothing when it is blank, or a sign. -/
def ownTokens (character : Char) : Except ExpressionError (List Token) :=
  if Text.isBlank character then .ok []
  else
    match Token.ofSign? character with
    | some token => .ok [token]
    | none => .error (.unexpectedCharacter character)

/-- A character that is in no numeral ends the run and then stands for itself. -/
theorem tokensAfter_cons (ordinary : isNumeralCharacter character = false) :
    tokensAfter run (character :: rest) = do
      let held ← heldBack run
      let added ← ownTokens character
      return held ++ (added ++ (← tokensAfter [] rest)) := by
  rw [tokensAfter, if_neg (Bool.eq_false_iff.mp ordinary), ownTokens]
  by_cases blank : Text.isBlank character = true
  · cases run <;> simp only [heldBack, blank] <;> rfl
  · cases Token.ofSign? character <;> cases run <;> simp only [heldBack, blank] <;> rfl

/-- That a character by itself adds some tokens: none when it is blank, or a sign. -/
def StandsFor (character : Char) (added : List Token) : Prop :=
  Text.isBlank character = true ∧ added = [] ∨
    ∃ token, Token.ofSign? character = some token ∧ added = [token]

/-- What a character adds to the tokens is what it stands for. -/
theorem ownTokens_eq_ok_iff {added : List Token} :
    ownTokens character = .ok added ↔ StandsFor character added := by
  rw [ownTokens, StandsFor]
  by_cases blank : Text.isBlank character = true
  · simp [blank, ofSign?_of_isBlank blank, eq_comm]
  · cases Token.ofSign? character <;> simp [blank, eq_comm]

/-- The tokens of a text with a character in no numeral are the number before it, what it stands for, and the
tokens behind it. -/
theorem tokensAfter_cons_eq_ok_iff (ordinary : isNumeralCharacter character = false) :
    tokensAfter run (character :: rest) = .ok tokens ↔
      ∃ held added following, heldBack run = .ok held ∧ StandsFor character added ∧
        tokensAfter [] rest = .ok following ∧ tokens = held ++ (added ++ following) := by
  simp [tokensAfter_cons ordinary, bind_eq_ok_iff, ownTokens_eq_ok_iff, pure, Except.pure, @eq_comm _ tokens]

/-- The tokens after a run begin with its own. -/
theorem tokensAfter_of_held (holds : heldBack run = .ok held) (ends : EndsRun text)
    (read : tokensAfter [] text = .ok tokens) : tokensAfter run text = .ok (held ++ tokens) := by
  cases text with
  | nil =>
      cases read
      rw [List.append_nil, ← holds]
      rfl
  | cons character rest =>
      have ordinary := isNumeralCharacter_eq_false_iff.mpr (ends character rfl)
      obtain ⟨nothing, own, following, none, stands, reads, rfl⟩ :=
        (tokensAfter_cons_eq_ok_iff ordinary).mp read
      cases none
      exact (tokensAfter_cons_eq_ok_iff ordinary).mpr
        ⟨held, own, following, holds, stands, reads, rfl⟩

/-- A spelled list of tokens is what its text is read as. -/
theorem tokens_of_spelled (spelled : Spelled tokens text) : Arithmetic.tokens text = .ok tokens := by
  induction spelled with
  | nil => rfl
  | blank white spelled inductionHypothesis =>
      have isBlank := Grammar.isBlank_of_mem white
      exact (tokensAfter_cons_eq_ok_iff (isNumeralCharacter_of_isBlank isBlank)).mpr
        ⟨[], [], _, rfl, .inl ⟨isBlank, rfl⟩, inductionHypothesis, rfl⟩
  | sign among spelled inductionHypothesis =>
      have isSign := ofSign?_eq_some_iff.mpr among
      exact (tokensAfter_cons_eq_ok_iff (isNumeralCharacter_of_sign isSign)).mpr
        ⟨[], [_], _, rfl, .inr ⟨_, isSign, rfl⟩, inductionHypothesis, rfl⟩
  | numeral nonempty digits reads ends spelled inductionHypothesis =>
      rw [Arithmetic.tokens, tokensAfter_append (all_isNumeralCharacter_iff.mpr digits)]
      exact tokensAfter_of_held (heldBack_eq_ok_iff.mpr (.inr ⟨nonempty, _, reads, rfl⟩)) ends
        inductionHypothesis

/-- A run that is held back spells its token in front of a text that ends it. -/
theorem Spelled.after_run (spelled : Spelled tokens text) (ends : EndsRun text)
    (digits : run.all isNumeralCharacter = true) (holds : heldBack run = .ok held) :
    Spelled (held ++ tokens) (run ++ text) := by
  rcases heldBack_eq_ok_iff.mp holds with ⟨rfl, rfl⟩ | ⟨nonempty, value, reads, rfl⟩
  · exact spelled
  · exact .numeral nonempty (all_isNumeralCharacter_iff.mp digits) reads ends spelled

/-- What a character stands for by itself is spelled with it in front. -/
theorem Spelled.after_character (spelled : Spelled tokens text) {own : List Token}
    (stands : StandsFor character own) : Spelled (own ++ tokens) (character :: text) := by
  rcases stands with ⟨isBlank, rfl⟩ | ⟨token, isSign, rfl⟩
  · exact .blank (Grammar.mem_blanks isBlank) spelled
  · exact .sign (ofSign?_eq_some_iff.mp isSign) spelled

/-- Whatever a text is read as, it spells. -/
theorem spelled_of_tokensAfter (digits : run.all isNumeralCharacter = true)
    (read : tokensAfter run text = .ok tokens) : Spelled tokens (run ++ text) := by
  -- A digit or a point goes into the run; every other character ends the run and stands for itself.
  induction text generalizing run tokens with
  | nil => simpa using Spelled.nil.after_run (by simp [EndsRun]) digits read
  | cons character rest inductionHypothesis =>
      cases numeral : isNumeralCharacter character with
      | true =>
          simp only [tokensAfter, numeral, if_true] at read
          simpa using inductionHypothesis (by simp [List.all_append, digits, numeral]) read
      | false =>
          obtain ⟨held, own, following, holds, stands, reads, rfl⟩ :=
            (tokensAfter_cons_eq_ok_iff numeral).mp read
          have spelled := (@inductionHypothesis [] _ rfl reads).after_character stands
          refine spelled.after_run ?_ digits holds
          rintro _ ⟨⟩
          exact isNumeralCharacter_eq_false_iff.mp numeral

/-- A text is divided into the tokens that it spells. -/
theorem tokens_eq_ok_iff : Arithmetic.tokens text = .ok tokens ↔ Spelled tokens text :=
  ⟨@spelled_of_tokensAfter [] text tokens rfl, tokens_of_spelled⟩

end Tokens

/-! ## Values -/

section Values

variable {text : List Char} {value : Float}

/-- That a text spells a formula of a value, no numeral of which is nested too deeply. -/
def Denotes (text : List Char) (value : Float) : Prop :=
  ∃ formula : Formula Float .sum,
    Spelled formula.tokens text ∧ formula.depth < maximumNesting ∧ formula.value id = value

/-- A text is read as the trees of the formulas whose tokens it spells. -/
theorem ofText_eq_ok_iff {tree : Tree} : ofText text = .ok tree ↔
    ∃ tokens, Spelled tokens text ∧ Derives .sum maximumNesting tokens tree := by
  simp only [ofText, bind_eq_ok_iff, tokens_eq_ok_iff, ofTokens_eq_ok_iff]

/-- A text has the value that it denotes. -/
theorem evaluate_eq_ok_iff : evaluate text = .ok value ↔ Denotes text value := by
  have valued : evaluate text = .ok value ↔ ∃ tree, ofText text = .ok tree ∧ tree.value = value := by
    rw [evaluate]
    cases ofText text <;> simp [Except.map]
  rw [valued]
  constructor
  · rintro ⟨tree, read, rfl⟩
    obtain ⟨tokens, spelled, formula, rfl, rfl, shallow⟩ := ofText_eq_ok_iff.mp read
    exact ⟨formula, spelled, shallow, formula.value_tree.symm⟩
  · rintro ⟨formula, spelled, shallow, rfl⟩
    exact ⟨formula.tree, ofText_eq_ok_iff.mpr ⟨_, spelled, formula, rfl, rfl, shallow⟩,
      formula.value_tree⟩

/-- A text evaluates to the value of the formula it spells, each numeral of which is under fewer than 256 signs
and parentheses, and is refused when it spells none. -/
theorem evaluate_iff_spells_formula (text : List Char) :
    (∀ value, evaluate text = .ok value ↔
      ∃ formula : Formula Float .sum,
        Spelled formula.tokens text ∧ formula.depth < 256 ∧ formula.value id = value) ∧
    ((∃ error, evaluate text = .error error) ↔
      ¬ ∃ formula : Formula Float .sum, Spelled formula.tokens text ∧ formula.depth < 256) := by
  refine ⟨fun value => evaluate_eq_ok_iff, ?_, ?_⟩
  · rintro ⟨error, refused⟩ ⟨formula, spelled, shallow⟩
    rw [evaluate_eq_ok_iff.mpr ⟨formula, spelled, shallow, rfl⟩] at refused
    cases refused
  · intro none
    cases evaluated : evaluate text with
    | error error => exact ⟨error, rfl⟩
    | ok value =>
        obtain ⟨formula, spelled, shallow, _⟩ := evaluate_eq_ok_iff.mp evaluated
        exact absurd ⟨formula, spelled, shallow⟩ none

/-- Every operation has its own value, products come before sums, and equal ones from left to right; a sign
without its operand is refused. -/
theorem evaluate_seven_less_rest :
    (evaluate "7 - 4 % 3".toList = .ok 6 ∧
      ∃ formula : Formula Float .sum,
        Spelled formula.tokens "7 - 4 % 3".toList ∧ formula.depth < 256 ∧ formula.value id = 6) ∧
    (evaluate "-(7 - 4 % 3) * 1.5 / 2 + .5".toList = .ok (-4) ∧
      ∃ formula : Formula Float .sum,
        Spelled formula.tokens "-(7 - 4 % 3) * 1.5 / 2 + .5".toList ∧ formula.depth < 256 ∧
          formula.value id = -4) ∧
    (evaluate "7 - % 3".toList = .error (.unexpectedToken "%") ∧
      ¬ ∃ formula : Formula Float .sum, Spelled formula.tokens "7 - % 3".toList ∧ formula.depth < 256) := by
  have six : evaluate "7 - 4 % 3".toList = .ok 6 := by rfl
  have minusFour : evaluate "-(7 - 4 % 3) * 1.5 / 2 + .5".toList = .ok (-4) := by decide +kernel
  have refused : evaluate "7 - % 3".toList = .error (.unexpectedToken "%") := by rfl
  exact ⟨⟨six, ((evaluate_iff_spells_formula _).1 6).mp six⟩,
    ⟨minusFour, ((evaluate_iff_spells_formula _).1 (-4)).mp minusFour⟩,
    ⟨refused, (evaluate_iff_spells_formula _).2.mp ⟨_, refused⟩⟩⟩

end Values

end Orchestration.Arithmetic
