import Orchestration.Expression.Substitution
import Orchestration.Proofs.Arithmetic
import Orchestration.Proofs.Printing

/-!
# Formulas over variables

A formula may have dotted paths among its leaves. Its text is cut at its paths and nowhere else, and every
path becomes the text of the number it leads to. The outcome spells the formula with these numbers at its
leaves, each under one more sign when it is negative, as long as every one of them is written without an
exponent. The letter of an exponent is no arithmetic character, so a single such number leaves the whole
formula unevaluated.
-/

namespace Orchestration.Expression

open Arithmetic (Formula Token Rank Spelled EndsRun isNumeralCharacter)

/-- Names of ASCII letters, digits and underscores, joined by points. The first one does not begin with a
digit. -/
structure Reference where
  first : List Char
  others : List (List Char)
  words : ∀ name ∈ first :: others, name ≠ [] ∧ name.all Text.isPlainWord = true
  begins : first.head?.any startsReference = true

def Reference.text (path : Reference) : List Char :=
  Text.joinWith ['.'] (path.first :: path.others)

/-- An operand of a formula: a run of digits and points that is read as a double, or a path. -/
inductive Leaf where
  | numeral (run : List Char) (value : Float) (digits : run.all isNumeralCharacter = true)
      (reads : Binary64.read? run = some value)
  | path (path : Reference)

namespace Leaf

def text : Leaf → List Char
  | .numeral run _ _ _ => run
  | .path names => names.text

variable (numbers : Reference → Number)

/-- The value of a leaf when paths stand for numbers. -/
def value : Leaf → Float
  | .numeral _ value _ _ => value
  | .path names => (numbers names).toFloat

/-- The text of a leaf when paths are replaced by numbers. -/
def replaced : Leaf → List Char
  | .numeral run _ _ _ => run
  | .path names => (numbers names).json

end Leaf

/-- A leaf or a sign of a formula. -/
inductive Symbol where
  | leaf (leaf : Leaf)
  | sign (token : Token)

/-- The text of a symbol, given how leaves are spelled. -/
def Symbol.text (spelling : Leaf → List Char) : Symbol → List Char
  | .leaf operand => spelling operand
  | .sign token => token.describe.toList

/-- The symbols of a formula from left to right. -/
def symbols {rank : Rank} (formula : Formula Leaf rank) : List Symbol :=
  formula.symbols (fun operand => [.leaf operand]) .sign

/-- That a text is a formula with blanks at will around its leaves and signs. -/
def Prints (formula : Formula Leaf .sum) (text : List Char) : Prop :=
  Grammar.Spaced ((symbols formula).map (Symbol.text Leaf.text)) text

/-! ## Characters -/

section Characters

variable {character : Char}

/-- The characters that may stand between two leaves: blanks and signs. -/
def separators : List Char :=
  Grammar.blanks ++ ['+', '-', '*', '/', '%', '(', ')']

/-- Blanks separate leaves. -/
theorem mem_separators_of_isBlank (blank : Text.isBlank character = true) : character ∈ separators :=
  List.mem_append_left _ (Grammar.mem_blanks blank)

/-- Signs separate leaves. -/
theorem mem_separators_of_sign {token : Token} (isSign : Token.ofSign? character = some token) :
    character ∈ separators := by
  refine List.mem_append_right _ ?_
  unfold Token.ofSign? at isSign
  split at isSign <;> simp_all

/-- A separator is part of neither numerals nor names, and it is arithmetic. -/
theorem separator_spec (separator : character ∈ separators) :
    isNumeralCharacter character = false ∧ Text.isWord character = false ∧
      startsReference character = false ∧ isArithmeticCharacter character = true := by
  have all : separators.all (fun separator => !isNumeralCharacter separator && !Text.isWord separator &&
      !startsReference separator && isArithmeticCharacter separator) = true := by decide +kernel
  simpa [and_assoc] using List.all_eq_true.mp all character separator

/-- No path starts with a character of a numeral. -/
theorem startsReference_of_numeral (numeral : isNumeralCharacter character = true) :
    startsReference character = false := by
  rcases Bool.or_eq_true_iff.mp numeral with digit | point
  · refine Bool.eq_false_iff.mpr fun starts => ?_
    rcases Bool.or_eq_true_iff.mp starts with letter | underscore
    · have most := (Text.isDigit_iff.mp digit).2
      have code := Text.toNat_of_isAlpha letter
      omega
    · rw [of_decide_eq_true underscore] at digit
      cases digit
  · rw [of_decide_eq_true point]
    rfl

/-- Numerals are made of characters that arithmetic is made of. -/
theorem isArithmeticCharacter_of_numeral (numeral : isNumeralCharacter character = true) :
    isArithmeticCharacter character = true := by
  rcases Bool.or_eq_true_iff.mp numeral with digit | point
  · simp [isArithmeticCharacter, Text.isDecimalDigit_of_isDigit digit]
  · rw [of_decide_eq_true point]
    rfl

/-- That no leaf goes on at the front of a text. -/
def Breaks (text : List Char) : Prop :=
  ∀ character ∈ text.head?, character ∈ separators

/-- Where no leaf goes on, no numeral does. -/
theorem Breaks.endsRun {text : List Char} (breaks : Breaks text) : EndsRun text := fun character front =>
  Arithmetic.isNumeralCharacter_eq_false_iff.mp (separator_spec (breaks character front)).1

end Characters

/-! ## Symbols -/

section Symbols

variable {spelling : Leaf → List Char} {text : List Char} {rank : Rank}

def Symbol.IsSign : Symbol → Prop
  | .leaf _ => False
  | .sign _ => True

/-- That a token is spelled by a single character. -/
def IsSingle (token : Token) : Prop :=
  ∃ character, Token.ofSign? character = some token ∧ token.describe.toList = [character]

/-- The signs of operations are single characters. -/
theorem isSingle_sign (operation : Arithmetic.Operation) : IsSingle operation.sign := by
  cases operation
  · exact .intro '+' ⟨rfl, rfl⟩
  · exact .intro '-' ⟨rfl, rfl⟩
  · exact .intro '*' ⟨rfl, rfl⟩
  · exact .intro '/' ⟨rfl, rfl⟩
  · exact .intro '%' ⟨rfl, rfl⟩

/-- What can be said of the symbols of a formula in a row: their signs are single characters, and of two
neighbours at least one is a sign. -/
structure Arranged (row : List Symbol) : Prop where
  single : ∀ token, .sign token ∈ row → IsSingle token
  apart : row.IsChain fun left right => left.IsSign ∨ right.IsSign

/-- A row that is arranged stays so without its first symbol. -/
theorem Arranged.tail {symbol : Symbol} {row : List Symbol} (arranged : Arranged (symbol :: row)) :
    Arranged row :=
  ⟨fun token within => arranged.single token (List.mem_cons_of_mem _ within), arranged.apart.tail⟩

/-- A leaf is followed by a sign if by anything. -/
theorem Arranged.sign_of_leaf {leaf : Leaf} {row : List Symbol} (arranged : Arranged (.leaf leaf :: row)) :
    ∀ symbol ∈ row.head?, symbol.IsSign := by
  intro symbol next
  cases row with
  | nil => cases next
  | cons other row =>
      cases next
      exact (List.isChain_cons_cons.mp arranged.apart).1.resolve_left id

/-- Two rows with a sign between them. -/
theorem Arranged.join {front back : List Symbol} {token : Token} (arrangedFront : Arranged front)
    (isSingle : IsSingle token) (arrangedBack : Arranged back) :
    Arranged (front ++ .sign token :: back) := by
  refine ⟨fun other within => ?_, ?_⟩
  · simp only [List.mem_append, List.mem_cons, Symbol.sign.injEq] at within
    rcases within with within | rfl | within
    · exact arrangedFront.single other within
    · exact isSingle
    · exact arrangedBack.single other within
  · rw [List.isChain_append, List.isChain_cons]
    exact ⟨arrangedFront.apart, ⟨fun _ _ => .inl trivial, arrangedBack.apart⟩, by simp [Symbol.IsSign]⟩

/-- Nothing is arranged. -/
theorem arranged_nil : Arranged [] := ⟨by simp, .nil⟩

/-- The symbols of a formula are arranged: whatever stands between two leaves has a sign in it. -/
theorem arranged_symbols (formula : Formula Leaf rank) : Arranged (symbols formula) := by
  induction formula with
  | leaf operand => exact ⟨by simp [symbols, Formula.symbols], .singleton _⟩
  | negated inner inductionHypothesis => exact arranged_nil.join (.intro '-' ⟨rfl, rfl⟩) inductionHypothesis
  | affirmed inner inductionHypothesis => exact arranged_nil.join (.intro '+' ⟨rfl, rfl⟩) inductionHypothesis
  | group inner inductionHypothesis =>
      exact arranged_nil.join (.intro '(' ⟨rfl, rfl⟩)
        (inductionHypothesis.join (.intro ')' ⟨rfl, rfl⟩) arranged_nil)
  | factor signed inductionHypothesis => exact inductionHypothesis
  | scaled operation multiplicative front last frontHypothesis lastHypothesis =>
      exact frontHypothesis.join (isSingle_sign operation) lastHypothesis
  | term product inductionHypothesis => exact inductionHypothesis
  | added operation additive front last frontHypothesis lastHypothesis =>
      exact frontHypothesis.join (isSingle_sign operation) lastHypothesis

/-- The leaves among the symbols are those of the formula. -/
theorem leaf_mem_symbols_iff {operand : Leaf} (formula : Formula Leaf rank) :
    .leaf operand ∈ symbols formula ↔ operand ∈ formula.leaves := by
  induction formula <;> simp_all [symbols, Formula.symbols, Formula.leaves]

/-- Blanks break, and so does a sign after them. -/
theorem breaks_of_spaced {row : List Symbol} (arranged : Arranged row)
    (signs : ∀ symbol ∈ row.head?, symbol.IsSign)
    (spaced : Grammar.Spaced (row.map (Symbol.text spelling)) text) : Breaks text := by
  cases row with
  | nil =>
      intro character front
      exact mem_separators_of_isBlank
        (List.all_eq_true.mp spaced.blank character (List.mem_of_mem_head? front))
  | cons symbol row =>
      obtain ⟨before, after, rfl, blank, -⟩ := spaced.uncons
      cases before with
      | cons character before =>
          rintro _ ⟨⟩
          exact mem_separators_of_isBlank (List.all_eq_true.mp blank character List.mem_cons_self)
      | nil =>
          cases symbol with
          | leaf operand => exact (signs _ rfl).elim
          | sign token =>
              obtain ⟨character, isSign, describes⟩ := arranged.single token List.mem_cons_self
              rw [List.nil_append, Symbol.text, describes]
              rintro _ ⟨⟩
              exact mem_separators_of_sign isSign

end Symbols

/-! ## Substituting -/

section Substituting

variable {bag : Bag} {rest : List Char}

/-- A character that starts no path is kept as it is. -/
theorem piecesFrom_stays {character : Char} {afterWord : Bool}
    (stays : ¬ (startsReference character && !afterWord) = true) (rest : List Char) :
    piecesFrom (.outside afterWord) (character :: rest) =
      .plain character :: piecesFrom (.outside (Text.isWord character)) rest :=
  if_neg stays

/-- A letter or an underscore that follows no word starts a path. -/
theorem piecesFrom_starts {character : Char} (starts : startsReference character = true) (rest : List Char) :
    piecesFrom (.outside false) (character :: rest) = piecesFrom (.inside [character]) rest :=
  if_pos (Bool.and_eq_true_iff.mpr ⟨starts, rfl⟩)

/-- A path goes on with the characters of words. -/
theorem piecesFrom_letter {character : Char} (plain : Text.isPlainWord character = true)
    (path rest : List Char) :
    piecesFrom (.inside path) (character :: rest) = piecesFrom (.inside (path ++ [character])) rest :=
  if_pos plain

/-- A path goes on with a point that a word follows. -/
theorem piecesFrom_point {character : Char} (plain : Text.isPlainWord character = true)
    (path rest : List Char) :
    piecesFrom (.inside path) ('.' :: character :: rest) =
      piecesFrom (.inside (path ++ ['.', character])) rest :=
  if_pos plain

/-- The text that comes of the rest of an expression, given where the search for paths stands. -/
def substituteFrom (bag : Bag) (cursor : Cursor) (text : List Char) : List Char :=
  (piecesFrom cursor text).flatMap (Piece.substitute bag)

/-- Whether the search stands after a word character once it has passed over a text. -/
def afterText (afterWord : Bool) (text : List Char) : Bool :=
  text.foldl (fun _ character => Text.isWord character) afterWord

/-- Blanks are no words. -/
theorem afterText_blank {blanks : List Char} (blank : Text.isBlankText blanks = true) :
    afterText false blanks = false := by
  induction blanks with
  | nil => rfl
  | cons character blanks inductionHypothesis =>
      simp only [Text.isBlankText, List.all_cons, Bool.and_eq_true] at blank
      have noWord := (separator_spec (mem_separators_of_isBlank blank.1)).2.1
      rw [afterText, List.foldl_cons, noWord]
      exact inductionHypothesis blank.2

/-- What no path can begin with stays as it is. -/
theorem substituteFrom_append {front : List Char}
    (plain : ∀ character ∈ front, startsReference character = false) (afterWord : Bool) :
    substituteFrom bag (.outside afterWord) (front ++ rest) =
      front ++ substituteFrom bag (.outside (afterText afterWord front)) rest := by
  induction front generalizing afterWord with
  | nil => rfl
  | cons character front inductionHypothesis =>
      obtain ⟨first, others⟩ := List.forall_mem_cons.mp plain
      have further := inductionHypothesis others (Text.isWord character)
      rw [substituteFrom] at further
      rw [List.cons_append, substituteFrom, piecesFrom_stays (by simp [first]), List.flatMap_cons, further]
      rfl

/-- A path takes in a whole word. -/
theorem piecesFrom_word {path word : List Char} (plain : word.all Text.isPlainWord = true) :
    piecesFrom (.inside path) (word ++ rest) = piecesFrom (.inside (path ++ word)) rest := by
  induction word generalizing path with
  | nil => simp
  | cons character word inductionHypothesis =>
      simp only [List.all_cons, Bool.and_eq_true] at plain
      rw [List.cons_append, piecesFrom_letter plain.1, inductionHypothesis plain.2, List.append_assoc]
      rfl

/-- A further name is attached by a point. -/
theorem piecesFrom_name {path word : List Char} (nonempty : word ≠ [])
    (plain : word.all Text.isPlainWord = true) :
    piecesFrom (.inside path) ('.' :: (word ++ rest)) =
      piecesFrom (.inside (path ++ '.' :: word)) rest := by
  obtain ⟨character, others, rfl⟩ := List.exists_cons_of_ne_nil nonempty
  simp only [List.all_cons, Bool.and_eq_true] at plain
  rw [List.cons_append, piecesFrom_point plain.1, piecesFrom_word plain.2, List.append_assoc]
  rfl

/-- Names are joined by points in front of all but the first. -/
theorem joinWith_eq (word : List Char) (names : List (List Char)) :
    Text.joinWith ['.'] (word :: names) = word ++ names.flatMap ('.' :: ·) := by
  induction names generalizing word with
  | nil => simp [Text.joinWith]
  | cons name names inductionHypothesis => simp [Text.joinWith, inductionHypothesis name]

/-- A path takes in all its names. -/
theorem piecesFrom_names {path word : List Char} {names : List (List Char)}
    (words : ∀ name ∈ names, name ≠ [] ∧ name.all Text.isPlainWord = true) :
    piecesFrom (.inside (path ++ word)) ((names.flatMap ('.' :: ·)) ++ rest) =
      piecesFrom (.inside (path ++ Text.joinWith ['.'] (word :: names))) rest := by
  induction names generalizing path word with
  | nil => simp [Text.joinWith]
  | cons name names inductionHypothesis =>
      obtain ⟨nonempty, plain⟩ := words name List.mem_cons_self
      have further := @inductionHypothesis (path ++ word ++ ['.']) name fun other within =>
        words other (List.mem_cons_of_mem _ within)
      rw [List.flatMap_cons, List.cons_append, List.cons_append, List.append_assoc,
        piecesFrom_name nonempty plain]
      simpa [Text.joinWith] using further

/-- A path ends where a text breaks. -/
theorem piecesFrom_inside {path : List Char} (breaks : Breaks rest) :
    piecesFrom (.inside path) rest = .reference path :: piecesFrom (.outside false) rest := by
  cases rest with
  | nil => rfl
  | cons character rest =>
      obtain ⟨numeral, noWord, starts, -⟩ := separator_spec (breaks character rfl)
      have noPlain : Text.isPlainWord character = false :=
        Bool.eq_false_iff.mpr fun plain => by simp [Text.isWord_of_isPlainWord plain] at noWord
      have noPoint : character ≠ '.' := by
        rintro rfl
        cases numeral
      simp [piecesFrom, noPlain, noPoint, starts]

/-- A whole path becomes what it leads to. -/
theorem substituteFrom_path (path : Reference) (breaks : Breaks rest) :
    substituteFrom bag (.outside false) (path.text ++ rest) =
      (Piece.reference path.text).substitute bag ++ substituteFrom bag (.outside false) rest := by
  have words := path.words
  have begins := path.begins
  obtain ⟨nonempty, plain⟩ := words path.first List.mem_cons_self
  obtain ⟨character, others, cons⟩ := List.exists_cons_of_ne_nil nonempty
  simp only [cons, List.head?_cons, Option.any_some] at begins
  simp only [cons, List.all_cons, Bool.and_eq_true] at plain
  have pieces : piecesFrom (.outside false) (path.text ++ rest) =
      .reference path.text :: piecesFrom (.outside false) rest := by
    calc piecesFrom (.outside false) (path.text ++ rest)
        = piecesFrom (.inside [character])
            (others ++ (path.others.flatMap ('.' :: ·) ++ rest)) := by
          rw [← piecesFrom_starts begins, Reference.text, joinWith_eq, cons, List.append_assoc]
          rfl
      _ = piecesFrom (.inside ([] ++ path.first)) (path.others.flatMap ('.' :: ·) ++ rest) := by
          rw [piecesFrom_word plain.2, cons]
          rfl
      _ = piecesFrom (.inside path.text) rest :=
          piecesFrom_names fun name within => words name (List.mem_cons_of_mem _ within)
      _ = .reference path.text :: piecesFrom (.outside false) rest := piecesFrom_inside breaks
  rw [substituteFrom, pieces, List.flatMap_cons]
  rfl

variable {numbers : Reference → Number}

/-- That every path in a row leads to its number. -/
def Resolves (bag : Bag) (numbers : Reference → Number) (row : List Symbol) : Prop :=
  ∀ path, .leaf (.path path) ∈ row → bag.get? (String.ofList path.text) = some (.number (numbers path))

/-- The paths of a shorter row resolve as those of the longer one do. -/
theorem Resolves.tail {symbol : Symbol} {row : List Symbol} (resolves : Resolves bag numbers (symbol :: row)) :
    Resolves bag numbers row :=
  fun path within => resolves path (List.mem_cons_of_mem _ within)

/-- One symbol is replaced by its number or stays as it is. A path has to be met outside of a word, so right
after the digits of a numeral only a sign may come. -/
theorem substituteFrom_symbol {symbol : Symbol} {row : List Symbol} {afterWord : Bool}
    (arranged : Arranged (symbol :: row)) (resolves : Resolves bag numbers (symbol :: row))
    (ready : afterWord = true → symbol.IsSign)
    (spaced : Grammar.Spaced (row.map (Symbol.text Leaf.text)) rest) :
    ∃ afterSymbol : Bool, (afterSymbol = true → ∀ next ∈ row.head?, next.IsSign) ∧
      substituteFrom bag (.outside afterWord) (symbol.text Leaf.text ++ rest) =
        symbol.text (Leaf.replaced numbers) ++ substituteFrom bag (.outside afterSymbol) rest := by
  cases symbol with
  | sign token =>
      obtain ⟨character, isSign, describes⟩ := arranged.single token List.mem_cons_self
      obtain ⟨-, noWord, starts, -⟩ := separator_spec (mem_separators_of_sign isSign)
      refine ⟨false, by simp, ?_⟩
      rw [Symbol.text, Symbol.text, describes, substituteFrom_append (by simpa using starts), afterText,
        List.foldl_cons, noWord]
      rfl
  | leaf operand =>
      cases operand with
      | numeral run value digits reads =>
          exact ⟨_, fun _ => arranged.sign_of_leaf, substituteFrom_append (fun character within =>
            startsReference_of_numeral (List.all_eq_true.mp digits character within)) afterWord⟩
      | path path =>
          have breaks := breaks_of_spaced arranged.tail arranged.sign_of_leaf spaced
          have outside : afterWord = false := Bool.eq_false_iff.mpr ready
          have replaced : (Piece.reference path.text).substitute bag = (numbers path).json := by
            rw [Piece.substitute, resolves path List.mem_cons_self]
            exact String.toList_ofList
          refine ⟨false, by simp, ?_⟩
          rw [outside, Symbol.text, Leaf.text, substituteFrom_path path breaks, replaced]
          rfl

/-- Substituting changes the leaves of a row and nothing around them. -/
theorem spaced_substituteFrom {row : List Symbol} {text : List Char} {afterWord : Bool}
    (arranged : Arranged row) (resolves : Resolves bag numbers row)
    (ready : afterWord = true → ∀ symbol ∈ row.head?, symbol.IsSign)
    (spaced : Grammar.Spaced (row.map (Symbol.text Leaf.text)) text) :
    Grammar.Spaced (row.map (Symbol.text (Leaf.replaced numbers)))
      (substituteFrom bag (.outside afterWord) text) := by
  have plain : ∀ {blanks : List Char}, Text.isBlankText blanks = true →
      ∀ character ∈ blanks, startsReference character = false := fun blank character within =>
    (separator_spec (mem_separators_of_isBlank (List.all_eq_true.mp blank character within))).2.2.1
  induction row generalizing text afterWord with
  | nil =>
      have same := @substituteFrom_append bag [] text (plain spaced.blank) afterWord
      rw [List.append_nil] at same
      have ends : text ++ substituteFrom bag (.outside (afterText afterWord text)) [] = text :=
        List.append_nil text
      rw [same, ends]
      exact spaced
  | cons symbol row inductionHypothesis =>
      obtain ⟨before, after, rfl, blank, spacedRest⟩ := spaced.uncons
      have readyThen : afterText afterWord before = true → symbol.IsSign := by
        intro inWord
        cases afterWord with
        | false => simp [afterText_blank blank] at inWord
        | true => exact ready rfl symbol rfl
      obtain ⟨afterSymbol, readyRest, replaced⟩ :=
        substituteFrom_symbol arranged resolves readyThen spacedRest
      rw [substituteFrom_append (plain blank), replaced]
      exact .cons blank (inductionHypothesis arranged.tail resolves.tail readyRest spacedRest)

end Substituting

/-! ## Numbers -/

section Numbers

variable {number : Number} {rest : List Char} {tokens : List Token}

/-- That a number is written without an exponent. -/
def IsPlain (number : Number) : Prop :=
  'e' ∉ number.json

instance (number : Number) : Decidable (IsPlain number) :=
  inferInstanceAs (Decidable ('e' ∉ number.json))

/-- A number as its text reads: a numeral, under a sign when it is negative. -/
def formulaOf (number : Number) : Formula Float .signed :=
  let (negative, run) := Binary64.takeSign number.json
  let magnitude := Formula.leaf ((Binary64.read? run).getD 0)
  if negative then .negated magnitude else magnitude

/-- A number comes under one sign at most. -/
theorem depth_formulaOf (number : Number) : (formulaOf number).depth ≤ 1 := by
  unfold formulaOf
  dsimp only
  split <;> simp [Formula.depth]

/-- A run of digits and points has no sign. -/
theorem takeSign_of_numeral {run : List Char} (digits : run.all isNumeralCharacter = true) :
    Binary64.takeSign run = (false, run) := by
  cases run with
  | nil => rfl
  | cons character run =>
      simp only [List.all_cons, Bool.and_eq_true] at digits
      have notMinus : character ≠ '-' := by
        rintro rfl
        cases digits.1
      have notPlus : character ≠ '+' := by
        rintro rfl
        cases digits.1
      simp [Binary64.takeSign, notMinus, notPlus]

/-- A run that is a numeral is read as the double nearest to it. -/
theorem read?_of_readNumeral? {run : List Char} {numeral : Binary64.Numeral}
    (digits : run.all isNumeralCharacter = true) (reads : Binary64.readNumeral? run = some numeral) :
    Binary64.read? run = some (numeral.toFloat false) := by
  simp [Binary64.read?, takeSign_of_numeral digits, reads]

/-- Digits make a numeral. -/
theorem isNumeralCharacter_of_isDigit {run : List Char} (digits : run.all Char.isDigit = true) :
    run.all isNumeralCharacter = true :=
  List.all_eq_true.mpr fun character within => by
    simp [isNumeralCharacter, List.all_eq_true.mp digits character within]

/-- A numeral without the mark of an exponent is a run of digits and points. -/
theorem all_text {parts : Binary64.Parts} (isNumeral : parts.IsNumeral) (unmarked : parts.mark = []) :
    parts.text ≠ [] ∧ parts.text.all isNumeralCharacter = true := by
  obtain ⟨nonempty, digits⟩ := Binary64.Parts.all_of_isWholePart isNumeral.whole
  have whole := isNumeralCharacter_of_isDigit digits
  have fraction := isNumeralCharacter_of_isDigit isNumeral.fraction
  have point : isNumeralCharacter '.' = true := rfl
  refine ⟨by simp [Binary64.Parts.text, nonempty], ?_⟩
  rw [Binary64.Parts.text, unmarked, List.all_append, whole]
  split
  · rfl
  · simp [point, fraction, -List.all_eq_true]

/-- The mark of an exponent is in the text. -/
theorem mem_text_of_mark {parts : Binary64.Parts} {letter : Char} {rest : List Char}
    (mark : parts.mark = letter :: rest) : letter ∈ parts.text := by
  rw [Binary64.Parts.text, mark]
  split <;> simp

/-- A word is read as the double nearest to it. -/
theorem read?_toDigits {magnitude : Nat} (word : magnitude ≤ Word.count) :
    Binary64.read? (Nat.toDigits 10 magnitude) = some (Float.ofNat magnitude) := by
  rw [read?_of_readNumeral? (isNumeralCharacter_of_isDigit (Binary64.Decimal.all_toDigits _))
    (Binary64.readNumeral?_toDigits _)]
  simp [Binary64.Numeral.toFloat, Text.digitsToNat_toDigits, Binary64.ofDecimal_word word]

/-- A double that is written without an exponent has no mark of one. -/
theorem mark_of_plain {value : Float} {negative : Bool} {mantissa : Nat} {exponent : Int}
    (found : Binary64.content value = .finite negative mantissa exponent) (plain : IsPlain (.double value)) :
    (Binary64.partsOf mantissa exponent).mark = [] := by
  refine (Binary64.mark_partsOf mantissa exponent).resolve_right ?_
  rintro ⟨sign, digits, -, -, mark⟩
  have written : Number.json (.double value) = if negative then _ else _ := Binary64.text_json found
  have within := mem_text_of_mark mark
  refine plain ?_
  rw [written]
  split
  · exact List.mem_cons_of_mem _ within
  · exact within

/-- What a plain number is written as: a run of digits and points that is read as its magnitude, perhaps with
the sign minus in front of it. -/
theorem exists_run (stored : number.IsStored) (plain : IsPlain number) :
    ∃ (negative : Bool) (run : List Char) (value : Float),
      number.json = (if negative then '-' :: run else run) ∧ run ≠ [] ∧
      run.all isNumeralCharacter = true ∧ Binary64.read? run = some value ∧
      number.toFloat = if negative then -value else value := by
  cases number with
  | integer value =>
      have digits := fun magnitude =>
        isNumeralCharacter_of_isDigit (Binary64.Decimal.all_toDigits magnitude)
      obtain ⟨low, high⟩ := stored
      cases value with
      | ofNat whole =>
          refine ⟨false, _, _, rfl, Nat.toDigits_ne_nil, digits whole, read?_toDigits ?_, rfl⟩
          exact Nat.cast_le.mp high.le
      | negSucc whole =>
          refine ⟨true, _, _, rfl, Nat.toDigits_ne_nil, digits (whole + 1), read?_toDigits ?_, rfl⟩
          rw [Word.count_eq]
          simp only [Int.negSucc_eq] at low
          omega
  | double value =>
      obtain ⟨negative, mantissa, exponent, found⟩ := Binary64.isFinite_iff.mp stored
      have isNumeral := Binary64.isNumeral_partsOf (Binary64.isCanonical_of_content found)
      have same := Binary64.ofDecimal_partsOf found
      obtain ⟨nonempty, digits⟩ := all_text isNumeral (mark_of_plain found plain)
      refine ⟨negative, _, _, Binary64.text_json found, nonempty, digits,
        read?_of_readNumeral? digits isNumeral.readNumeral?_text, ?_⟩
      calc value = Binary64.ofDecimal negative (Binary64.partsOf mantissa exponent).digits
              (Binary64.partsOf mantissa exponent).scale := same.symm
        _ = _ := by cases negative <;> rfl

/-- The formula of a number is the double that its run is read as, perhaps under a sign. -/
theorem formulaOf_eq {negative : Bool} {run : List Char} {value : Float}
    (written : number.json = if negative then '-' :: run else run)
    (digits : run.all isNumeralCharacter = true) (reads : Binary64.read? run = some value) :
    formulaOf number = if negative then .negated (.leaf value) else .leaf value := by
  have sign : Binary64.takeSign number.json = (negative, run) := by
    rw [written]
    cases negative
    · exact takeSign_of_numeral digits
    · rfl
  rw [formulaOf, sign]
  simp [reads]

section Runs

variable (stored : number.IsStored) (plain : IsPlain number)
include stored plain

/-- A plain number has the value of its formula. -/
theorem value_formulaOf : (formulaOf number).value id = number.toFloat := by
  obtain ⟨negative, run, value, written, -, digits, reads, same⟩ := exists_run stored plain
  rw [same, formulaOf_eq written digits reads]
  cases negative <;> rfl

/-- A plain number spells its formula wherever a numeral can end. -/
theorem spelled_number (ends : EndsRun rest) (spelled : Spelled tokens rest) :
    Spelled ((formulaOf number).tokens ++ tokens) (number.json ++ rest) := by
  obtain ⟨negative, run, value, written, nonempty, digits, reads, -⟩ := exists_run stored plain
  have magnitude := Spelled.numeral nonempty (Arithmetic.all_isNumeralCharacter_iff.mp digits) reads ends spelled
  rw [formulaOf_eq written digits reads, written]
  cases negative with
  | false => exact magnitude
  | true => exact .sign (Arithmetic.ofSign?_eq_some_iff.mp rfl) magnitude

end Runs

end Numbers

/-! ## Evaluation -/

/-- A leaf as it reads once paths are replaced by numbers. -/
def Leaf.formula (numbers : Reference → Number) : Leaf → Formula Float .signed
  | .numeral _ value _ _ => .leaf value
  | .path names => formulaOf (numbers names)

/-- What stands for a leaf nests no deeper than one sign. -/
theorem depth_formula (numbers : Reference → Number) (operand : Leaf) :
    (operand.formula numbers).depth ≤ 1 := by
  cases operand with
  | numeral run value digits reads => exact Nat.zero_le 1
  | path names => exact depth_formulaOf (numbers names)

/-- What stands for a leaf has the value of the leaf. -/
theorem value_formula {numbers : Reference → Number} {operand : Leaf}
    (plain : ∀ path, operand = .path path → (numbers path).IsStored ∧ IsPlain (numbers path)) :
    (operand.formula numbers).value id = operand.value numbers := by
  cases operand with
  | numeral run value digits reads => rfl
  | path names => exact value_formulaOf (plain names rfl).1 (plain names rfl).2

def Symbol.tokens (numbers : Reference → Number) : Symbol → List Token
  | .leaf operand => (operand.formula numbers).tokens
  | .sign token => [token]

section Evaluation

variable {numbers : Reference → Number} {row : List Symbol} {tokens : List Token} {text : List Char}

/-- The tokens of the symbols are those of the formula with numbers in place of its paths. -/
theorem flatMap_tokens {rank : Rank} (formula : Formula Leaf rank) :
    (symbols formula).flatMap (Symbol.tokens numbers) = (formula.bind (Leaf.formula numbers)).tokens := by
  rw [Formula.tokens, Formula.symbols_bind]
  induction formula <;> simp_all [symbols, Formula.symbols, Symbol.tokens, Formula.tokens]

/-- Blanks in front of a text add no token. -/
theorem spelled_of_blanks {blanks : List Char} (blank : Text.isBlankText blanks = true)
    (spelled : Spelled tokens text) : Spelled tokens (blanks ++ text) := by
  induction blanks with
  | nil => exact spelled
  | cons character blanks inductionHypothesis =>
      simp only [Text.isBlankText, List.all_cons, Bool.and_eq_true] at blank
      exact .blank (Grammar.mem_blanks blank.1) (inductionHypothesis blank.2)

/-- That the paths of a row stand for stored numbers that are written without an exponent. -/
def ArePlain (numbers : Reference → Number) (row : List Symbol) : Prop :=
  ∀ path, .leaf (.path path) ∈ row → (numbers path).IsStored ∧ IsPlain (numbers path)

/-- A row with plain numbers for its paths spells the tokens of its symbols. -/
theorem spelled_of_spaced (arranged : Arranged row) (plain : ArePlain numbers row)
    (spaced : Grammar.Spaced (row.map (Symbol.text (Leaf.replaced numbers))) text) :
    Spelled (row.flatMap (Symbol.tokens numbers)) text := by
  induction row generalizing text with
  | nil => simpa using spelled_of_blanks spaced.blank .nil
  | cons symbol row inductionHypothesis =>
      obtain ⟨before, after, rfl, blank, spacedRest⟩ := spaced.uncons
      have spelled := inductionHypothesis arranged.tail
        (fun path within => plain path (List.mem_cons_of_mem _ within)) spacedRest
      refine spelled_of_blanks blank ?_
      rw [List.flatMap_cons]
      cases symbol with
      | sign token =>
          obtain ⟨character, isSign, describes⟩ := arranged.single token List.mem_cons_self
          rw [Symbol.text, describes]
          exact .sign (Arithmetic.ofSign?_eq_some_iff.mp isSign) spelled
      | leaf operand =>
          have ends := (breaks_of_spaced arranged.tail arranged.sign_of_leaf spacedRest).endsRun
          cases operand with
          | numeral run value digits reads =>
              refine .numeral ?_ (Arithmetic.all_isNumeralCharacter_iff.mp digits) reads ends spelled
              rintro rfl
              cases reads
          | path path =>
              obtain ⟨stored, unmarked⟩ := plain path List.mem_cons_self
              exact spelled_number stored unmarked ends spelled

/-- A text that spells tokens is made of characters that arithmetic is made of. -/
theorem isArithmeticCharacter_of_spelled (spelled : Spelled tokens text) :
    text.all isArithmeticCharacter = true := by
  induction spelled with
  | nil => rfl
  | blank white spelled inductionHypothesis =>
      have own := (separator_spec (List.mem_append_left _ white)).2.2.2
      rw [List.all_cons, own, inductionHypothesis, Bool.and_self]
  | sign among spelled inductionHypothesis =>
      have isSign := Arithmetic.ofSign?_eq_some_iff.mpr among
      have own := (separator_spec (mem_separators_of_sign isSign)).2.2.2
      rw [List.all_cons, own, inductionHypothesis, Bool.and_self]
  | numeral nonempty digits reads ends spelled inductionHypothesis =>
      rw [List.all_append, inductionHypothesis, Bool.and_true]
      exact List.all_eq_true.mpr fun character within =>
        isArithmeticCharacter_of_numeral (Arithmetic.isNumeralCharacter_iff.mpr (digits character within))

/-- A run of points alone is not read. -/
theorem any_isDigit_of_reads {run : List Char} {value : Float} (nonempty : run ≠ [])
    (digits : run.all isNumeralCharacter = true) (reads : Binary64.read? run = some value) :
    run.any Char.isDigit = true := by
  by_contra none
  have points : ∀ character ∈ run, character = '.' := by
    intro character within
    have numeral := List.all_eq_true.mp digits character within
    have noDigit := List.any_eq_false.mp (Bool.eq_false_iff.mpr none) character within
    simpa [isNumeralCharacter, noDigit] using numeral
  obtain ⟨character, rest, rfl⟩ := List.exists_cons_of_ne_nil nonempty
  obtain rfl := points character List.mem_cons_self
  have noFraction : rest.takeWhile Char.isDigit = [] := by
    cases rest with
    | nil => rfl
    | cons next rest =>
        obtain rfl := points next (by simp)
        rfl
  have notDigit : Char.isDigit '.' = false := rfl
  have lower : Char.toLower '.' = '.' := rfl
  simp [Binary64.read?, takeSign_of_numeral digits, Binary64.readNumeral?, notDigit, noFraction, lower]
    at reads

/-- A text that spells a numeral has a digit in it. -/
theorem any_isDigit_of_spelled {value : Float} (spelled : Spelled tokens text)
    (within : .numeral value ∈ tokens) : text.any Char.isDigit = true := by
  induction spelled with
  | nil => cases within
  | blank white spelled inductionHypothesis =>
      rw [List.any_cons, inductionHypothesis within, Bool.or_true]
  | sign among spelled inductionHypothesis =>
      rw [List.any_cons, inductionHypothesis, Bool.or_true]
      refine (List.mem_cons.mp within).resolve_left ?_
      rintro rfl
      simp [Arithmetic.signs] at among
  | numeral nonempty digits reads ends spelled inductionHypothesis =>
      have run := Arithmetic.all_isNumeralCharacter_iff.mpr digits
      rw [List.any_append, any_isDigit_of_reads nonempty run reads, Bool.true_or]

/-- Every formula has a numeral. -/
theorem exists_numeral {rank : Rank} (formula : Formula Float rank) :
    ∃ value, .numeral value ∈ formula.tokens := by
  induction formula <;> simp_all [Formula.tokens, Formula.symbols, exists_or]

/-- What is in a part is in the text that the parts are spaced out to. -/
theorem mem_of_spaced {parts : List (List Char)} {part : List Char} {character : Char}
    (spaced : Grammar.Spaced parts text) (among : part ∈ parts) (within : character ∈ part) :
    character ∈ text := by
  induction spaced with
  | nil => cases among
  | cons blank spaced inductionHypothesis =>
      simp only [List.mem_append]
      rcases List.mem_cons.mp among with rfl | among
      · exact .inr (.inl within)
      · exact .inr (.inr (inductionHypothesis among))

variable {bag : Bag} (formula : Formula Leaf .sum)

/-- A text that spells a formula over doubles is arithmetic and has the formula's value. -/
theorem evaluate_of_spelled {value : Formula Float .sum} {expression : String}
    (spelled : Spelled value.tokens (substitute expression.toList bag))
    (shallow : value.depth < maximumNesting) :
    evaluate expression bag = Arithmetic.toValue (value.value id) := by
  obtain ⟨number, within⟩ := exists_numeral value
  have arithmetic : isArithmetic (substitute expression.toList bag) = true := by
    rw [isArithmetic, isArithmeticCharacter_of_spelled spelled, any_isDigit_of_spelled spelled within]
    rfl
  rw [evaluate, if_pos arithmetic, Arithmetic.evaluate_eq_ok_iff.mpr ⟨value, spelled, shallow, rfl⟩]
  rfl

/-- A letter makes a text no arithmetic one. -/
theorem evaluate_of_letter {expression : String} (within : 'e' ∈ substitute expression.toList bag) :
    evaluate expression bag = .ok (.text (String.ofList (substitute expression.toList bag))) := by
  have letter : isArithmeticCharacter 'e' = false := by decide
  refine if_neg fun arithmetic => ?_
  have all := List.all_eq_true.mp (Bool.and_eq_true_iff.mp arithmetic).1 'e' within
  rw [letter] at all
  cases all

/-- Arithmetic never comes to a text. -/
theorem toValue_ne_text (result : Float) (text : String) :
    Arithmetic.toValue result ≠ .ok (.text text) := by
  unfold Arithmetic.toValue
  split
  · split
    · split <;> exact fun equal => nomatch equal
    · exact fun equal => nomatch equal
  · exact fun equal => nomatch equal

/-- A formula over variables evaluates to its value exactly when no number that it refers to is written with
an exponent. -/
theorem evaluate_formula_iff (expression : String) (prints : Prints formula expression.toList)
    (shallow : formula.depth < maximumNesting - 1)
    (resolves : ∀ path, .path path ∈ formula.leaves →
      bag.get? (String.ofList path.text) = some (.number (numbers path)) ∧ (numbers path).IsStored) :
    evaluate expression bag = Arithmetic.toValue (formula.value (Leaf.value numbers)) ↔
      ∀ path, .path path ∈ formula.leaves → IsPlain (numbers path) := by
  have arranged := arranged_symbols formula
  have spaced : Grammar.Spaced ((symbols formula).map (Symbol.text (Leaf.replaced numbers)))
      (substitute expression.toList bag) :=
    spaced_substituteFrom arranged
      (fun path within => (resolves path ((leaf_mem_symbols_iff formula).mp within)).1)
      (fun inWord => nomatch inWord) prints
  constructor
  · intro evaluated path within marked
    have letter := mem_of_spaced spaced
      (List.mem_map_of_mem ((leaf_mem_symbols_iff formula).mpr within)) marked
    rw [evaluate_of_letter letter] at evaluated
    exact toValue_ne_text _ _ evaluated.symm
  · intro plain
    have arePlain : ArePlain numbers (symbols formula) := fun path within =>
      have among := (leaf_mem_symbols_iff formula).mp within
      ⟨(resolves path among).2, plain path among⟩
    have spelled := spelled_of_spaced arranged arePlain spaced
    have nested : (formula.bind (Leaf.formula numbers)).depth < maximumNesting := by
      have depth := formula.depth_bind_le (depth_formula numbers)
      omega
    have valued : (formula.bind (Leaf.formula numbers)).value id = formula.value (Leaf.value numbers) := by
      rw [Formula.value_bind]
      exact Formula.value_congr fun operand among =>
        value_formula (by rintro path rfl; exact ⟨(resolves path among).2, plain path among⟩)
    rw [flatMap_tokens] at spelled
    rw [evaluate_of_spelled spelled nested, valued]

end Evaluation

/-- A fraction below zero is plain. -/
theorem evaluate_minus_debt :
    evaluate "1.5 - debt" [("debt", .double (-0.25))] = Arithmetic.toValue (1.5 - -0.25) := by
  have prints : Prints (.added .subtract rfl
        (.term (.factor (.leaf (.numeral ['1', '.', '5'] 1.5 rfl rfl))))
        (.factor (.leaf (.path ⟨['d', 'e', 'b', 't'], [], by decide, rfl⟩))))
      ([] ++ (['1', '.', '5'] ++ ([' '] ++ (['-'] ++ ([' '] ++ (['d', 'e', 'b', 't'] ++ [])))))) :=
    .cons rfl (.cons rfl (.cons rfl (.nil rfl)))
  refine (@evaluate_formula_iff (fun _ => .double (-0.25)) _ _ "1.5 - debt" prints (by decide) ?_).mpr ?_
  · rintro path (_ | ⟨_, _ | ⟨_, ⟨⟩⟩⟩)
    exact ⟨rfl, by decide +kernel⟩
  · rintro path -
    decide +kernel

/-- The text of a large number has a letter in it, so a formula over it is left as it stands. -/
theorem exists_unevaluated_formula :
    ∃ (formula : Formula Leaf .sum) (bag : Bag) (numbers : Reference → Number),
      Prints formula "x + 1".toList ∧ formula.depth < maximumNesting - 1 ∧
      (∀ path, .path path ∈ formula.leaves →
        bag.get? (String.ofList path.text) = some (.number (numbers path)) ∧ (numbers path).IsStored) ∧
      evaluate "x + 1" bag = .ok (.text "1e+300 + 1") ∧
      evaluate "x + 1" bag ≠ Arithmetic.toValue (formula.value (Leaf.value numbers)) := by
  have prints : Prints (.added .add rfl (.term (.factor (.leaf (.path ⟨['x'], [], by decide, rfl⟩))))
        (.factor (.leaf (.numeral ['1'] _ rfl rfl))))
      ([] ++ (['x'] ++ ([' '] ++ (['+'] ++ ([' '] ++ (['1'] ++ [])))))) :=
    .cons rfl (.cons rfl (.cons rfl (.nil rfl)))
  have substituted : substitute "x + 1".toList [("x", .double 1e300)] = "1e+300 + 1".toList := by
    decide +kernel
  have text : evaluate "x + 1" [("x", .double 1e300)] = .ok (.text "1e+300 + 1") := by
    rw [evaluate_of_letter (by rw [substituted]; decide), substituted, String.ofList_toList]
  refine ⟨_, [("x", .double 1e300)], fun _ => .double 1e300, prints, by decide, ?_, text, ?_⟩
  · rintro path (_ | ⟨_, _ | ⟨_, ⟨⟩⟩⟩)
    exact ⟨rfl, by decide +kernel⟩
  · rw [text]
    exact (toValue_ne_text _ _).symm

end Orchestration.Expression
