import Orchestration.Condition.Reading
import Orchestration.Proofs.Scanning
import Orchestration.Text.Word

/-!
# The grammar of conditions

A condition as a tree of phrases, each of a rank that says where it may stand: disjunctions of
conjunctions of terms, comparisons, signs, operands, and whole conditions again in parentheses. A tree
has a meaning in every bag, which is found without any text. It is written as tokens with blanks around
them at will.

A written phrase is balanced, and the operators that bind more loosely than its rank stand only inside
the parentheses and quotations of the text.
-/

namespace Orchestration.Text

/-- A character of joined parts is one of the separator or of a part. -/
theorem mem_joinWith {character : Char} {separator : List Char} {parts : List (List Char)}
    (within : character ∈ joinWith separator parts) :
    character ∈ separator ∨ ∃ part ∈ parts, character ∈ part := by
  induction parts using joinWith.induct with
  | case1 => cases within
  | case2 part => exact .inr ⟨part, List.mem_singleton_self part, within⟩
  | case3 part next parts inductionHypothesis =>
      rw [joinWith, List.mem_append, List.mem_append] at within
      rcases within with (within | within) | within
      · exact .inr ⟨part, List.mem_cons_self, within⟩
      · exact .inl within
      · rcases inductionHypothesis within with within | ⟨other, among, within⟩
        · exact .inl within
        · exact .inr ⟨other, List.mem_cons_of_mem _ among, within⟩

section Splitting

variable {separator : Char}

/-- A text without the separator is its only part. -/
theorem splitOn_of_not_mem {part : List Char} (absent : separator ∉ part) :
    splitOn separator part = [part] := by
  induction part with
  | nil => rfl
  | cons character rest inductionHypothesis =>
      simp only [List.mem_cons, not_or] at absent
      simp [splitOn, Ne.symm absent.1, inductionHypothesis absent.2]

/-- The first part of a text ends at the first separator. -/
theorem splitOn_append {part rest : List Char} (absent : separator ∉ part) :
    splitOn separator (part ++ separator :: rest) = part :: splitOn separator rest := by
  induction part with
  | nil => simp [splitOn]
  | cons character others inductionHypothesis =>
      simp only [List.mem_cons, not_or] at absent
      simp [splitOn, Ne.symm absent.1, inductionHypothesis absent.2]

/-- Joined parts fall apart again where none of them has the separator in it. -/
theorem splitOn_joinWith {parts : List (List Char)} (nonempty : parts ≠ [])
    (absent : ∀ part ∈ parts, separator ∉ part) :
    splitOn separator (joinWith [separator] parts) = parts := by
  induction parts using joinWith.induct with
  | case1 => exact absurd rfl nonempty
  | case2 part => exact splitOn_of_not_mem (absent part (List.mem_singleton_self part))
  | case3 part next parts inductionHypothesis =>
      have absentNext := fun other within => absent other (List.mem_cons_of_mem part within)
      rw [joinWith, List.append_assoc, List.singleton_append,
        splitOn_append (absent part List.mem_cons_self), inductionHypothesis (by simp) absentNext]

end Splitting

end Orchestration.Text

namespace Orchestration.Grammar

open Condition (orSign andSign Balanced isStructural)

/-- A word that stands for a value, or for undefined. -/
inductive Keyword where
  | yes
  | no
  | null
  | undefined
  deriving DecidableEq, Repr

/-- How a keyword is spelled. -/
def Keyword.text : Keyword → List Char
  | .yes => ['t', 'r', 'u', 'e']
  | .no => ['f', 'a', 'l', 's', 'e']
  | .null => ['n', 'u', 'l', 'l']
  | .undefined => ['u', 'n', 'd', 'e', 'f', 'i', 'n', 'e', 'd']

def Keyword.operand : Keyword → Operand
  | .yes => .ofBool true
  | .no => .ofBool false
  | .null => some .null
  | .undefined => none

/-- A numeral in ASCII digits. One without digits after the point is written without the point. -/
structure Numeral where
  negative : Bool
  whole : List Char
  fraction : List Char
  nonempty : whole ≠ []
  digits : (whole ++ fraction).all Char.isDigit = true

namespace Numeral

/-- The point and the digits after it, where there are any. -/
def decimals (numeral : Numeral) : List Char :=
  if numeral.fraction.isEmpty then [] else '.' :: numeral.fraction

def magnitude (numeral : Numeral) : List Char :=
  numeral.whole ++ numeral.decimals

def text (numeral : Numeral) : List Char :=
  if numeral.negative then '-' :: numeral.magnitude else numeral.magnitude

/-- The whole number in front of the point. -/
def integer (numeral : Numeral) : Int :=
  if numeral.negative then -(Text.digitsToNat numeral.whole : Int)
  else Text.digitsToNat numeral.whole

/-- The double nearest to a numeral. -/
def double (numeral : Numeral) : Float :=
  Binary64.ofDecimal numeral.negative (Text.digitsToNat (numeral.whole ++ numeral.fraction))
    (-(numeral.fraction.length : Int))

/-- The number a numeral stands for: a whole one when it has no decimals and fits a signed word. -/
def number (numeral : Numeral) : Number :=
  if numeral.fraction.isEmpty && Word.isSigned numeral.integer then .integer numeral.integer
  else .double numeral.double

/-- Whole numbers are finite, and so are the doubles within the range of doubles. -/
def IsFinite (numeral : Numeral) : Prop :=
  match numeral.number with
  | .integer _ => True
  | .double value => Binary64.isFinite value = true

end Numeral

/-- A text between two equal quotes that do not occur in it. -/
structure Quotation where
  quote : Char
  content : List Char
  marks : quote = '"' ∨ quote = '\''
  absent : quote ∉ content

def Quotation.text (quotation : Quotation) : List Char :=
  quotation.quote :: (quotation.content ++ [quotation.quote])

/-- Names joined by dots. The first one does not begin with a digit, and the whole is no keyword. -/
structure DottedPath where
  first : List Char
  others : List (List Char)
  words : ∀ name ∈ first :: others, name ≠ [] ∧ name.all Text.isWord = true
  begins : first.head?.any Text.isDecimalDigit = false
  free : ∀ keyword : Keyword, Text.joinWith ['.'] (first :: others) ≠ keyword.text

namespace DottedPath

def text (path : DottedPath) : List Char :=
  Text.joinWith ['.'] (path.first :: path.others)

/-- What the names lead to in a bag, one after another. -/
def operand (path : DottedPath) (bag : Bag) : Operand :=
  Value.follow? ((path.first :: path.others).map String.ofList) (.record bag)

end DottedPath

/-- An operand that is one token. -/
inductive Leaf where
  | keyword (keyword : Keyword)
  | numeral (numeral : Numeral) (finite : numeral.IsFinite)
  | quotation (quotation : Quotation)
  | path (path : DottedPath)

namespace Leaf

def text : Leaf → List Char
  | .keyword word => word.text
  | .numeral digits _ => digits.text
  | .quotation quoted => quoted.text
  | .path names => names.text

def operand (bag : Bag) : Leaf → Operand
  | .keyword word => word.operand
  | .numeral digits _ => some (.number digits.number)
  | .quotation quoted => some (.text (String.ofList quoted.content))
  | .path names => names.operand bag

end Leaf

/-- Where a phrase may stand, from the loosest binding to the tightest. -/
inductive Rank where
  | disjunction
  | conjunction
  | term
  | signed
  | operand

/-- What a phrase means: an operand has a value or is undefined, and every other phrase is true or
false. -/
abbrev Rank.Meaning : Rank → Type
  | .operand => Operand
  | _ => Bool

/-- The phrases of each rank. -/
inductive Phrase : Rank → Type where
  | single (conjunction : Phrase .conjunction) : Phrase .disjunction
  | or (first : Phrase .conjunction) (others : Phrase .disjunction) : Phrase .disjunction
  | alone (term : Phrase .term) : Phrase .conjunction
  | and (first : Phrase .term) (others : Phrase .conjunction) : Phrase .conjunction
  | compared (comparison : Comparison) (left right : Phrase .operand) : Phrase .term
  | uncompared (signed : Phrase .signed) : Phrase .term
  | not (signed : Phrase .signed) : Phrase .signed
  | unsigned (operand : Phrase .operand) : Phrase .signed
  | leaf (leaf : Leaf) : Phrase .operand
  | group (condition : Phrase .disjunction) : Phrase .operand

/-- A text that has the given tokens in their order, with nothing but blanks before, between and after
them. -/
inductive Spaced : List (List Char) → List Char → Prop where
  | nil {blanks : List Char} (blank : Text.isBlankText blanks = true) : Spaced [] blanks
  | cons {blanks token rest : List Char} {tokens : List (List Char)}
      (blank : Text.isBlankText blanks = true) (spaced : Spaced tokens rest) :
      Spaced (token :: tokens) (blanks ++ (token ++ rest))

namespace Phrase

/-- The tokens of a phrase. -/
def tokens : {rank : Rank} → Phrase rank → List (List Char)
  | _, .single conjunction => conjunction.tokens
  | _, .or first others => first.tokens ++ orSign :: others.tokens
  | _, .alone term => term.tokens
  | _, .and first others => first.tokens ++ andSign :: others.tokens
  | _, .compared comparison left right =>
      left.tokens ++ comparison.sign.toList :: right.tokens
  | _, .uncompared signed => signed.tokens
  | _, .not signed => ['!'] :: signed.tokens
  | _, .unsigned operand => operand.tokens
  | _, .leaf token => [token.text]
  | _, .group condition => ['('] :: (condition.tokens ++ [[')']])

/-- What a phrase means in a bag. -/
def meaning (bag : Bag) : {rank : Rank} → Phrase rank → rank.Meaning
  | _, .single conjunction => conjunction.meaning bag
  | _, .or first others => Bool.or (first.meaning bag) (others.meaning bag)
  | _, .alone term => term.meaning bag
  | _, .and first others => Bool.and (first.meaning bag) (others.meaning bag)
  | _, .compared comparison left right =>
      comparison.holds (left.meaning bag) (right.meaning bag)
  | _, .uncompared signed => signed.meaning bag
  | _, .not signed => Bool.not (signed.meaning bag)
  | _, .unsigned operand => Operand.isTruthy (operand.meaning bag)
  | _, .leaf token => token.operand bag
  | _, .group condition => Operand.ofBool (condition.meaning bag)

/-- The largest number of parentheses and signs `!` that a leaf of a phrase stands under. -/
def depth : {rank : Rank} → Phrase rank → Nat
  | _, .single conjunction => conjunction.depth
  | _, .or first others => max first.depth others.depth
  | _, .alone term => term.depth
  | _, .and first others => max first.depth others.depth
  | _, .compared _ left right => max left.depth right.depth
  | _, .uncompared signed => signed.depth
  | _, .not signed => signed.depth + 1
  | _, .unsigned operand => operand.depth
  | _, .leaf _ => 0
  | _, .group condition => condition.depth + 1

end Phrase

/-! ## Characters -/

section Characters

variable {character : Char}

/-- The characters that have a part of their own in the grammar. -/
def punctuation : List Char := ['"', '\'', '(', ')', '|', '&', '=', '<', '>', '!']

/-- The characters that do not stand at the top level of a phrase. -/
def Rank.excluded : Rank → List Char
  | .disjunction => []
  | .conjunction => ['|']
  | .term => ['|', '&']
  | .signed => ['|', '&', '=', '<', '>']
  | .operand => ['|', '&', '=', '<', '>', '!']

/-- The characters that may stand at the top level of a phrase. -/
def Rank.Shows (rank : Rank) (character : Char) : Prop :=
  character ∉ rank.excluded

instance (rank : Rank) (character : Char) : Decidable (rank.Shows character) :=
  inferInstanceAs (Decidable (character ∉ rank.excluded))

/-- A phrase may show what is no punctuation. -/
theorem Rank.shows_of_not_mem (rank : Rank) (ordinary : character ∉ punctuation) :
    isStructural character = false ∧ rank.Shows character := by
  simp only [punctuation, List.mem_cons, List.not_mem_nil, or_false, not_or] at ordinary
  refine ⟨by simp [isStructural, ordinary], ?_⟩
  cases rank <;> simp [Rank.Shows, Rank.excluded, ordinary]

/-- A property that no punctuation has rules out punctuation. -/
theorem not_mem_punctuation {property : Char → Bool}
    (never : punctuation.any property = false) (holds : property character = true) :
    character ∉ punctuation := fun within => by
  rw [List.any_eq_true.mpr ⟨character, within, holds⟩] at never
  cases never

/-- Every blank character. -/
def blanks : List Char :=
  [0x9, 0xA, 0xB, 0xC, 0xD, 0x20, 0x85, 0xA0, 0x1680, 0x2000, 0x2001, 0x2002, 0x2003, 0x2004, 0x2005,
    0x2006, 0x2007, 0x2008, 0x2009, 0x200A, 0x2028, 0x2029, 0x202F, 0x205F, 0x3000].map Char.ofNat

/-- No blank character is missing. -/
theorem mem_blanks (blank : Text.isBlank character = true) : character ∈ blanks := by
  refine List.mem_map.mpr ⟨character.toNat, ?_, Char.ofNat_toNat character⟩
  simp only [Text.isBlank, Bool.or_eq_true, Bool.and_eq_true, decide_eq_true_eq] at blank
  simp only [List.mem_cons, List.not_mem_nil, or_false]
  omega

/-- Each of them is blank. -/
theorem isBlank_of_mem (white : character ∈ blanks) : Text.isBlank character = true := by
  have all : blanks.all Text.isBlank = true := by decide
  exact List.all_eq_true.mp all character white

/-- A character of a kind that no blank is of is no blank. -/
theorem isBlank_eq_false_of {kind : Char → Bool} (never : blanks.any kind = false)
    (isKind : kind character = true) : Text.isBlank character = false := by
  refine Bool.eq_false_iff.mpr fun blank => ?_
  rw [List.any_eq_true.mpr ⟨character, mem_blanks blank, isKind⟩] at never
  cases never

/-- No character of a word is blank. -/
theorem isBlank_of_isWord (word : Text.isWord character = true) : Text.isBlank character = false := by
  have never : blanks.any Text.isWord = false := by decide +kernel
  exact isBlank_eq_false_of never word

/-- A character that occurs in keywords, numerals and paths. -/
def IsOrdinary (character : Char) : Prop :=
  character = '-' ∨ character = '.' ∨ Text.isWord character = true

/-- Ordinary characters are no punctuation. -/
theorem IsOrdinary.not_mem (ordinary : IsOrdinary character) : character ∉ punctuation := by
  rcases ordinary with rfl | rfl | word
  · decide
  · decide
  · exact not_mem_punctuation (by decide +kernel) word

/-- Ordinary characters are visible. -/
theorem IsOrdinary.isBlank (ordinary : IsOrdinary character) : Text.isBlank character = false := by
  rcases ordinary with rfl | rfl | word
  · rfl
  · rfl
  · exact isBlank_of_isWord word

/-- Digits are ordinary. -/
theorem IsOrdinary.of_isDigit (digit : character.isDigit = true) : IsOrdinary character := by
  refine .inr (.inr (Text.isWord_of_isPlainWord ?_))
  simp [Text.isPlainWord, Char.isAlphanum, digit]

end Characters

/-! ## Tokens -/

section Tokens

variable {character : Char}

/-- Keywords are spelled with ordinary characters. -/
theorem Keyword.isOrdinary {word : Keyword} (within : character ∈ word.text) :
    IsOrdinary character := by
  have all : word.text.all Text.isWord = true := by cases word <;> decide
  exact .inr (.inr (List.all_eq_true.mp all character within))

/-- Numerals are spelled with ordinary characters. -/
theorem Numeral.isOrdinary {numeral : Numeral} (within : character ∈ numeral.text) :
    IsOrdinary character := by
  have decimal : ∀ {digit}, digit ∈ numeral.whole ∨ digit ∈ numeral.fraction → IsOrdinary digit :=
    fun within => .of_isDigit (List.all_eq_true.mp numeral.digits _ (List.mem_append.mpr within))
  have magnitude : character ∈ numeral.magnitude → IsOrdinary character := by
    intro within
    rw [Numeral.magnitude, Numeral.decimals, List.mem_append] at within
    rcases within with within | within
    · exact decimal (.inl within)
    · split at within
      · cases within
      · rcases List.mem_cons.mp within with rfl | within
        · exact .inr (.inl rfl)
        · exact decimal (.inr within)
  rw [Numeral.text] at within
  split at within
  · rcases List.mem_cons.mp within with rfl | within
    · exact .inl rfl
    · exact magnitude within
  · exact magnitude within

/-- Paths are spelled with ordinary characters. -/
theorem DottedPath.isOrdinary {path : DottedPath} (within : character ∈ path.text) :
    IsOrdinary character := by
  rcases Text.mem_joinWith within with within | ⟨name, among, within⟩
  · exact .inr (.inl (List.mem_singleton.mp within))
  · exact .inr (.inr (List.all_eq_true.mp (path.words name among).2 character within))

/-- A leaf is a quotation, or nothing in it is punctuation or blank. -/
theorem Leaf.ordinary_or (leaf : Leaf) :
    (∀ character ∈ leaf.text, IsOrdinary character) ∨ ∃ quotation, leaf = .quotation quotation := by
  cases leaf with
  | keyword word => exact .inl fun _ => Keyword.isOrdinary
  | numeral digits => exact .inl fun _ => Numeral.isOrdinary
  | quotation quoted => exact .inr ⟨quoted, rfl⟩
  | path names => exact .inl fun _ => DottedPath.isOrdinary

/-- A leaf may stand in phrases of any rank: what a quotation holds does not show, and other leaves are
ordinary. -/
theorem Leaf.balanced (leaf : Leaf) (rank : Rank) : Balanced rank.Shows leaf.text := by
  rcases leaf.ordinary_or with ordinary | ⟨quotation, rfl⟩
  · exact .of_forall fun character within => rank.shows_of_not_mem (ordinary character within).not_mem
  · exact .quoted quotation.marks quotation.absent .nil

/-- A leaf has no blanks at its ends. -/
theorem Leaf.trim_text (leaf : Leaf) : Text.trim leaf.text = leaf.text := by
  rcases leaf.ordinary_or with ordinary | ⟨quotation, rfl⟩
  · exact Text.trim_of_visible fun character within => (ordinary character within).isBlank
  · have visible : Text.isBlank quotation.quote = false := by
      rcases quotation.marks with mark | mark <;> rw [mark] <;> rfl
    exact Text.trim_enclosed visible visible

/-- A leaf is not empty. -/
theorem Leaf.text_ne_nil (leaf : Leaf) : leaf.text ≠ [] := by
  cases leaf with
  | keyword word => cases word <;> simp [Leaf.text, Keyword.text]
  | numeral digits =>
      simp only [Leaf.text, Numeral.text, Numeral.magnitude]
      split <;> simp [digits.nonempty]
  | quotation quoted => simp [Leaf.text, Quotation.text]
  | path names =>
      have first : names.first ≠ [] := (names.words _ List.mem_cons_self).1
      simp only [Leaf.text, DottedPath.text]
      cases names.others <;> simp [Text.joinWith, first]

/-- A leaf is not blank. -/
theorem Leaf.visible (leaf : Leaf) : Text.isBlankText leaf.text = false := by
  refine Bool.eq_false_iff.mpr fun blank => leaf.text_ne_nil ?_
  rw [← leaf.trim_text, Text.trim, Text.trimEnd_eq_nil_iff]
  have nothing : Text.trimStart leaf.text = [] :=
    List.dropWhile_eq_nil_iff.mpr (List.all_eq_true.mp blank)
  rw [nothing]
  rfl

end Tokens

/-! ## Texts -/

section Texts

variable {token text : List Char}

/-- Without tokens there are only blanks. -/
theorem Spaced.blank (spaced : Spaced [] text) : Text.isBlankText text = true := by
  cases spaced with
  | nil blank => exact blank

/-- The first token has blanks before it and the other tokens behind it. -/
theorem Spaced.uncons {tokens : List (List Char)} (spaced : Spaced (token :: tokens) text) :
    ∃ before after, text = before ++ (token ++ after) ∧ Text.isBlankText before = true ∧
      Spaced tokens after := by
  cases spaced with
  | @cons before _ after _ blank spaced => exact ⟨before, after, rfl, blank, spaced⟩

/-- A text is cut at each of its tokens. -/
theorem Spaced.split {left right : List (List Char)} (spaced : Spaced (left ++ token :: right) text) :
    ∃ before after, text = before ++ (token ++ after) ∧ Spaced left before ∧ Spaced right after := by
  induction left generalizing text with
  | nil =>
      obtain ⟨before, after, rfl, blank, spacedRight⟩ := spaced.uncons
      exact ⟨before, after, rfl, .nil blank, spacedRight⟩
  | cons other left inductionHypothesis =>
      obtain ⟨blanks, rest, rfl, blank, spacedRest⟩ := spaced.uncons
      obtain ⟨before, after, rfl, spacedLeft, spacedRight⟩ := inductionHypothesis spacedRest
      exact ⟨blanks ++ (other ++ before), after, by simp, .cons blank spacedLeft, spacedRight⟩

/-- Blanks may stand in phrases of any rank. -/
theorem balanced_of_blank (blank : Text.isBlankText text = true) (rank : Rank) :
    Balanced rank.Shows text :=
  .of_forall fun character within => rank.shows_of_not_mem
    (not_mem_punctuation (by decide) (List.all_eq_true.mp blank character within))

/-- A phrase whose rank excludes less shows no more than one whose rank excludes more. -/
theorem Rank.Shows.loosen {tight loose : Rank}
    (fewer : loose.excluded.all tight.excluded.contains = true) (character : Char)
    (shows : tight.Shows character) : loose.Shows character := fun within =>
  shows (List.contains_iff_mem.mp (List.all_eq_true.mp fewer character within))

/-- An operator that a rank does not exclude may stand at the top level. -/
theorem balanced_of_sign {rank : Rank} (bare : token.any isStructural = false)
    (allowed : token.any rank.excluded.contains = false) : Balanced rank.Shows token := by
  refine .of_forall fun character within => ?_
  simp only [List.any_eq_false, List.contains_iff_mem] at bare allowed
  exact ⟨by simpa using bare character within, allowed character within⟩

/-- A written phrase closes what it opens, and shows only what its rank allows. -/
theorem Phrase.balanced {rank : Rank} (phrase : Phrase rank) (spaced : Spaced phrase.tokens text) :
    Balanced rank.Shows text := by
  induction phrase generalizing text with
  | single conjunction inductionHypothesis =>
      exact (inductionHypothesis spaced).mono (Rank.Shows.loosen (by decide))
  | or first others firstHypothesis othersHypothesis =>
      obtain ⟨before, after, rfl, spacedFirst, spacedOthers⟩ := spaced.split
      exact ((firstHypothesis spacedFirst).mono (Rank.Shows.loosen (by decide))).append
        ((balanced_of_sign (by decide) (by decide)).append (othersHypothesis spacedOthers))
  | alone term inductionHypothesis =>
      exact (inductionHypothesis spaced).mono (Rank.Shows.loosen (by decide))
  | and first others firstHypothesis othersHypothesis =>
      obtain ⟨before, after, rfl, spacedFirst, spacedOthers⟩ := spaced.split
      exact ((firstHypothesis spacedFirst).mono (Rank.Shows.loosen (by decide))).append
        ((balanced_of_sign (by decide) (by decide)).append (othersHypothesis spacedOthers))
  | compared comparison left right leftHypothesis rightHypothesis =>
      obtain ⟨before, after, rfl, spacedLeft, spacedRight⟩ := spaced.split
      have sign : Balanced Rank.term.Shows comparison.sign.toList :=
        balanced_of_sign (by cases comparison <;> decide) (by cases comparison <;> decide)
      exact ((leftHypothesis spacedLeft).mono (Rank.Shows.loosen (by decide))).append
        (sign.append ((rightHypothesis spacedRight).mono (Rank.Shows.loosen (by decide))))
  | uncompared signed inductionHypothesis =>
      exact (inductionHypothesis spaced).mono (Rank.Shows.loosen (by decide))
  | not signed inductionHypothesis =>
      obtain ⟨before, after, rfl, blankBefore, spacedSigned⟩ := spaced.uncons
      exact (balanced_of_blank blankBefore _).append
        ((balanced_of_sign (by decide) (by decide)).append (inductionHypothesis spacedSigned))
  | unsigned operand inductionHypothesis =>
      exact (inductionHypothesis spaced).mono (Rank.Shows.loosen (by decide))
  | leaf token =>
      obtain ⟨before, after, rfl, blankBefore, blankAfter⟩ := spaced.uncons
      exact (balanced_of_blank blankBefore _).append
        ((token.balanced _).append (balanced_of_blank blankAfter.blank _))
  | group condition inductionHypothesis =>
      obtain ⟨before, rest, rfl, blankBefore, spacedRest⟩ := spaced.uncons
      obtain ⟨inner, after, rfl, spacedInner, blankAfter⟩ := spacedRest.split
      exact (balanced_of_blank blankBefore _).append
        (.group ((inductionHypothesis spacedInner).mono fun _ _ => trivial)
          (balanced_of_blank blankAfter.blank _))

/-- Some character of a written phrase is visible. -/
theorem Phrase.visible {rank : Rank} (phrase : Phrase rank) (spaced : Spaced phrase.tokens text) :
    Text.isBlankText text = false := by
  induction phrase generalizing text with
  | single _ inductionHypothesis => exact inductionHypothesis spaced
  | or first _ firstHypothesis =>
      obtain ⟨before, after, rfl, spacedFirst, -⟩ := spaced.split
      simp [Text.isBlankText_append, firstHypothesis spacedFirst]
  | alone _ inductionHypothesis => exact inductionHypothesis spaced
  | and first _ firstHypothesis =>
      obtain ⟨before, after, rfl, spacedFirst, -⟩ := spaced.split
      simp [Text.isBlankText_append, firstHypothesis spacedFirst]
  | compared _ left _ leftHypothesis =>
      obtain ⟨before, after, rfl, spacedLeft, -⟩ := spaced.split
      simp [Text.isBlankText_append, leftHypothesis spacedLeft]
  | uncompared _ inductionHypothesis => exact inductionHypothesis spaced
  | not =>
      obtain ⟨before, after, rfl, -, -⟩ := spaced.uncons
      have sign : Text.isBlankText ['!'] = false := rfl
      simp only [Text.isBlankText_append, sign, Bool.false_and, Bool.and_false]
  | unsigned _ inductionHypothesis => exact inductionHypothesis spaced
  | leaf token =>
      obtain ⟨before, after, rfl, -, -⟩ := spaced.uncons
      simp [Text.isBlankText_append, token.visible]
  | group =>
      obtain ⟨before, after, rfl, -, -⟩ := spaced.uncons
      have parenthesis : Text.isBlankText ['('] = false := rfl
      simp only [Text.isBlankText_append, parenthesis, Bool.false_and, Bool.and_false]

end Texts

end Orchestration.Grammar
