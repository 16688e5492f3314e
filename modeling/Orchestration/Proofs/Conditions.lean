import Orchestration.Proofs.Tokens

/-!
# Evaluating written conditions

The text of a condition is searched for the operators of one rank after the other, and what is found
between them is searched again. On a written phrase every search finds the operators of the phrase
itself: those of a tighter rank do not begin with the character that is looked for, and those inside
parentheses and quotations are passed over. So the text is read as the tree it was written from, and
evaluating it gives the meaning of the tree, as long as parentheses and signs do not use up the levels.
-/

namespace Orchestration.Grammar

open Condition

variable {text whole before after : List Char} {bag : Bag}

/-! ## Parts -/

section Parts

/-- A term has no `&&` of its own to be split at. -/
theorem splitTopLevel_alone {term : Phrase .term} (spaced : Spaced term.tokens text) :
    splitTopLevel andSign text = [text] :=
  splitTopLevel_of_none (cut?_eq_none (term.balanced spaced) (by decide) ⟨'&', by decide, by decide⟩)

/-- What stands before the first `&&` of a conjunction is its first term. -/
theorem splitTopLevel_and {first : Phrase .term} (spaced : Spaced first.tokens before) :
    splitTopLevel andSign (before ++ (andSign ++ after)) = before :: splitTopLevel andSign after :=
  splitTopLevel_of_cut (by decide) (cut?_append (first.balanced spaced) rfl rfl (by decide))

/-- A conjunction has no `||` of its own to be split at. -/
theorem terms_single {conjunction : Phrase .conjunction} (spaced : Spaced conjunction.tokens text) :
    terms text = [splitTopLevel andSign text] := by
  rw [terms, splitTopLevel_of_none (cut?_eq_none (conjunction.balanced spaced) (by decide)
    ⟨'|', by decide, by decide⟩), List.map_singleton]

/-- What stands before the first `||` of a disjunction is its first conjunction. -/
theorem terms_or {first : Phrase .conjunction} (spaced : Spaced first.tokens before) :
    terms (before ++ (orSign ++ after)) = splitTopLevel andSign before :: terms after := by
  rw [terms, splitTopLevel_of_cut (by decide)
    (cut?_append (first.balanced spaced) rfl rfl (by decide)), List.map_cons, terms]

/-- None of the conjuncts is blank. -/
theorem conjuncts_visible : {phrase : Phrase .conjunction} → {text : List Char} →
    Spaced phrase.tokens text → (splitTopLevel andSign text).any Text.isBlankText = false
  | .alone term, text, spaced => by
      rw [splitTopLevel_alone spaced]
      simp [term.visible spaced]
  | .and first others, text, spaced => by
      obtain ⟨before, after, rfl, spacedFirst, spacedOthers⟩ := spaced.split
      rw [splitTopLevel_and spacedFirst]
      simp [first.visible spacedFirst, conjuncts_visible spacedOthers]

/-- No term of a condition is blank. -/
theorem terms_visible : {phrase : Phrase .disjunction} → {text : List Char} →
    Spaced phrase.tokens text →
    (terms text).any (fun conjuncts => conjuncts.any Text.isBlankText) = false
  | .single only, text, spaced => by
      rw [terms_single spaced]
      simp only [List.any_cons, List.any_nil, conjuncts_visible spaced, Bool.or_false]
  | .or first others, text, spaced => by
      obtain ⟨before, after, rfl, spacedFirst, spacedOthers⟩ := spaced.split
      rw [terms_or spacedFirst]
      simp only [List.any_cons, conjuncts_visible spacedFirst, terms_visible spacedOthers, Bool.or_false]

end Parts

/-! ## Comparisons -/

section Comparisons

/-- A signed operand is not a comparison. -/
theorem comparison?_eq_none (balanced : Balanced Rank.signed.Shows text) : comparison? text = none := by
  have absent : ∀ comparison : Comparison, cut? comparison.sign.toList text = none := by
    intro comparison
    refine cut?_eq_none balanced (by cases comparison <;> decide) ?_
    cases comparison with
    | greater => exact ⟨'>', by decide, by decide⟩
    | less => exact ⟨'<', by decide, by decide⟩
    | _ => exact ⟨'=', by decide, by decide⟩
  simp [comparison?, absent]

/-- The comparison of a term is found where it stands, and no other one instead: every sign is looked for
after the longer signs that it is part of, and no operand begins with the rest of one of those. -/
theorem comparison?_append (comparison : Comparison)
    (balancedBefore : Balanced Rank.operand.Shows before)
    (balancedAfter : Balanced Rank.operand.Shows after) :
    comparison? (before ++ (comparison.sign.toList ++ after)) = some (comparison, before, after) := by
  have skipped : ∀ opening tail rest, ¬ Rank.operand.Shows opening →
      cut? (opening :: tail) (before ++ rest) =
        (cutFrom (opening :: tail) ⟨0, none⟩ rest).map fun parts => (before ++ parts.1, parts.2) :=
    fun opening tail rest hidden => cutFrom_append balancedBefore rfl (Int.le_refl 0) fun _ => hidden
  have gone : ∀ opening tail, ¬ Rank.operand.Shows opening →
      cutFrom (opening :: tail) ⟨0, none⟩ after = none := by
    intro opening tail hidden
    have through : cutFrom (opening :: tail) ⟨0, none⟩ (after ++ []) = _ :=
      cutFrom_append balancedAfter rfl (Int.le_refl 0) fun _ => hidden
    simpa [cutFrom] using through
  have ended : ∀ tail, ('=' :: tail).isPrefixOf after = false := by
    intro tail
    refine Bool.eq_false_iff.mpr fun found => ?_
    obtain ⟨rest, rfl⟩ := List.isPrefixOf_iff_prefix.mp found
    exact absurd (balancedAfter.of_cons rfl).1 (by decide)
  cases comparison <;>
    simp (disch := decide) [comparison?, Comparison.all, Comparison.sign, skipped, gone, ended, cutFrom,
      Scan.isTopLevel, Scan.advance, isStructural, List.isPrefixOf, List.findSome?]

end Comparisons

/-! ## Operands and signs -/

section Operands

variable {nested : Nat → List Char → Condition} {signs : Nat}

/-- Blanks around an operand make no difference to how it is read. -/
theorem readOperand_surrounded (inner : List Char → Condition) (blankBefore : Text.isBlankText before = true)
    (blankAfter : Text.isBlankText after = true) :
    readOperand inner (before ++ (text ++ after)) = readOperand inner text := by
  rw [readOperand, Text.trim_surrounded blankBefore blankAfter, readOperand]

/-- A leaf is read as one token. -/
theorem readOperand_leaf (inner : List Char → Condition) (leaf : Leaf) :
    readOperand inner leaf.text = ofToken leaf.text := by
  simp [readOperand, leaf.trim_text, leaf.text_ne_nil, leaf.enclosed?_text]

/-- What has parentheses around it is read as a condition inside of them. -/
theorem readOperand_parenthesized (inner : List Char → Condition) {shown : Char → Prop}
    (balanced : Balanced shown text) : readOperand inner ('(' :: (text ++ [')'])) = inner text := by
  have trimmed : Text.trim ('(' :: (text ++ [')'])) = '(' :: (text ++ [')']) :=
    Text.trim_enclosed rfl rfl
  simp [readOperand, trimmed, enclosed?_parenthesized balanced]

/-- Blanks before a signed operand do not count. -/
theorem readSigned_append (blank : Text.isBlankText before = true) :
    readSigned nested whole signs (before ++ text) = readSigned nested whole signs text := by
  induction before with
  | nil => rfl
  | cons character rest inductionHypothesis =>
      simp only [Text.isBlankText, List.all_cons, Bool.and_eq_true] at blank
      rw [List.cons_append, readSigned, if_pos blank.1, inductionHypothesis blank.2]

/-- A sign `!` negates what follows, and is counted. -/
theorem readSigned_sign :
    readSigned nested whole signs ('!' :: text) = .negated (readSigned nested whole (signs + 1) text) := by
  rw [readSigned]
  simp [Text.isBlank]

/-- A text that shows no sign is read as an operand. -/
theorem readSigned_of_balanced (balanced : Balanced Rank.operand.Shows text)
    (visible : Text.isBlankText text = false) :
    readSigned nested whole signs text = readOperand (nested signs) text := by
  induction text with
  | nil => cases visible
  | cons character rest inductionHypothesis =>
      by_cases blank : Text.isBlank character = true
      · have bare : isStructural character = false :=
          (Rank.operand.shows_of_not_mem (not_mem_punctuation (by decide) blank)).1
        have blankFirst : Text.isBlankText [character] = true := by simp [Text.isBlankText, blank]
        have visibleRest : Text.isBlankText rest = false := by
          simpa [Text.isBlankText, blank] using visible
        have shorter : readOperand (nested signs) ([character] ++ (rest ++ [])) =
            readOperand (nested signs) rest := readOperand_surrounded _ blankFirst rfl
        rw [List.append_nil, List.singleton_append] at shorter
        rw [readSigned, if_pos blank, inductionHypothesis (balanced.of_cons bare).2 visibleRest, shorter]
      · have notSign : character ≠ '!' := by
          rintro rfl
          exact absurd (balanced.of_cons rfl).1 (by decide)
        rw [readSigned, if_neg blank, if_neg notSign]

end Operands

/-! ## Conditions -/

/-- How the text inside parentheses is read, when some levels are left and some signs `!` have been read
since the last parenthesis. -/
def readInside (levels signs : Nat) (inner : List Char) : Condition :=
  read (levels - signs) inner

/-- What the reading of a written phrase comes to, in whatever text the phrase is written and as long as
enough levels are left for what it nests. A phrase that is read as a truth value may be read as any
operand that counts as the same. -/
def Phrase.Reads (bag : Bag) : {rank : Rank} → Phrase rank → Prop
  | .disjunction, phrase => ∀ {text} levels whole, Spaced phrase.tokens text → phrase.depth ≤ levels →
      any bag ((terms text).map fun conjuncts =>
        .conjunction (conjuncts.map (readTerm (readInside levels) whole))) = .ok (phrase.meaning bag)
  | .conjunction, phrase => ∀ {text} levels whole, Spaced phrase.tokens text → phrase.depth ≤ levels →
      every bag ((splitTopLevel andSign text).map (readTerm (readInside levels) whole)) =
        .ok (phrase.meaning bag)
  | .term, phrase => ∀ {text} levels whole, Spaced phrase.tokens text → phrase.depth ≤ levels →
      ∃ operand, (readTerm (readInside levels) whole text).value bag = .ok operand ∧
        operand.isTruthy = phrase.meaning bag
  | .signed, phrase => ∀ {text} levels whole signs, Spaced phrase.tokens text →
      phrase.depth + signs ≤ levels →
      ∃ operand, (readSigned (readInside levels) whole signs text).value bag = .ok operand ∧
        operand.isTruthy = phrase.meaning bag
  | .operand, phrase => ∀ {text} levels signs, Spaced phrase.tokens text →
      phrase.depth + signs ≤ levels →
      (readOperand (readInside levels signs) text).value bag = .ok (phrase.meaning bag)

/-- A conjunction goes on behind a truthy term and ends at another one. -/
theorem every_cons {term : Condition} {terms : List Condition} {operand : Operand}
    (value : term.value bag = .ok operand) :
    every bag (term :: terms) = if operand.isTruthy then every bag terms else .ok false := by
  rw [every, value]

/-- A disjunction ends at a true conjunction and goes on behind another one. -/
theorem any_cons {conjuncts terms : List Condition} {truth : Bool}
    (value : every bag conjuncts = .ok truth) :
    any bag (.conjunction conjuncts :: terms) = if truth then .ok true else any bag terms := by
  rw [any, Condition.value, value]
  rfl

/-- A truth counts as itself. -/
theorem isTruthy_ofBool (truth : Bool) : (Operand.ofBool truth).isTruthy = truth := rfl

/-- A condition has the meaning of its disjunction where a level is left for the condition itself. -/
theorem value_read {phrase : Phrase .disjunction} (reads : phrase.Reads bag)
    (spaced : Spaced phrase.tokens text) {levels : Nat} (enough : phrase.depth < levels) :
    (read levels text).value bag = .ok (.ofBool (phrase.meaning bag)) := by
  obtain ⟨deeper, rfl⟩ : ∃ deeper, levels = deeper + 1 := ⟨levels - 1, by omega⟩
  have meaning := reads deeper text spaced (by omega)
  rw [Condition.read, if_neg (by simp [terms_visible spaced])]
  rw [Condition.value]
  exact congrArg (Except.map Operand.ofBool) meaning

/-- Every phrase is read as what it means. -/
theorem Phrase.reads {rank : Rank} (phrase : Phrase rank) : phrase.Reads bag := by
  -- One case for each production. The levels stay free in the hypotheses, since a group is read with
  -- fewer of them than the term it stands in.
  induction phrase with
  | single conjunction inductionHypothesis =>
      intro text levels whole spaced enough
      have conjuncts := inductionHypothesis levels whole spaced enough
      rw [terms_single spaced, List.map_singleton, any_cons conjuncts, Phrase.meaning]
      cases conjunction.meaning bag <;> rfl
  | or first others firstHypothesis othersHypothesis =>
      intro text levels whole spaced enough
      obtain ⟨before, after, rfl, spacedFirst, spacedOthers⟩ := spaced.split
      have conjuncts := firstHypothesis levels whole spacedFirst
        (Nat.le_trans (Nat.le_max_left _ _) enough)
      have disjuncts := othersHypothesis levels whole spacedOthers
        (Nat.le_trans (Nat.le_max_right _ _) enough)
      rw [terms_or spacedFirst, List.map_cons, any_cons conjuncts, disjuncts, Phrase.meaning]
      cases first.meaning bag <;> rfl
  | alone term inductionHypothesis =>
      intro text levels whole spaced enough
      obtain ⟨operand, value, truthy⟩ := inductionHypothesis levels whole spaced enough
      rw [splitTopLevel_alone spaced, List.map_singleton, every_cons value, truthy, Phrase.meaning]
      cases term.meaning bag <;> rfl
  | and first others firstHypothesis othersHypothesis =>
      intro text levels whole spaced enough
      obtain ⟨before, after, rfl, spacedFirst, spacedOthers⟩ := spaced.split
      obtain ⟨operand, value, truthy⟩ := firstHypothesis levels whole spacedFirst
        (Nat.le_trans (Nat.le_max_left _ _) enough)
      have conjuncts := othersHypothesis levels whole spacedOthers
        (Nat.le_trans (Nat.le_max_right _ _) enough)
      rw [splitTopLevel_and spacedFirst, List.map_cons, every_cons value, truthy, conjuncts,
        Phrase.meaning]
      cases first.meaning bag <;> rfl
  | compared comparison left right leftHypothesis rightHypothesis =>
      intro text levels whole spaced enough
      obtain ⟨before, after, rfl, spacedLeft, spacedRight⟩ := spaced.split
      have leftValue := leftHypothesis levels 0 spacedLeft (Nat.le_trans (Nat.le_max_left _ _) enough)
      have rightValue := rightHypothesis levels 0 spacedRight
        (Nat.le_trans (Nat.le_max_right _ _) enough)
      refine ⟨_, ?_, isTruthy_ofBool _⟩
      rw [readTerm, comparison?_append comparison (left.balanced spacedLeft)
        (right.balanced spacedRight)]
      simp only [Condition.value, leftValue, rightValue, Phrase.meaning]
  | uncompared signed inductionHypothesis =>
      intro text levels whole spaced enough
      obtain ⟨operand, value, truthy⟩ := inductionHypothesis levels whole 0 spaced enough
      refine ⟨operand, ?_, truthy⟩
      rw [readTerm, comparison?_eq_none (signed.balanced spaced)]
      exact value
  | not signed inductionHypothesis =>
      intro text levels whole signs spaced enough
      obtain ⟨before, after, rfl, blank, spacedSigned⟩ := spaced.uncons
      have inside : signed.depth + (signs + 1) ≤ levels := by
        simp only [Phrase.depth] at enough
        omega
      obtain ⟨operand, value, truthy⟩ := inductionHypothesis levels whole (signs + 1) spacedSigned inside
      refine ⟨_, ?_, isTruthy_ofBool _⟩
      rw [readSigned_append blank, List.singleton_append, readSigned_sign, Condition.value, value,
        Phrase.meaning, ← truthy]
  | unsigned operand inductionHypothesis =>
      intro text levels whole signs spaced enough
      have value := inductionHypothesis levels signs spaced enough
      refine ⟨_, ?_, rfl⟩
      rw [readSigned_of_balanced (operand.balanced spaced) (operand.visible spaced), value]
  | leaf token =>
      intro text levels signs spaced _
      obtain ⟨before, after, rfl, blankBefore, blankAfter⟩ := spaced.uncons
      rw [readOperand_surrounded _ blankBefore blankAfter.blank, readOperand_leaf, token.value_ofToken]
      rfl
  | group condition inductionHypothesis =>
      intro text levels signs spaced enough
      obtain ⟨before, rest, rfl, blankBefore, spacedRest⟩ := spaced.uncons
      obtain ⟨inner, after, rfl, spacedInner, blankAfter⟩ := spacedRest.split
      have inside : condition.depth < levels - signs := by
        simp only [Phrase.depth] at enough
        omega
      have enclosed : ['('] ++ (inner ++ ([')'] ++ after)) = '(' :: (inner ++ [')']) ++ after := by simp
      rw [enclosed, readOperand_surrounded _ blankBefore blankAfter.blank,
        readOperand_parenthesized _ (condition.balanced spacedInner), readInside,
        value_read inductionHypothesis spacedInner inside, Phrase.meaning]

/-- Looks for tokens one after another, each behind blanks. -/
def spells : List (List Char) → List Char → Bool
  | [], text => Text.isBlankText text
  | token :: tokens, text =>
      token.isPrefixOf (Text.trimStart text) &&
        spells tokens ((Text.trimStart text).drop token.length)

/-- What is found by looking for tokens one after another is spelled with them. -/
theorem Spaced.of_spells {tokens : List (List Char)} (found : spells tokens text = true) :
    Spaced tokens text := by
  induction tokens generalizing text with
  | nil => exact .nil found
  | cons token tokens inductionHypothesis =>
      rw [spells, Bool.and_eq_true, List.isPrefixOf_iff_prefix] at found
      obtain ⟨⟨rest, trimmed⟩, others⟩ := found
      rw [← trimmed, List.drop_left] at others
      have blank : Text.isBlankText (text.takeWhile Text.isBlank) = true :=
        List.all_eq_true.mpr fun _ => List.mem_takeWhile_imp
      have parts : text.takeWhile Text.isBlank ++ (token ++ rest) = text := by
        rw [trimmed]
        exact List.takeWhile_append_dropWhile
      exact parts ▸ .cons blank (inductionHypothesis others)

/-- Evaluating the text of a condition gives the meaning of the tree it was written from: whatever the
blanks between the tokens, in every bag, and with the parentheses and signs over each leaf numbering
fewer than the nesting limit. -/
theorem evaluate_eq_meaning {phrase : Phrase .disjunction} {text : String}
    (spaced : Spaced phrase.tokens text.toList) (shallow : phrase.depth < maximumNesting) (bag : Bag) :
    evaluate text bag = .ok (phrase.meaning bag) := by
  rw [evaluate, ofText, holds, value_read phrase.reads spaced shallow]
  rfl

namespace GuardedStatus

/-- The operand that a variable's name stands for. -/
def done : Phrase .operand :=
  .leaf (.path ⟨['d', 'o', 'n', 'e'], [], by decide, by decide, by rintro (_ | _) <;> decide⟩)

def order : Phrase .operand :=
  .leaf (.path ⟨['o', 'r', 'd', 'e', 'r'], [['t', 'o', 't', 'a', 'l']], by decide, by decide,
    by rintro (_ | _) <;> decide⟩)

def status : Phrase .operand :=
  .leaf (.path ⟨['s', 't', 'a', 't', 'u', 's'], [], by decide, by decide,
    by rintro (_ | _) <;> decide⟩)

/-- The numeral `-12`. -/
def number : Phrase .operand :=
  .leaf (.numeral ⟨true, ['1', '2'], [], by decide, by decide⟩ trivial)

/-- A quotation with an operator in it. -/
def quoted : Phrase .operand :=
  .leaf (.quotation ⟨'\'', ['a', '|', '|', 'b'], .inr rfl, by decide⟩)

/-- Neither done nor of a certain total, and in a status that is spelled like an operator. -/
def phrase : Phrase .disjunction :=
  .single <| .and
    (.uncompared <| .not <| .unsigned <| .group <|
      .or (.alone <| .uncompared <| .unsigned done)
        (.single <| .alone <| .compared .equal order number))
    (.alone <| .compared .identical status quoted)

def spelling : String := " !(done||order.total == -12 )&& status === 'a||b'"

def stored : Bag := [("status", .text "a||b")]

/-- The phrase is spelled with all its blanks, nests little, and holds in the bag. -/
theorem evaluate_guarded :
    Spaced phrase.tokens spelling.toList ∧ phrase.depth < maximumNesting ∧
      evaluate spelling stored = .ok true := by
  have spaced : Spaced phrase.tokens spelling.toList := .of_spells (by decide)
  have shallow : phrase.depth < maximumNesting := by decide
  exact ⟨spaced, shallow, evaluate_eq_meaning spaced shallow stored⟩

end GuardedStatus

end Orchestration.Grammar
