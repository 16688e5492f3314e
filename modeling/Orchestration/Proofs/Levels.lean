import Orchestration.Proofs.Conditions

/-!
# How deep conditions nest

A condition is read with a number of levels to spend. A pair of parentheses takes one when its inside is
read, and is refused where none is left. A sign `!` takes one as well, but nothing looks at what is left
until a parenthesis comes. So a name under many levels is refused exactly if one of the deep levels is a
pair of parentheses, and a condition is read as a tree that is no higher than the levels allow and its
signs add.
-/

namespace Orchestration.Condition

open Grammar (Rank punctuation readInside)

/-! ## Wrapped names -/

/-- A level that a condition is wrapped in. -/
inductive Wrapper where
  | sign
  | parentheses
  deriving DecidableEq, Repr

/-- A name that is read as one token. -/
structure IsName (name : List Char) : Prop where
  nonempty : name ≠ []
  plain : ∀ character ∈ name, Text.isBlank character = false ∧ character ∉ punctuation

/-- That a text is a name in so many levels, the outermost first, with blanks at will. -/
inductive Wraps (name : List Char) : List Wrapper → List Char → Prop where
  | bare {before after : List Char} (blankBefore : Text.isBlankText before = true)
      (blankAfter : Text.isBlankText after = true) : Wraps name [] (before ++ (name ++ after))
  | sign {levels : List Wrapper} {before text : List Char} (blank : Text.isBlankText before = true)
      (inside : Wraps name levels text) : Wraps name (.sign :: levels) (before ++ '!' :: text)
  | parentheses {levels : List Wrapper} {before text after : List Char}
      (blankBefore : Text.isBlankText before = true) (inside : Wraps name levels text)
      (blankAfter : Text.isBlankText after = true) :
      Wraps name (.parentheses :: levels) (before ++ ('(' :: (text ++ [')']) ++ after))

/-- What a wrapped name is read as where so many levels are left. -/
def wrapped (name : List Char) : Nat → List Wrapper → Condition
  | _, [] => ofToken name
  | left, .sign :: levels => .negated (wrapped name (left - 1) levels)
  | 0, .parentheses :: _ => .refused (.tooDeep maximumNesting)
  | left + 1, .parentheses :: levels => .disjunction [.conjunction [wrapped name left levels]]

section Reading

variable {name text whole : List Char} {levels : List Wrapper}

/-- A name may stand in phrases of any rank. -/
theorem IsName.balanced (isName : IsName name) (rank : Rank) : Balanced rank.Shows name :=
  .of_forall fun character within => rank.shows_of_not_mem (isName.plain character within).2

/-- A name has no blanks around it. -/
theorem IsName.trim_eq (isName : IsName name) : Text.trim name = name :=
  Text.trim_of_visible fun character within => (isName.plain character within).1

/-- A name has no parenthesis. -/
theorem IsName.enclosed?_eq_none (isName : IsName name) : enclosed? name = none := by
  cases name with
  | nil => rfl
  | cons first rest =>
      have different : first ≠ '(' := by
        rintro rfl
        exact (isName.plain _ List.mem_cons_self).2 (by decide)
      simp [enclosed?, different]

/-- A name is read as one token. -/
theorem IsName.readOperand_eq (isName : IsName name) (inner : List Char → Condition) :
    readOperand inner name = ofToken name := by
  simp [readOperand, isName.trim_eq, isName.nonempty, isName.enclosed?_eq_none]

/-- A name is visible. -/
theorem IsName.visible (isName : IsName name) : Text.isBlankText name = false := by
  obtain ⟨first, rest, rfl⟩ := List.exists_cons_of_ne_nil isName.nonempty
  simp [Text.isBlankText, (isName.plain first List.mem_cons_self).1]

/-- A wrapped name shows no operator but signs. -/
theorem Wraps.balanced (wraps : Wraps name levels text) (isName : IsName name) :
    Balanced Rank.signed.Shows text := by
  induction wraps with
  | bare blankBefore blankAfter =>
      exact (Grammar.balanced_of_blank blankBefore _).append
        ((isName.balanced _).append (Grammar.balanced_of_blank blankAfter _))
  | sign blank _ inductionHypothesis =>
      exact (Grammar.balanced_of_blank blank _).append (.plain (by decide) (by decide) inductionHypothesis)
  | parentheses blankBefore _ blankAfter inductionHypothesis =>
      refine (Grammar.balanced_of_blank blankBefore _).append ?_
      rw [List.cons_append, List.append_assoc, List.singleton_append]
      exact .group (inductionHypothesis.mono fun _ _ => trivial)
        (Grammar.balanced_of_blank blankAfter _)

/-- A wrapped name is visible. -/
theorem Wraps.visible (wraps : Wraps name levels text) (isName : IsName name) :
    Text.isBlankText text = false := by
  have sign : Text.isBlank '!' = false := rfl
  have parenthesis : Text.isBlank '(' = false := rfl
  cases wraps with
  | bare => simp [Text.isBlankText_append, isName.visible]
  | sign => simp [Text.isBlankText, sign]
  | parentheses => simp [Text.isBlankText, parenthesis]

/-- A condition none of whose terms is blank is read as the disjunction of the conjunctions of its terms. -/
theorem read_of_visible (levels : Nat)
    (visible : (terms text).any (fun conjuncts => conjuncts.any Text.isBlankText) = false) :
    read (levels + 1) text = .disjunction ((terms text).map fun conjuncts =>
      .conjunction (conjuncts.map (readTerm (readInside levels) text))) := by
  rw [read, if_neg (by simp [visible])]
  rfl

/-- A text that shows no sign between terms is a single term. -/
theorem read_of_term (balanced : Balanced Rank.term.Shows text)
    (visible : Text.isBlankText text = false) (levels : Nat) :
    read (levels + 1) text = .disjunction [.conjunction [readTerm (readInside levels) text text]] := by
  have conjuncts : splitTopLevel andSign text = [text] :=
    splitTopLevel_of_none (cut?_eq_none balanced (by decide) ⟨'&', by decide, by decide⟩)
  have disjuncts : splitTopLevel orSign text = [text] :=
    splitTopLevel_of_none (cut?_eq_none balanced (by decide) ⟨'|', by decide, by decide⟩)
  have only : terms text = [[text]] := by
    rw [terms, disjuncts, List.map_singleton, conjuncts]
  rw [read_of_visible levels (by simp [only, visible]), only]
  rfl

/-- A text that shows no operator but signs is a term without a comparison. -/
theorem read_of_balanced (balanced : Balanced Rank.signed.Shows text)
    (visible : Text.isBlankText text = false) (levels : Nat) :
    read (levels + 1) text =
      .disjunction [.conjunction [readSigned (readInside levels) text 0 text]] := by
  rw [read_of_term (balanced.mono (Rank.Shows.loosen (by decide))) visible, readTerm,
    Grammar.comparison?_eq_none balanced]

/-- A wrapped name is read level by level, from wherever so many signs have been read. -/
theorem Wraps.readSigned_eq (wraps : Wraps name levels text) (isName : IsName name) (left signs : Nat) :
    readSigned (readInside left) whole signs text = wrapped name (left - signs) levels := by
  induction wraps generalizing left signs whole with
  | @bare before after blankBefore blankAfter =>
      have balanced : Balanced Rank.operand.Shows (name ++ after) :=
        (isName.balanced _).append (Grammar.balanced_of_blank blankAfter _)
      have visible : Text.isBlankText (name ++ after) = false := by
        simp [Text.isBlankText_append, isName.visible]
      rw [Grammar.readSigned_append blankBefore, Grammar.readSigned_of_balanced balanced visible,
        ← List.nil_append (name ++ after), Grammar.readOperand_surrounded _ rfl blankAfter,
        isName.readOperand_eq, wrapped]
  | sign blank _ inductionHypothesis =>
      rw [Grammar.readSigned_append blank, Grammar.readSigned_sign, inductionHypothesis, wrapped,
        Nat.sub_sub]
  | @parentheses levels before text after blankBefore inside blankAfter inductionHypothesis =>
      have grouped : Balanced Rank.operand.Shows ('(' :: (text ++ [')']) ++ after) := by
        rw [List.cons_append, List.append_assoc, List.singleton_append]
        exact .group ((inside.balanced isName).mono fun _ _ => trivial)
          (Grammar.balanced_of_blank blankAfter _)
      have visible : Text.isBlankText ('(' :: (text ++ [')']) ++ after) = false := rfl
      rw [Grammar.readSigned_append blankBefore, Grammar.readSigned_of_balanced grouped visible,
        ← List.nil_append ('(' :: (text ++ [')']) ++ after),
        Grammar.readOperand_surrounded _ rfl blankAfter,
        Grammar.readOperand_parenthesized _ (inside.balanced isName), readInside]
      cases left - signs with
      | zero => rw [read, wrapped]
      | succ left =>
          rw [read_of_balanced (inside.balanced isName) (inside.visible isName), inductionHypothesis,
            wrapped, Nat.sub_zero]

/-- A wrapped name is read as the tree of its levels. -/
theorem Wraps.ofText_eq {text : String} (wraps : Wraps name levels text.toList)
    (isName : IsName name) :
    ofText text = .disjunction [.conjunction [wrapped name (maximumNesting - 1) levels]] := by
  rw [ofText, maximumNesting, read_of_balanced (wraps.balanced isName) (wraps.visible isName),
    wraps.readSigned_eq isName]

end Reading

/-! ## Evaluating wrapped names -/

section Evaluation

/-- A token is read as a value, as a path, or as a numeral that has no value. -/
theorem ofToken_cases (token : List Char) :
    (∃ operand, ofToken token = .literal operand) ∨ (∃ path, ofToken token = .stored path) ∨
      ∃ numeral, ofToken token = .refused (.invalidNumber numeral) := by
  have numeral : (∃ operand, ofNumeral token = .literal operand) ∨
      ∃ numeral, ofNumeral token = .refused (.invalidNumber numeral) := by
    unfold ofNumeral
    split
    · exact .inr ⟨_, rfl⟩
    · split
      · exact .inl ⟨_, rfl⟩
      · split <;> exact .inl ⟨_, rfl⟩
  unfold ofToken
  split_ifs
  · exact .inl ⟨_, rfl⟩
  · exact .inl ⟨_, rfl⟩
  · exact .inl ⟨_, rfl⟩
  · exact .inl ⟨_, rfl⟩
  · rcases numeral with literal | refused
    · exact .inl literal
    · exact .inr (.inr refused)
  · split
    · exact .inl ⟨_, rfl⟩
    · exact .inr (.inl ⟨_, rfl⟩)

/-- What a level makes of the truth of what is inside. -/
def Wrapper.turn : Wrapper → Bool → Bool
  | .sign, truth => !truth
  | .parentheses, truth => truth

/-- A negation turns the truth of what is inside. -/
theorem holds_negated (inner : Condition) (bag : Bag) :
    (negated inner).holds bag = (inner.holds bag).map Bool.not := by
  rw [holds, value, holds]
  cases inner.value bag <;> rfl

/-- A group has the truth of what is inside. -/
theorem holds_group (inner : Condition) (bag : Bag) :
    (disjunction [.conjunction [inner]]).holds bag = inner.holds bag := by
  simp only [holds, value, any, every]
  cases inner.value bag with
  | error error => rfl
  | ok operand =>
      cases truth : operand.isTruthy <;> simp [Except.map, truth, Grammar.isTruthy_ofBool]

/-- A wrapped name is too deep where a pair of parentheses comes with no level left. Else every sign turns
the truth of the name. -/
theorem holds_wrapped (name : List Char) (left : Nat) (levels : List Wrapper) (bag : Bag) :
    (wrapped name left levels).holds bag =
      if .parentheses ∈ levels.drop left then .error (.tooDeep maximumNesting)
      else ((ofToken name).holds bag).map fun truth => levels.foldr Wrapper.turn truth := by
  induction levels generalizing left with
  | nil => cases held : (ofToken name).holds bag <;> simp [wrapped, held, Except.map]
  | cons level levels inductionHypothesis =>
      cases level with
      | sign =>
          have same : Wrapper.parentheses ∈ (Wrapper.sign :: levels).drop left ↔
              .parentheses ∈ levels.drop (left - 1) := by
            cases left <;> simp
          rw [wrapped, holds_negated, inductionHypothesis]
          simp only [same]
          split
          · rfl
          · cases (ofToken name).holds bag <;> rfl
      | parentheses =>
          cases left with
          | zero => simp [wrapped, holds, value, Except.map]
          | succ left =>
              rw [wrapped, holds_group, inductionHypothesis]
              rfl

/-- The value of a wrapped name. -/
theorem Wraps.evaluate_eq {name : List Char} {levels : List Wrapper} {text : String}
    (wraps : Wraps name levels text.toList) (isName : IsName name) (bag : Bag) :
    evaluate text bag =
      if .parentheses ∈ levels.drop (maximumNesting - 1) then .error (.tooDeep maximumNesting)
      else ((ofToken name).holds bag).map fun truth => levels.foldr Wrapper.turn truth := by
  rw [evaluate, wraps.ofText_eq isName, holds_group, holds_wrapped]

/-- No token is too deep by itself. -/
theorem holds_ofToken_ne (token : List Char) (bag : Bag) (limit : Nat) :
    (ofToken token).holds bag ≠ .error (.tooDeep limit) := by
  rcases ofToken_cases token with ⟨_, read⟩ | ⟨_, read⟩ | ⟨_, read⟩ <;>
    simp [read, holds, value, Except.map]

end Evaluation

/-! ## Heights -/

mutual

/-- How many conditions at most enclose a leaf, one inside of another. As many evaluations are under way
at once when it comes to the leaf. -/
def height : Condition → Nat
  | .refused _ => 0
  | .literal _ => 0
  | .stored _ => 0
  | .compared _ left right => max left.height right.height + 1
  | .negated inner => inner.height + 1
  | .conjunction terms => heightOfAny terms + 1
  | .disjunction terms => heightOfAny terms + 1

/-- The height of the highest of some conditions. -/
def heightOfAny : List Condition → Nat
  | [] => 0
  | term :: terms => max term.height (heightOfAny terms)

end

section Heights

variable {text whole : List Char} {bound : Nat}

/-- Conditions are within a height when each of them is. -/
theorem heightOfAny_le_iff {terms : List Condition} :
    heightOfAny terms ≤ bound ↔ ∀ term ∈ terms, term.height ≤ bound := by
  induction terms with
  | nil => simp [heightOfAny]
  | cons term terms inductionHypothesis =>
      rw [heightOfAny, Nat.max_le, inductionHypothesis, List.forall_mem_cons]

/-- A token encloses nothing. -/
theorem height_ofToken (token : List Char) : (ofToken token).height = 0 := by
  rcases ofToken_cases token with ⟨_, read⟩ | ⟨_, read⟩ | ⟨_, read⟩ <;> rw [read, height]

/-- The signs `!` in a text. -/
def signsIn (text : List Char) : Nat := text.count '!'

/-- A part of a text has no more signs than the text. -/
theorem signsIn_le_of_isInfix {part : List Char} (within : part <:+: text) :
    signsIn part ≤ signsIn text :=
  within.sublist.count_le _

/-- That whatever stands inside parentheses is read no higher than some height and its signs. -/
def ReadsWithin (nested : List Char → Condition) (bound : Nat) : Prop :=
  ∀ inner, (nested inner).height ≤ bound + signsIn inner

/-- An operand is no higher than what it nests and its own signs together. -/
theorem height_readOperand_le {nested : List Char → Condition} (within : ReadsWithin nested bound)
    (text : List Char) : (readOperand nested text).height ≤ bound + signsIn text := by
  have trimmed := signsIn_le_of_isInfix (Text.trim_isInfix text)
  rw [readOperand]
  split
  · exact Nat.zero_le _
  · split
    · rename_i inner encloses
      have inside : inner <:+: Text.trim text := ⟨['('], [')'], (eq_of_enclosed? encloses).symm⟩
      have fewer := signsIn_le_of_isInfix inside
      have read := within inner
      omega
    · rw [height_ofToken]
      exact Nat.zero_le _

/-- Every sign adds one to the height. -/
theorem height_readSigned_le {nested : Nat → List Char → Condition}
    (within : ∀ signs, ReadsWithin (nested signs) bound) (signs : Nat) :
    (readSigned nested whole signs text).height ≤ bound + signsIn text := by
  induction text generalizing signs with
  | nil => exact Nat.zero_le _
  | cons character rest inductionHypothesis =>
      have fewer : signsIn rest ≤ signsIn (character :: rest) :=
        signsIn_le_of_isInfix (List.suffix_cons _ _).isInfix
      rw [readSigned]
      split
      · exact Nat.le_trans (inductionHypothesis signs) (by omega)
      · split
        · rename_i isSign
          subst isSign
          have inside := inductionHypothesis (signs + 1)
          have more : signsIn ('!' :: rest) = signsIn rest + 1 := List.count_cons_self
          rw [height]
          omega
        · exact height_readOperand_le (within signs) _

/-- A term with a comparison is its two sides with the sign between them. -/
theorem eq_append_of_comparison? {comparison : Comparison} {left right : List Char}
    (found : comparison? text = some (comparison, left, right)) :
    text = left ++ (comparison.sign.toList ++ right) := by
  obtain ⟨_, _, cut⟩ := List.exists_of_findSome?_eq_some found
  obtain ⟨parts, isCut, same⟩ := Option.map_eq_some_iff.mp cut
  cases same
  exact eq_append_of_cutFrom isCut

/-- Only one comparison stands in a term. -/
theorem height_readTerm_le {nested : Nat → List Char → Condition}
    (within : ∀ signs, ReadsWithin (nested signs) bound) :
    (readTerm nested whole text).height ≤ bound + 1 + signsIn text := by
  rw [readTerm]
  split
  · rename_i comparison left right found
    have sides := eq_append_of_comparison? found
    have fewerLeft : signsIn left ≤ signsIn text :=
      signsIn_le_of_isInfix ⟨[], comparison.sign.toList ++ right, sides.symm⟩
    have fewerRight : signsIn right ≤ signsIn text :=
      signsIn_le_of_isInfix ⟨left ++ comparison.sign.toList, [], by simpa using sides.symm⟩
    have leftHeight := height_readOperand_le (within 0) left
    have rightHeight := height_readOperand_le (within 0) right
    rw [height]
    omega
  · have signed := @height_readSigned_le text whole bound nested within 0
    omega

/-- The terms of a condition are parts of its text. -/
theorem isInfix_of_mem_terms {conjuncts : List (List Char)} {term : List Char}
    (isConjunction : conjuncts ∈ terms text) (present : term ∈ conjuncts) : term <:+: text := by
  obtain ⟨disjunct, isDisjunct, rfl⟩ := List.mem_map.mp isConjunction
  exact (isInfix_of_mem_splitWithin present).trans (isInfix_of_mem_splitWithin isDisjunct)

/-- A condition is read no higher than the levels allow and its signs add: every level is a disjunction of
conjunctions of terms, each of which is at most one comparison. -/
theorem height_read_le (levels : Nat) (text : List Char) :
    (read levels text).height ≤ 3 * levels + signsIn text := by
  induction levels using Nat.strong_induction_on generalizing text with
  | _ levels inductionHypothesis =>
      cases levels with
      | zero =>
          rw [read, height]
          exact Nat.zero_le _
      | succ deeper =>
          have within (signs : Nat) : ReadsWithin (readInside deeper signs) (3 * deeper) := by
            intro inner
            have nested := inductionHypothesis (deeper - signs) (by omega) inner
            rw [readInside]
            omega
          cases visible : (terms text).any fun conjuncts => conjuncts.any Text.isBlankText with
          | true =>
              rw [read, if_pos visible, height]
              exact Nat.zero_le _
          | false =>
              rw [read_of_visible deeper visible, height, Nat.mul_succ, Nat.add_right_comm]
              refine Nat.succ_le_succ (heightOfAny_le_iff.mpr fun disjunct isDisjunct => ?_)
              obtain ⟨conjuncts, isConjunction, rfl⟩ := List.mem_map.mp isDisjunct
              rw [height]
              refine Nat.succ_le_succ (heightOfAny_le_iff.mpr fun conjunct isConjunct => ?_)
              obtain ⟨term, present, rfl⟩ := List.mem_map.mp isConjunct
              have part := signsIn_le_of_isInfix (isInfix_of_mem_terms isConjunction present)
              have once := @height_readTerm_le term text _ _ within
              omega

/-- A name under signs alone is as high as there are signs. -/
theorem height_wrapped_signs (name : List Char) (left count : Nat) :
    (wrapped name left (List.replicate count .sign)).height = count := by
  induction count generalizing left with
  | zero => exact height_ofToken name
  | succ count inductionHypothesis => rw [List.replicate_succ, wrapped, height, inductionHypothesis]

end Heights

/-! ## The limit -/

/-- A name in any levels is refused as too deep exactly if a pair of parentheses is the 256th level or one
further inside. Whatever its text, a condition is no higher than a fixed bound and the signs in it. -/
theorem nesting_refused_iff (text : String) (bag : Bag) :
    (∀ name levels, IsName name → Wraps name levels text.toList →
        (evaluate text bag = .error (.tooDeep maximumNesting) ↔
          .parentheses ∈ levels.drop (maximumNesting - 1))) ∧
      (ofText text).height ≤ 3 * maximumNesting + signsIn text.toList := by
  refine ⟨fun name levels isName wraps => ?_, height_read_le _ _⟩
  rw [wraps.evaluate_eq isName]
  split
  · rename_i deep
    exact iff_of_true rfl deep
  · rename_i shallow
    refine iff_of_false (fun refused => ?_) shallow
    cases held : (ofToken name).holds bag with
    | ok truth => simp [held, Except.map] at refused
    | error error =>
        simp only [held, Except.map, Except.error.injEq] at refused
        exact holds_ofToken_ne name bag _ (held.trans (congrArg _ refused))

namespace SignedName

/-- A name under so many signs, with something inside of all of them. -/
def spelling (count : Nat) (inside : List Char) : String :=
  String.ofList (List.replicate count '!' ++ inside)

/-- The letter is a name. -/
theorem isName : IsName ['a'] :=
  ⟨List.cons_ne_nil _ _, List.forall_mem_singleton.mpr ⟨rfl, by decide⟩⟩

/-- Signs before a wrapped name wrap it in as many levels more. -/
theorem wraps {levels : List Wrapper} {inside : List Char} (within : Wraps ['a'] levels inside)
    (count : Nat) :
    Wraps ['a'] (List.replicate count .sign ++ levels) (spelling count inside).toList := by
  rw [spelling, String.toList_ofList]
  induction count with
  | zero => exact within
  | succ count inductionHypothesis =>
      rw [List.replicate_succ, List.replicate_succ]
      exact @Wraps.sign _ _ [] _ rfl inductionHypothesis

/-- An even number of signs turns nothing. -/
theorem foldr_turn (count : Nat) (truth : Bool) :
    (List.replicate (2 * count) Wrapper.sign).foldr Wrapper.turn truth = truth := by
  induction count with
  | zero => rfl
  | succ count inductionHypothesis =>
      rw [Nat.mul_succ, List.replicate_succ, List.replicate_succ, List.foldr_cons, List.foldr_cons,
        inductionHypothesis, Wrapper.turn, Wrapper.turn, Bool.not_not]

end SignedName

open SignedName in
/-- The last of 256 levels is refused when it is a pair of parentheses, after 255 signs. -/
theorem exists_refused_signs :
    Wraps ['a'] (List.replicate 255 .sign ++ [.parentheses]) (spelling 255 ['(', 'a', ')']).toList ∧
      evaluate (spelling 255 ['(', 'a', ')']) [] = .error (.tooDeep maximumNesting) := by
  have bare : Wraps ['a'] [] ['a'] := @Wraps.bare _ [] [] rfl rfl
  have inside : Wraps ['a'] [.parentheses] ['(', 'a', ')'] := @Wraps.parentheses _ _ [] _ [] rfl bare rfl
  refine ⟨wraps inside 255, ?_⟩
  exact ((nesting_refused_iff _ []).1 _ _ isName (wraps inside 255)).mpr (by decide)

open SignedName in
/-- A name under 256 signs has a value, and no bound is as high as every condition. -/
theorem exists_unrefused_signs :
    (∃ levels : List Wrapper, maximumNesting ≤ levels.length ∧
      Wraps ['a'] levels (spelling 256 ['a']).toList ∧
        evaluate (spelling 256 ['a']) [] = .ok false) ∧
      ∀ bound, ∃ text : String, bound < (ofText text).height := by
  have bare : Wraps ['a'] [] ['a'] := @Wraps.bare _ [] [] rfl rfl
  refine ⟨⟨_, ?_, wraps bare 256, ?_⟩, fun bound => ⟨spelling bound ['a'], ?_⟩⟩
  · rw [List.length_append, List.length_replicate, maximumNesting]
    exact Nat.le_refl _
  · have name : (ofToken ['a']).holds [] = .ok false := by rfl
    rw [(wraps bare 256).evaluate_eq isName, if_neg (by decide), name, List.append_nil, Except.map,
      foldr_turn 128]
  · rw [(wraps bare bound).ofText_eq isName, List.append_nil]
    have signs := height_wrapped_signs ['a'] (maximumNesting - 1) bound
    simp only [height, heightOfAny, signs]
    omega

end Orchestration.Condition
