import Orchestration.Proofs.Expressions
import Orchestration.Proofs.Footprints

/-!
# Where the references of a text stand

A reference may stand where a word begins, and there the longest one is taken. What is no part of a
reference is passed over one character at a time, and the search goes on behind what it has taken. This says
where the references of a text are without saying how they are searched for, and there is one way only to
divide a text so. The bag has no part in it: every reference that leads somewhere is replaced after the text
has been divided, and what is put in its place is never looked at again.
-/

namespace Orchestration.Expression

/-! ## Where a text is divided -/

section Division

/-- That a word begins or ends between two texts. -/
def IsBoundary (before after : List Char) : Prop :=
  before.getLast?.any Text.isWord ≠ after.head?.any Text.isWord

/-- That a part of a text may be a reference, given what comes before it and after it. -/
structure Occurs (before path after : List Char) : Prop where
  boundary : IsBoundary before (path ++ after)
  reference : ∃ reference : Reference, reference.text = path

/-- That a part of a text is the longest one that may be a reference from its first character on. -/
structure IsTaken (before path after : List Char) : Prop extends Occurs before path after where
  longest : ∀ longer further, longer ++ further = path ++ after → Occurs before longer further →
    longer.length ≤ path.length

/-- How a text is divided, given what comes before it: a reference is taken as soon as there is one, and
any other character stands for itself. -/
inductive Divides : List Char → List Char → List Piece → Prop where
  | nil {before : List Char} : Divides before [] []
  | reference {before path after : List Char} {parts : List Piece} (taken : IsTaken before path after)
      (others : Divides (before ++ path) after parts) :
      Divides before (path ++ after) (.reference path :: parts)
  | plain {before rest : List Char} {character : Char} {parts : List Piece}
      (nowhere : ∀ path after, path ++ after = character :: rest → ¬ Occurs before path after)
      (others : Divides (before ++ [character]) rest parts) :
      Divides before (character :: rest) (.plain character :: parts)

/-- No reference is empty. -/
theorem Occurs.ne_nil {before path after : List Char} (occurs : Occurs before path after) : path ≠ [] := by
  obtain ⟨-, ⟨first, others, words, begins⟩, rfl⟩ := occurs
  rw [Reference.text, joinWith_eq]
  exact List.append_ne_nil_of_left_ne_nil (words first List.mem_cons_self).1 _

/-- The pieces of a division make up the text. -/
theorem Divides.text {before text : List Char} {parts : List Piece} (divides : Divides before text parts) :
    parts.flatMap Piece.text = text := by
  induction divides with
  | nil => rfl
  | reference _ _ inductionHypothesis => rw [List.flatMap_cons, inductionHypothesis, Piece.text]
  | plain _ _ inductionHypothesis => rw [List.flatMap_cons, inductionHypothesis, Piece.text]; rfl

/-- A text is divided in one way only. -/
theorem Divides.unique {before text : List Char} {parts others : List Piece}
    (first : Divides before text parts) (second : Divides before text others) : parts = others := by
  induction first generalizing others with
  | nil =>
      generalize same : ([] : List Char) = text at second
      cases second with
      | nil => rfl
      | reference taken => exact absurd (List.append_eq_nil_iff.mp same.symm).1 taken.ne_nil
      | plain => cases same
  | @reference before path after parts taken _ inductionHypothesis =>
      generalize same : path ++ after = text at second
      cases second with
      | nil => exact absurd (List.append_eq_nil_iff.mp same).1 taken.ne_nil
      | @reference _ other further _ otherTaken rest =>
          have lengths : path.length = other.length :=
            le_antisymm (otherTaken.longest path after same taken.toOccurs)
              (taken.longest other further same.symm otherTaken.toOccurs)
          obtain ⟨rfl, rfl⟩ := List.append_inj same lengths
          rw [inductionHypothesis rest]
      | plain nowhere => exact absurd taken.toOccurs (nowhere path after same)
  | @plain before rest character parts nowhere _ inductionHypothesis =>
      generalize same : character :: rest = text at second
      cases second with
      | nil => cases same
      | @reference _ path after _ taken => exact absurd taken.toOccurs (nowhere path after same.symm)
      | plain _ others =>
          obtain ⟨rfl, rfl⟩ := List.cons.inj same
          rw [inductionHypothesis others]

end Division

/-! ## The search -/

section Search

variable {character : Char} {word rest text : List Char}

/-- What may follow the first character of a reference: ASCII word characters, and points that each have
such a character after them. -/
inductive Continues : List Char → Prop where
  | nil : Continues []
  | word {character : Char} {rest : List Char} (plain : Text.isPlainWord character = true)
      (more : Continues rest) : Continues (character :: rest)
  | name {character : Char} {rest : List Char} (plain : Text.isPlainWord character = true)
      (more : Continues rest) : Continues ('.' :: character :: rest)

/-- Word characters may stand before anything that continues a reference. -/
theorem continues_append (plain : word.all Text.isPlainWord = true) (more : Continues rest) :
    Continues (word ++ rest) := by
  induction word with
  | nil => exact more
  | cons character word inductionHypothesis =>
      obtain ⟨first, others⟩ := Bool.and_eq_true_iff.mp plain
      exact .word first (inductionHypothesis others)

/-- Any number of names, each behind a point, continue a reference. -/
theorem continues_names {names : List (List Char)}
    (words : ∀ name ∈ names, name ≠ [] ∧ name.all Text.isPlainWord = true) :
    Continues (names.flatMap ('.' :: ·)) := by
  induction names with
  | nil => exact .nil
  | cons name names inductionHypothesis =>
      obtain ⟨⟨nonempty, plain⟩, others⟩ := List.forall_mem_cons.mp words
      obtain ⟨character, rest, rfl⟩ := List.exists_cons_of_ne_nil nonempty
      obtain ⟨first, all⟩ := Bool.and_eq_true_iff.mp plain
      exact .name first (continues_append all (inductionHypothesis others))

/-- What continues a reference ends its first name and attaches further ones. -/
theorem Continues.exists_names (more : Continues text) : ∃ (word : List Char) (names : List (List Char)),
    text = word ++ names.flatMap ('.' :: ·) ∧ word.all Text.isPlainWord = true ∧
      ∀ name ∈ names, name ≠ [] ∧ name.all Text.isPlainWord = true := by
  induction more with
  | nil => exact ⟨[], [], rfl, rfl, fun _ within => nomatch within⟩
  | @word character rest plain _ inductionHypothesis =>
      obtain ⟨word, names, rfl, all, words⟩ := inductionHypothesis
      exact ⟨character :: word, names, rfl, Bool.and_eq_true_iff.mpr ⟨plain, all⟩, words⟩
  | @name character rest plain _ inductionHypothesis =>
      obtain ⟨word, names, rfl, all, words⟩ := inductionHypothesis
      exact ⟨[], (character :: word) :: names, rfl, rfl, List.forall_mem_cons.mpr
        ⟨⟨List.cons_ne_nil _ _, Bool.and_eq_true_iff.mpr ⟨plain, all⟩⟩, words⟩⟩

/-- The first character of a reference is an ASCII word character. -/
theorem isPlainWord_of_startsReference (starts : startsReference character = true) :
    Text.isPlainWord character = true := by
  rw [startsReference, Bool.or_eq_true] at starts
  rw [Text.isPlainWord, Char.isAlphanum, Bool.or_eq_true, Bool.or_eq_true]
  exact starts.imp_left .inl

/-- The texts that are references, character by character. -/
theorem exists_reference_iff : (∃ reference : Reference, reference.text = text) ↔
    ∃ character rest, text = character :: rest ∧ startsReference character = true ∧ Continues rest := by
  constructor
  · rintro ⟨⟨first, others, words, begins⟩, rfl⟩
    obtain ⟨⟨nonempty, plain⟩, othersPlain⟩ := List.forall_mem_cons.mp words
    obtain ⟨character, word, rfl⟩ := List.exists_cons_of_ne_nil nonempty
    refine ⟨character, word ++ others.flatMap ('.' :: ·), joinWith_eq _ _, begins, ?_⟩
    exact continues_append (Bool.and_eq_true_iff.mp plain).2 (continues_names othersPlain)
  · rintro ⟨character, rest, rfl, starts, more⟩
    obtain ⟨word, names, rfl, all, words⟩ := more.exists_names
    have plain := Bool.and_eq_true_iff.mpr ⟨isPlainWord_of_startsReference starts, all⟩
    exact ⟨⟨character :: word, names, List.forall_mem_cons.mpr ⟨⟨List.cons_ne_nil _ _, plain⟩, words⟩, starts⟩,
      joinWith_eq _ _⟩

/-- A reference may stand after anything but a word character. -/
theorem occurs_iff {before path after : List Char} : Occurs before path after ↔
    before.getLast?.any Text.isWord = false ∧
      ∃ character rest, path = character :: rest ∧ startsReference character = true ∧ Continues rest := by
  have boundary {character : Char} {rest : List Char} (starts : startsReference character = true) :
      IsBoundary before (character :: rest ++ after) ↔ before.getLast?.any Text.isWord = false := by
    have isWord := Text.isWord_of_isPlainWord (isPlainWord_of_startsReference starts)
    simp [IsBoundary, isWord]
  constructor
  · rintro ⟨atBoundary, isReference⟩
    obtain ⟨character, rest, rfl, starts, more⟩ := exists_reference_iff.mp isReference
    exact ⟨(boundary starts).mp atBoundary, character, rest, rfl, starts, more⟩
  · rintro ⟨noWord, character, rest, rfl, starts, more⟩
    exact ⟨(boundary starts).mpr noWord, exists_reference_iff.mpr ⟨character, rest, rfl, starts, more⟩⟩

/-- A reference ends with a word character. -/
theorem Continues.any_getLast (more : Continues rest) (plain : Text.isPlainWord character = true)
    (before : List Char) : (before ++ character :: rest).getLast?.any Text.isWord = true := by
  induction more generalizing character before with
  | nil => simp [Text.isWord_of_isPlainWord plain]
  | @word next rest nextPlain _ inductionHypothesis =>
      simpa using inductionHypothesis nextPlain (before ++ [character])
  | @name next rest nextPlain _ inductionHypothesis =>
      simpa using inductionHypothesis nextPlain (before ++ [character, '.'])

/-- That a text is the longest one to continue a reference with at the front of another. -/
structure IsLongest (more text : List Char) : Prop where
  continues : Continues more
  longest : ∀ longer further, longer ++ further = text → Continues longer → longer.length ≤ more.length

/-- A word character continues a reference, and the longest one goes on behind it. -/
theorem isLongest_word {more : List Char} (plain : Text.isPlainWord character = true)
    (isLongest : IsLongest more rest) : IsLongest (character :: more) (character :: rest) := by
  refine ⟨.word plain isLongest.continues, fun longer further same continues => ?_⟩
  cases continues with
  | nil => exact Nat.zero_le _
  | word _ others =>
      exact Nat.succ_le_succ (isLongest.longest _ further (List.cons.inj same).2 others)
  | name =>
      obtain ⟨rfl, -⟩ := List.cons.inj same
      cases plain

/-- A point before a word character continues a reference, and the longest one goes on behind them. -/
theorem isLongest_name {more : List Char} (plain : Text.isPlainWord character = true)
    (isLongest : IsLongest more rest) : IsLongest ('.' :: character :: more) ('.' :: character :: rest) := by
  refine ⟨.name plain isLongest.continues, fun longer further same continues => ?_⟩
  cases continues with
  | nil => exact Nat.zero_le _
  | word point =>
      obtain ⟨rfl, -⟩ := List.cons.inj same
      cases point
  | name _ others =>
      obtain ⟨-, same⟩ := List.cons.inj same
      exact Nat.add_le_add_right (isLongest.longest _ further (List.cons.inj same).2 others) 2

/-- Nothing continues a reference where there is neither a word character nor a point with one after it. -/
theorem isLongest_nil
    (noPlain : ∀ character rest, text = character :: rest → Text.isPlainWord character = false)
    (noName : ∀ character rest, text = '.' :: character :: rest → Text.isPlainWord character = false) :
    IsLongest [] text := by
  refine ⟨.nil, fun longer further same continues => ?_⟩
  subst same
  cases continues with
  | nil => exact le_rfl
  | word plain => exact absurd plain (Bool.eq_false_iff.mp (noPlain _ _ rfl))
  | name plain => exact absurd plain (Bool.eq_false_iff.mp (noName _ _ rfl))

/-- The search takes nothing more where nothing continues the reference. -/
theorem piecesFrom_inside_stop (path : List Char)
    (noPlain : ∀ character rest, text = character :: rest → Text.isPlainWord character = false)
    (noName : ∀ character rest, text = '.' :: character :: rest → Text.isPlainWord character = false) :
    piecesFrom (.inside path) text = .reference path :: piecesFrom (.outside true) text := by
  match text with
  | [] => rfl
  | character :: rest =>
      have notPlain := noPlain character rest rfl
      by_cases isPoint : character = '.'
      · subst isPoint
        match rest with
        | [] => rfl
        | next :: rest =>
            have nextNotPlain := noName next rest rfl
            have notStarts : startsReference next = false := Bool.eq_false_iff.mpr fun starts =>
              Bool.eq_false_iff.mp nextNotPlain (isPlainWord_of_startsReference starts)
            simp [piecesFrom, notPlain, nextNotPlain, notStarts]
      · simp [piecesFrom, notPlain, isPoint]

/-- In a reference the search takes as much as it can and goes on behind that. -/
theorem piecesFrom_inside_eq (path text : List Char) : ∃ more further, text = more ++ further ∧
    IsLongest more text ∧
    piecesFrom (.inside path) text = .reference (path ++ more) :: piecesFrom (.outside true) further := by
  by_cases word : ∃ character rest, text = character :: rest ∧ Text.isPlainWord character = true
  · obtain ⟨character, rest, rfl, plain⟩ := word
    obtain ⟨more, further, same, isLongest, divided⟩ := piecesFrom_inside_eq (path ++ [character]) rest
    refine ⟨character :: more, further, congrArg _ same, isLongest_word plain isLongest, ?_⟩
    rw [piecesFrom_letter plain, divided, List.append_assoc]
    rfl
  by_cases name : ∃ character rest, text = '.' :: character :: rest ∧ Text.isPlainWord character = true
  · obtain ⟨character, rest, rfl, plain⟩ := name
    obtain ⟨more, further, same, isLongest, divided⟩ := piecesFrom_inside_eq (path ++ ['.', character]) rest
    refine ⟨'.' :: character :: more, further, congrArg _ (congrArg _ same), isLongest_name plain isLongest, ?_⟩
    rw [piecesFrom_point plain, divided, List.append_assoc]
    rfl
  · have noPlain character rest (same : text = character :: rest) : Text.isPlainWord character = false :=
      Bool.eq_false_iff.mpr fun plain => word ⟨character, rest, same, plain⟩
    have noName character rest (same : text = '.' :: character :: rest) : Text.isPlainWord character = false :=
      Bool.eq_false_iff.mpr fun plain => name ⟨character, rest, same, plain⟩
    refine ⟨[], text, rfl, isLongest_nil noPlain noName, ?_⟩
    rw [piecesFrom_inside_stop path noPlain noName, List.append_nil]
termination_by text.length

/-- The search divides a text as it is to be divided. -/
theorem divides_piecesFrom (before text : List Char) :
    Divides before text (piecesFrom (.outside (before.getLast?.any Text.isWord)) text) := by
  match text with
  | [] => exact .nil
  | character :: rest =>
      by_cases starts : startsReference character = true ∧ before.getLast?.any Text.isWord = false
      · obtain ⟨starts, noWord⟩ := starts
        obtain ⟨more, further, rfl, isLongest, divided⟩ := piecesFrom_inside_eq [character] rest
        have afterWord : (before ++ character :: more).getLast?.any Text.isWord = true :=
          isLongest.continues.any_getLast (isPlainWord_of_startsReference starts) before
        have others := divides_piecesFrom (before ++ character :: more) further
        rw [afterWord] at others
        have pieces : piecesFrom (.outside (before.getLast?.any Text.isWord)) (character :: (more ++ further)) =
            .reference (character :: more) :: piecesFrom (.outside true) further := by
          rw [noWord, piecesFrom_starts starts, divided]
          rfl
        rw [pieces]
        refine .reference ⟨occurs_iff.mpr ⟨noWord, _, _, rfl, starts, isLongest.continues⟩, ?_⟩ others
        intro longer behind same occurs
        obtain ⟨-, _, continued, rfl, -, continues⟩ := occurs_iff.mp occurs
        exact Nat.succ_le_succ (isLongest.longest continued behind (List.cons.inj same).2 continues)
      · have others := divides_piecesFrom (before ++ [character]) rest
        rw [List.getLast?_append_cons] at others
        rw [piecesFrom_stays (by simpa using starts)]
        refine .plain (fun path after same occurs => ?_) others
        obtain ⟨noWord, _, _, rfl, begins, -⟩ := occurs_iff.mp occurs
        obtain ⟨rfl, -⟩ := List.cons.inj same
        exact starts ⟨begins, noWord⟩
termination_by text.length
decreasing_by all_goals simp_all; try omega

/-- The pieces of a text are the only way to divide it. -/
theorem divides_iff {text : List Char} {parts : List Piece} : Divides [] text parts ↔ parts = pieces text := by
  refine ⟨fun divides => divides.unique (divides_piecesFrom [] text), ?_⟩
  rintro rfl
  exact divides_piecesFrom [] text

end Search

/-! ## What is put in -/

section Insertion

/-- What becomes of a piece in a bag: a reference that leads somewhere becomes the text of the value there,
and everything else stays as it is. -/
inductive Becomes (bag : Bag) : Piece → List Char → Prop where
  | plain (character : Char) : Becomes bag (.plain character) [character]
  | resolved {path : List Char} {value : Value} (leads : bag.get? (String.ofList path) = some value) :
      Becomes bag (.reference path) value.spliced.toList
  | unresolved {path : List Char} (leadsNowhere : bag.get? (String.ofList path) = none) :
      Becomes bag (.reference path) path

/-- Substitution makes of a piece what becomes of it. -/
theorem becomes_substitute (bag : Bag) (piece : Piece) : Becomes bag piece (piece.substitute bag) := by
  cases piece with
  | plain character => exact .plain character
  | reference path =>
      rw [Piece.substitute]
      split
      · exact .resolved ‹_›
      · exact .unresolved ‹_›

/-- Substitution is a single pass that reads its references and nothing else. There is one way to divide a
text at its references, found without any bag. In every bag each piece becomes what it leads to or stays, and
these texts are put together unread. So bags in which the references lead to the same values give the same
text and the same value. -/
theorem substitute_reads_references (text : String) : ∃ parts : List Piece,
    (∀ division, Divides [] text.toList division ↔ division = parts) ∧
    (∀ bag, ∃ inserted, List.Forall₂ (Becomes bag) parts inserted ∧
      substitute text.toList bag = inserted.flatten) ∧
    ∀ bag other : Bag, (∀ path, .reference path ∈ parts →
        bag.get? (String.ofList path) = other.get? (String.ofList path)) →
      substitute text.toList bag = substitute text.toList other ∧ evaluate text bag = evaluate text other := by
  refine ⟨pieces text.toList, fun division => divides_iff, fun bag => ?_, fun bag other agree => ?_⟩
  · refine ⟨(pieces text.toList).map (Piece.substitute bag), ?_, List.flatMap_def⟩
    exact List.forall₂_map_right_iff.mpr (List.forall₂_same.mpr fun piece _ => becomes_substitute bag piece)
  · have same : ∀ path ∈ references text, bag.get? path = other.get? path := by
      intro path within
      rw [← String.ofList_toList (s := path)] at within ⊢
      exact agree path.toList (mem_references_iff.mp within)
    exact ⟨substitute_congr same, evaluate_congr same⟩

/-- The text of one variable names another one, which has no part in the outcome. -/
theorem substitute_reads_references_name :
    let bag : Bag := [("fee", .number (.integer 2)), ("name", .text "fee")]
    let other : Bag := [("fee", .number (.integer 3)), ("name", .text "fee")]
    substitute "name + 1".toList bag = "fee + 1".toList ∧
      evaluate "name + 1" bag = evaluate "name + 1" other := by
  intro bag other
  obtain ⟨parts, divides, -, agree⟩ := substitute_reads_references "name + 1"
  obtain rfl := (divides (pieces _)).mp (divides_iff.mpr rfl)
  refine ⟨by decide, (agree bag other fun path within => ?_).2⟩
  have divided : pieces "name + 1".toList =
      [.reference "name".toList, .plain ' ', .plain '+', .plain ' ', .plain '1'] := by decide
  obtain rfl : path = "name".toList := by
    rw [divided] at within
    simpa using within
  rfl

end Insertion
end Orchestration.Expression
