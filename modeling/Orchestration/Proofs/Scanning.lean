import Mathlib.Data.List.Induction
import Mathlib.Data.List.TakeWhile
import Orchestration.Condition.Scan
import Orchestration.Text.Blank

/-!
# Scanning balanced texts

A balanced text closes every quotation and every parenthesis it opens. A scan that enters one comes out
of it as it went in, so a sign that cannot begin in the text, or that stands inside a parenthesis, is
looked for behind the text. From that follow where a text is cut, into which parts it falls, and that a
parenthesis at its front is closed by the one at its end.
-/

namespace Orchestration

namespace Text

variable {blanks text : List Char}

/-- A text is blank when both of its parts are. -/
theorem isBlankText_append :
    isBlankText (blanks ++ text) = (isBlankText blanks && isBlankText text) :=
  List.all_append

/-- Removing the blanks at the front also removes blanks written in front of a text. -/
theorem trimStart_append (blank : isBlankText blanks = true) :
    trimStart (blanks ++ text) = trimStart text := by
  induction blanks with
  | nil => rfl
  | cons character rest inductionHypothesis =>
      simp only [isBlankText, List.all_cons, Bool.and_eq_true] at blank
      simpa [trimStart, blank.1] using inductionHypothesis blank.2

/-- Blanks at the end are taken off. -/
theorem trimEnd_append (blank : isBlankText blanks = true) :
    trimEnd (text ++ blanks) = trimEnd text := by
  have nothing : trimEnd blanks = [] := trimEnd_eq_nil_iff.mpr blank
  rw [trimEnd] at nothing
  rw [trimEnd, List.foldr_append, nothing, trimEnd]

/-- Nothing is taken off behind a visible character. -/
theorem trimEnd_concat {last : Char} (visible : isBlank last = false) :
    trimEnd (text ++ [last]) = text ++ [last] := by
  induction text with
  | nil => simp [trimEnd, visible]
  | cons character rest inductionHypothesis =>
      rw [trimEnd] at inductionHypothesis ⊢
      rw [List.cons_append, List.foldr_cons, inductionHypothesis]
      simp

/-- Blanks around a text make no difference to what trimming leaves of it. -/
theorem trim_surrounded {before after : List Char} (blankBefore : isBlankText before = true)
    (blankAfter : isBlankText after = true) : trim (before ++ (text ++ after)) = trim text := by
  rw [trim, trimStart_append blankBefore, trimStart, List.dropWhile_append]
  split
  · next empty =>
      have blank : after.dropWhile isBlank = [] :=
        List.dropWhile_eq_nil_iff.mpr (List.all_eq_true.mp blankAfter)
      rw [trim, trimStart, blank, List.isEmpty_iff.mp empty]
  · exact trimEnd_append blankAfter

/-- A text that begins and ends with something visible is left as it is. -/
theorem trim_enclosed {first last : Char} (visibleFirst : isBlank first = false)
    (visibleLast : isBlank last = false) :
    trim (first :: (text ++ [last])) = first :: (text ++ [last]) := by
  have kept : trimStart (first :: (text ++ [last])) = first :: (text ++ [last]) := by
    simp [trimStart, visibleFirst]
  rw [trim, kept, ← List.cons_append, trimEnd_concat visibleLast]

/-- A text without blanks stays as it is. -/
theorem trim_of_visible (visible : ∀ character ∈ text, isBlank character = false) :
    trim text = text := by
  have kept : trimStart text = text := by
    cases text with
    | nil => rfl
    | cons first rest => simp [trimStart, visible first List.mem_cons_self]
  rw [trim, kept]
  cases text using List.reverseRecOn with
  | nil => rfl
  | append_singleton front last => exact trimEnd_concat (visible last (by simp))

/-- What is left of a text is the front of it. -/
theorem trimEnd_isPrefix (text : List Char) : trimEnd text <+: text := by
  induction text with
  | nil => exact List.prefix_rfl
  | cons character rest inductionHypothesis =>
      rw [trimEnd] at inductionHypothesis ⊢
      rw [List.foldr_cons]
      split
      · exact List.nil_prefix
      · exact List.cons_prefix_cons.mpr ⟨rfl, inductionHypothesis⟩

/-- Trimming leaves a part of a text. -/
theorem trim_isInfix (text : List Char) : trim text <:+: text :=
  (trimEnd_isPrefix _).isInfix.trans (List.dropWhile_suffix _).isInfix
end Text

namespace Condition

/-- A text that closes every quotation and parenthesis it opens, and whose characters outside them are
all among the given ones. -/
inductive Balanced : (Char → Prop) → List Char → Prop where
  | nil {shown : Char → Prop} : Balanced shown []
  | plain {shown : Char → Prop} {character : Char} {rest : List Char}
      (bare : isStructural character = false) (among : shown character)
      (balanced : Balanced shown rest) : Balanced shown (character :: rest)
  | quoted {shown : Char → Prop} {quote : Char} {content rest : List Char}
      (opens : quote = '"' ∨ quote = '\'') (absent : quote ∉ content)
      (balanced : Balanced shown rest) : Balanced shown (quote :: (content ++ quote :: rest))
  | group {shown : Char → Prop} {inner rest : List Char}
      (inside : Balanced (fun _ => True) inner) (balanced : Balanced shown rest) :
      Balanced shown ('(' :: (inner ++ ')' :: rest))

namespace Balanced

variable {shown wider : Char → Prop} {text rest : List Char}

/-- A balanced text stays balanced when more characters may show. -/
theorem mono (balanced : Balanced shown text) (weaken : ∀ character, shown character → wider character) :
    Balanced wider text := by
  induction balanced with
  | nil => exact .nil
  | plain bare among _ inductionHypothesis =>
      exact .plain bare (weaken _ among) (inductionHypothesis weaken)
  | quoted opens absent _ inductionHypothesis =>
      exact .quoted opens absent (inductionHypothesis weaken)
  | group inside _ _ inductionHypothesis => exact .group inside (inductionHypothesis weaken)

/-- Balanced texts make a balanced text. -/
theorem append (balanced : Balanced shown text) (others : Balanced shown rest) :
    Balanced shown (text ++ rest) := by
  induction balanced with
  | nil => exact others
  | plain bare among _ inductionHypothesis => exact .plain bare among (inductionHypothesis others)
  | quoted opens absent _ inductionHypothesis =>
      rw [List.cons_append, List.append_assoc, List.cons_append]
      exact .quoted opens absent (inductionHypothesis others)
  | group inside _ _ inductionHypothesis =>
      rw [List.cons_append, List.append_assoc, List.cons_append]
      exact .group inside (inductionHypothesis others)

/-- A text without structure is balanced when all its characters may show. -/
theorem of_forall
    (plain : ∀ character ∈ text, isStructural character = false ∧ shown character) :
    Balanced shown text := by
  induction text with
  | nil => exact .nil
  | cons character rest inductionHypothesis =>
      obtain ⟨bare, among⟩ := plain character List.mem_cons_self
      exact .plain bare among
        (inductionHypothesis fun other within => plain other (List.mem_cons_of_mem _ within))

/-- A character that opens nothing is among the given ones, and what follows it is balanced. -/
theorem of_cons {character : Char} (balanced : Balanced shown (character :: rest))
    (bare : isStructural character = false) : shown character ∧ Balanced shown rest := by
  cases balanced with
  | plain _ among balanced => exact ⟨among, balanced⟩
  | quoted opens => rcases opens with rfl | rfl <;> simp [isStructural] at bare
  | group => simp [isStructural] at bare

/-- Characters that open nothing and stand at the front of a balanced text are among the given ones. -/
theorem shown_of_append {sign : List Char} (bare : sign.any isStructural = false)
    (balanced : Balanced shown (sign ++ rest)) : ∀ character ∈ sign, shown character := by
  induction sign with
  | nil => simp
  | cons first others inductionHypothesis =>
      rw [List.any_cons, Bool.or_eq_false_iff] at bare
      obtain ⟨among, balanced⟩ := balanced.of_cons bare.1
      have amongOthers := inductionHypothesis bare.2 balanced
      rintro character within
      rcases List.mem_cons.mp within with rfl | within
      · exact among
      · exact amongOthers character within

end Balanced

section Cutting

variable {shown : Char → Prop} {sign text rest before after : List Char} {opening quote : Char}
  {depth : Int}

/-- A scan takes a quotation up to its closing quote as it is. -/
theorem cutFrom_quotation {content : List Char} (absent : quote ∉ content) :
    cutFrom sign ⟨depth, some quote⟩ (content ++ quote :: rest) =
      (cutFrom sign ⟨depth, none⟩ rest).map fun parts =>
        (content ++ quote :: parts.1, parts.2) := by
  induction content with
  | nil => simp [cutFrom, Scan.isTopLevel, Scan.advance]
  | cons character others inductionHypothesis =>
      simp only [List.mem_cons, not_or] at absent
      simp [cutFrom, Scan.isTopLevel, Scan.advance, Ne.symm absent.1, inductionHypothesis absent.2,
        Function.comp_def]

/-- No cut is made within a quotation. -/
theorem cutFrom_quote (opens : quote = '"' ∨ quote = '\'') {content : List Char}
    (absent : quote ∉ content) :
    cutFrom sign ⟨depth, none⟩ (quote :: (content ++ quote :: rest)) =
      (cutFrom sign ⟨depth, none⟩ rest).map fun parts =>
        (quote :: (content ++ quote :: parts.1), parts.2) := by
  have structural : isStructural quote = true := by
    rcases opens with rfl | rfl <;> rfl
  have entered : Scan.advance ⟨depth, none⟩ quote = ⟨depth, some quote⟩ := by
    rcases opens with rfl | rfl <;> rfl
  simp [cutFrom, structural, entered, cutFrom_quotation absent, Function.comp_def]

/-- A scan goes through a balanced text when a sign cannot begin in it: because a parenthesis is open,
or because the text does not show the character the sign begins with. -/
theorem cutFrom_append (balanced : Balanced shown text) (begins : sign.head? = some opening)
    (nonnegative : 0 ≤ depth) (hidden : depth = 0 → ¬ shown opening) :
    cutFrom sign ⟨depth, none⟩ (text ++ rest) =
      (cutFrom sign ⟨depth, none⟩ rest).map fun parts => (text ++ parts.1, parts.2) := by
  induction balanced generalizing depth rest with
  | nil => simp
  | @plain shown character others bare among _ inductionHypothesis =>
      obtain ⟨tail, rfl⟩ : ∃ tail, sign = opening :: tail := List.head?_eq_some_iff.mp begins
      have passes : (Scan.isTopLevel ⟨depth, none⟩ && !isStructural character &&
          (opening :: tail).isPrefixOf (character :: (others ++ rest))) = false := by
        by_cases top : depth = 0
        · have different : opening ≠ character := by
            rintro rfl
            exact hidden top among
          simp [List.isPrefixOf, different]
        · simp [Scan.isTopLevel, top]
      have stays : Scan.advance ⟨depth, none⟩ character = ⟨depth, none⟩ := by
        simp only [isStructural, Bool.or_eq_false_iff, decide_eq_false_iff_not] at bare
        simp [Scan.advance, bare]
      rw [List.cons_append, cutFrom, passes, stays, inductionHypothesis nonnegative hidden]
      simp [Function.comp_def]
  | quoted opens absent _ inductionHypothesis =>
      rw [List.cons_append, List.append_assoc, List.cons_append, cutFrom_quote opens absent,
        inductionHypothesis nonnegative hidden]
      simp [Function.comp_def]
  | @group shown inner others _ _ insideHypothesis inductionHypothesis =>
      have inside : ∀ rest, cutFrom sign ⟨depth + 1, none⟩ (inner ++ rest) =
          (cutFrom sign ⟨depth + 1, none⟩ rest).map fun parts => (inner ++ parts.1, parts.2) :=
        fun _ => insideHypothesis (by omega) (by omega)
      rw [List.cons_append, List.append_assoc, List.cons_append]
      simp [cutFrom, isStructural, Scan.advance, inside, inductionHypothesis nonnegative hidden,
        Function.comp_def]

/-- A sign with a character that a balanced text does not show is nowhere at its top level. -/
theorem cut?_eq_none (balanced : Balanced shown text)
    (bare : sign.any isStructural = false)
    (strange : ∃ character ∈ sign, ¬ shown character) : cut? sign text = none := by
  obtain ⟨stranger, within, notShown⟩ := strange
  have nowhere : ∀ {rest}, Balanced shown rest → sign.isPrefixOf rest = false := by
    intro rest balanced
    refine Bool.eq_false_iff.mpr fun found => ?_
    obtain ⟨tail, rfl⟩ := List.isPrefixOf_iff_prefix.mp found
    exact notShown (balanced.shown_of_append bare stranger within)
  obtain ⟨opening, begins⟩ : ∃ opening, sign.head? = some opening := by
    cases sign with
    | nil => simp at within
    | cons opening _ => exact ⟨opening, rfl⟩
  rw [cut?, Scan.start]
  induction balanced with
  | nil => rfl
  | @plain shown character others isBare among balanced inductionHypothesis =>
      have stays : Scan.advance ⟨0, none⟩ character = ⟨0, none⟩ := by
        simp only [isStructural, Bool.or_eq_false_iff, decide_eq_false_iff_not] at isBare
        simp [Scan.advance, isBare]
      rw [cutFrom, nowhere (.plain isBare among balanced), stays, inductionHypothesis notShown nowhere]
      simp
  | quoted opens absent _ inductionHypothesis =>
      rw [cutFrom_quote opens absent, inductionHypothesis notShown nowhere, Option.map_none]
  | @group shown inner others inside _ _ inductionHypothesis =>
      have skipped : ∀ rest, cutFrom sign ⟨1, none⟩ (inner ++ rest) =
          (cutFrom sign ⟨1, none⟩ rest).map fun parts => (inner ++ parts.1, parts.2) :=
        fun _ => cutFrom_append inside begins (by omega) (by omega)
      simp [cutFrom, isStructural, Scan.advance, skipped, inductionHypothesis notShown nowhere]

/-- A text is cut at a sign whose first character nothing before the sign shows. -/
theorem cut?_append (balanced : Balanced shown before) (begins : sign.head? = some opening)
    (bare : isStructural opening = false) (hidden : ¬ shown opening) :
    cut? sign (before ++ (sign ++ after)) = some (before, after) := by
  obtain ⟨tail, rfl⟩ : ∃ tail, sign = opening :: tail := List.head?_eq_some_iff.mp begins
  have found : (opening :: tail).isPrefixOf (opening :: (tail ++ after)) = true :=
    List.isPrefixOf_iff_prefix.mpr ⟨after, by simp⟩
  rw [cut?, Scan.start, cutFrom_append balanced begins (Int.le_refl 0) fun _ => hidden, List.cons_append,
    cutFrom, found]
  simp [Scan.isTopLevel, bare]

/-- A text is what is before a cut, the sign, and what is after it. -/
theorem eq_append_of_cutFrom {scan : Scan} {parts : List Char × List Char}
    (cut : cutFrom sign scan text = some parts) : text = parts.1 ++ (sign ++ parts.2) := by
  induction text generalizing scan parts with
  | nil => cases cut
  | cons character rest inductionHypothesis =>
      unfold cutFrom at cut
      split at cut
      · rename_i stands
        simp only [Bool.and_eq_true, List.isPrefixOf_iff_prefix] at stands
        obtain ⟨after, isText⟩ := stands.2
        cases cut
        rw [← isText, List.drop_left, List.nil_append]
      · obtain ⟨inner, found, rfl⟩ := Option.map_eq_some_iff.mp cut
        exact congrArg (character :: ·) (inductionHypothesis found)

end Cutting

section Splitting

variable {sign text before after : List Char}

/-- Two bounds that a text's length does not exceed give the same parts. -/
theorem splitWithin_congr (signed : sign ≠ []) {bound other : Nat} (reaches : text.length ≤ bound)
    (otherReaches : text.length ≤ other) : splitWithin sign bound text = splitWithin sign other text := by
  induction bound generalizing other text with
  | zero =>
      obtain rfl : text = [] := List.length_eq_zero_iff.mp (by omega)
      cases other <;> rfl
  | succ bound inductionHypothesis =>
      cases other with
      | zero =>
          obtain rfl : text = [] := List.length_eq_zero_iff.mp (by omega)
          rfl
      | succ other =>
          simp only [splitWithin]
          cases found : cut? sign text with
          | none => rfl
          | some parts =>
              have shorter := length_after_cutFrom_lt signed found
              exact congrArg (parts.1 :: ·) (inductionHypothesis (by omega) (by omega))

/-- A text is split at its first cut and then behind it. -/
theorem splitTopLevel_of_cut (signed : sign ≠ []) (cut : cut? sign text = some (before, after)) :
    splitTopLevel sign text = before :: splitTopLevel sign after := by
  have shorter : after.length < text.length := length_after_cutFrom_lt signed cut
  obtain ⟨bound, length⟩ : ∃ smaller, text.length = smaller + 1 := ⟨text.length - 1, by omega⟩
  rw [splitTopLevel, length, splitWithin, cut]
  exact congrArg (before :: ·) (splitWithin_congr signed (by omega) (Nat.le_refl _))

/-- A text without a cut is its only part. -/
theorem splitTopLevel_of_none (cut : cut? sign text = none) : splitTopLevel sign text = [text] := by
  cases length : text.length <;> simp [splitTopLevel, length, splitWithin, cut]

/-- Every part stands somewhere in the text. -/
theorem isInfix_of_mem_splitWithin {part : List Char} {bound : Nat}
    (present : part ∈ splitWithin sign bound text) : part <:+: text := by
  induction bound generalizing text with
  | zero => exact (List.mem_singleton.mp present) ▸ List.infix_rfl
  | succ bound inductionHypothesis =>
      rw [splitWithin] at present
      split at present
      · rename_i before after cut
        have whole := eq_append_of_cutFrom cut
        rcases List.mem_cons.mp present with rfl | inRest
        · exact ⟨[], sign ++ after, whole.symm⟩
        · refine (inductionHypothesis inRest).trans ⟨before ++ sign, [], ?_⟩
          simpa using whole.symm
      · exact (List.mem_singleton.mp present) ▸ List.infix_rfl

end Splitting

section Enclosing

variable {shown : Char → Prop} {text rest : List Char} {depth : Int}

/-- A quotation opens and closes no parentheses. -/
theorem staysOpen_quote {quote : Char} (opens : quote = '"' ∨ quote = '\'') {content : List Char}
    (absent : quote ∉ content) :
    staysOpen ⟨depth, none⟩ (quote :: (content ++ quote :: rest)) = staysOpen ⟨depth, none⟩ rest := by
  have entered : Scan.advance ⟨depth, none⟩ quote = ⟨depth, some quote⟩ ∧ quote ≠ ')' := by
    rcases opens with rfl | rfl <;> exact ⟨rfl, by decide⟩
  have passed : staysOpen ⟨depth, some quote⟩ (content ++ quote :: rest) =
      staysOpen ⟨depth, none⟩ rest := by
    clear opens entered
    induction content with
    | nil => simp [staysOpen, Scan.advance]
    | cons character others inductionHypothesis =>
        simp only [List.mem_cons, not_or] at absent
        simp [staysOpen, Scan.advance, Ne.symm absent.1, inductionHypothesis absent.2]
  simp [staysOpen, entered, passed]

/-- A parenthesis that is open before a balanced text is open behind it. -/
theorem staysOpen_append (balanced : Balanced shown text) (opened : 0 < depth) :
    staysOpen ⟨depth, none⟩ (text ++ rest) = staysOpen ⟨depth, none⟩ rest := by
  induction balanced generalizing depth rest with
  | nil => rfl
  | plain bare _ _ inductionHypothesis =>
      simp only [isStructural, Bool.or_eq_false_iff, decide_eq_false_iff_not] at bare
      simp [staysOpen, Scan.advance, bare, inductionHypothesis opened]
  | quoted opens absent _ inductionHypothesis =>
      rw [List.cons_append, List.append_assoc, List.cons_append, staysOpen_quote opens absent,
        inductionHypothesis opened]
  | @group shown inner others _ _ insideHypothesis inductionHypothesis =>
      have inside : ∀ rest, staysOpen ⟨depth + 1, none⟩ (inner ++ rest) =
          staysOpen ⟨depth + 1, none⟩ rest := fun _ => insideHypothesis (by omega)
      have stillOpen : depth ≠ 0 := by omega
      rw [List.cons_append, List.append_assoc, List.cons_append]
      simp [staysOpen, Scan.advance, inside, stillOpen, inductionHypothesis opened]

/-- Parentheses around a balanced text enclose it. -/
theorem enclosed?_parenthesized (balanced : Balanced shown text) :
    enclosed? ('(' :: (text ++ [')'])) = some text := by
  have closed : staysOpen .start ('(' :: (text ++ [')'])) = true := by
    have opened : staysOpen ⟨1, none⟩ (text ++ [')']) = staysOpen ⟨1, none⟩ [')'] :=
      staysOpen_append balanced (by omega)
    simpa [staysOpen, Scan.start, Scan.advance] using opened
  simp [enclosed?, closed]

/-- What parentheses enclose stands between them. -/
theorem eq_of_enclosed? {inner : List Char} (encloses : enclosed? text = some inner) :
    text = '(' :: (inner ++ [')']) := by
  unfold enclosed? at encloses
  split at encloses
  · rename_i rest
    split at encloses
    · rename_i closes
      simp only [Bool.and_eq_true, decide_eq_true_eq] at closes
      obtain ⟨front, rfl⟩ := List.getLast?_eq_some_iff.mp closes.1
      cases encloses
      rw [List.dropLast_concat]
    · cases encloses
  · cases encloses

end Enclosing

end Condition

end Orchestration
