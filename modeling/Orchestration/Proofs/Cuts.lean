import Orchestration.Condition.Reading
import Orchestration.Proofs.Scanning
import Orchestration.Text.Separated

/-!
# Cutting a condition into its terms

The scan for an operator begins afresh behind every cut. That makes no difference: a cut lies at the top level,
the sign leaves the scan there, and a scan at the top level stands as a fresh one does. So the parts, each
scanned from its own beginning, are cut where the scan of the whole text comes to a sign at the top level.
-/

namespace Orchestration.Condition

namespace Scan

variable {scan : Scan} {character : Char} {front back sign : List Char}

/-- A scan behind a text. -/
def after (scan : Scan) (text : List Char) : Scan := text.foldl advance scan

/-- A scan behind a text has advanced over its first character and then over the others. -/
theorem after_cons : scan.after (character :: back) = (scan.advance character).after back := rfl

/-- A scan goes on behind the front of a text. -/
theorem after_append : scan.after (front ++ back) = (scan.after front).after back :=
  List.foldl_append

/-- Nothing of what was scanned is kept at the top level. -/
theorem eq_start_of_isTopLevel (top : scan.isTopLevel = true) : scan = start := by
  obtain ⟨depth, quote⟩ := scan
  simp only [isTopLevel, Bool.and_eq_true, decide_eq_true_eq, Option.isNone_iff_eq_none] at top
  rw [top.1, top.2, start]

/-- Characters that open and close nothing leave a scan at the top level as it is. -/
theorem start_after_of_bare (bare : sign.any isStructural = false) : start.after sign = start := by
  induction sign with
  | nil => rfl
  | cons character rest inductionHypothesis =>
      rw [List.any_cons, Bool.or_eq_false_iff] at bare
      have stays : start.advance character = start := by
        simp only [isStructural, Bool.or_eq_false_iff, decide_eq_false_iff_not] at bare
        simp [advance, start, bare]
      rw [after_cons, stays]
      exact inductionHypothesis bare.2

/-- A scan goes on behind a sign at the top level as it goes from the beginning of a text. -/
theorem after_sign (bare : sign.any isStructural = false) (top : (start.after front).isTopLevel = true) :
    start.after (front ++ (sign ++ back)) = start.after back := by
  rw [after_append, after_append, eq_start_of_isTopLevel top, start_after_of_bare bare]

end Scan

variable {sign text before : List Char} {scan : Scan}

/-- That a sign stands at the top level of a text, as counted from the text's beginning, behind a part of it. -/
structure StandsBehind (sign text before : List Char) : Prop where
  stands : before ++ sign <+: text
  top : (Scan.start.after before).isTopLevel = true

section First

/-- A cut lies at the top level. -/
theorem isTopLevel_of_cutFrom {parts : List Char × List Char} (cut : cutFrom sign scan text = some parts) :
    (scan.after parts.1).isTopLevel = true := by
  induction text generalizing scan parts with
  | nil => cases cut
  | cons character rest inductionHypothesis =>
      rw [cutFrom] at cut
      split at cut
      · rename_i stands
        simp only [Bool.and_eq_true] at stands
        cases cut
        exact stands.1.1
      · obtain ⟨inner, found, rfl⟩ := Option.map_eq_some_iff.mp cut
        rw [Scan.after_cons]
        exact inductionHypothesis found

/-- No sign at the top level stands before the cut. -/
theorem exists_cutFrom (signed : sign ≠ []) (bare : sign.any isStructural = false)
    (stands : before ++ sign <+: text) (top : (scan.after before).isTopLevel = true) :
    ∃ parts, cutFrom sign scan text = some parts ∧ parts.1.length ≤ before.length := by
  induction before generalizing scan text with
  | nil =>
      obtain ⟨opening, others, rfl⟩ := List.exists_cons_of_ne_nil signed
      obtain ⟨rest, rfl⟩ := stands
      rw [List.any_cons, Bool.or_eq_false_iff] at bare
      have here : (opening :: others).isPrefixOf (opening :: (others ++ rest)) = true :=
        List.isPrefixOf_iff_prefix.mpr ⟨rest, rfl⟩
      have atTop : scan.isTopLevel = true := top
      rw [List.nil_append, List.cons_append, cutFrom, atTop, bare.1, here]
      exact ⟨_, rfl, Nat.le_refl 0⟩
  | cons character others inductionHypothesis =>
      obtain ⟨behind, rfl⟩ := stands
      rw [List.cons_append, List.cons_append, cutFrom]
      split
      · exact ⟨_, rfl, Nat.zero_le _⟩
      · obtain ⟨parts, found, first⟩ := inductionHypothesis ⟨behind, rfl⟩ top
        rw [found]
        exact ⟨_, rfl, Nat.succ_le_succ first⟩

/-- Without a cut no sign stands at the top level. -/
theorem not_standsBehind_of_cut?_eq_none (signed : sign ≠ []) (bare : sign.any isStructural = false)
    (uncut : cut? sign text = none) : ¬ StandsBehind sign text before := by
  intro stands
  obtain ⟨parts, found, -⟩ := exists_cutFrom signed bare stands.stands stands.top
  rw [cut?, found] at uncut
  cases uncut

/-- Before the first cut no sign stands at the top level. -/
theorem not_standsBehind_before_cut {front back : List Char} (signed : sign ≠ [])
    (bare : sign.any isStructural = false) (cut : cut? sign text = some (front, back)) :
    ¬ StandsBehind sign front before := by
  intro stands
  have within : before ++ sign <+: text :=
    stands.stands.trans ⟨sign ++ back, (eq_append_of_cutFrom cut).symm⟩
  obtain ⟨parts, found, first⟩ := exists_cutFrom signed bare within stands.top
  obtain rfl : parts = (front, back) := Option.some.inj (found.symm.trans cut)
  have notBehind : front.length ≤ before.length := first
  have fits : (before ++ sign).length ≤ front.length := stands.stands.length_le
  have positive : 0 < sign.length := List.length_pos_iff.mpr signed
  rw [List.length_append] at fits
  omega

end First

/-- That a text falls into parts at a sign: what is before the first cut, and the parts of what is behind it. -/
inductive FallsInto (sign : List Char) : List Char → List (List Char) → Prop where
  | uncut {text : List Char} (uncut : cut? sign text = none) : FallsInto sign text [text]
  | cut {text before after : List Char} {parts : List (List Char)}
      (cut : cut? sign text = some (before, after)) (rest : FallsInto sign after parts) :
      FallsInto sign text (before :: parts)

/-- Splitting at a sign gives the parts that a text falls into. -/
theorem fallsInto_splitTopLevel (signed : sign ≠ []) (text : List Char) :
    FallsInto sign text (splitTopLevel sign text) := by
  induction size : text.length using Nat.strong_induction_on generalizing text with
  | h size inductionHypothesis =>
      cases found : cut? sign text with
      | none =>
          rw [splitTopLevel_of_none found]
          exact .uncut found
      | some parts =>
          have shorter : parts.2.length < text.length := length_after_cutFrom_lt signed found
          rw [splitTopLevel_of_cut signed found]
          exact .cut found (inductionHypothesis _ (by omega) parts.2 rfl)

namespace FallsInto

variable {parts : List (List Char)}

/-- There is always a part. -/
theorem ne_nil (falls : FallsInto sign text parts) : parts ≠ [] := by
  cases falls <;> exact List.cons_ne_nil _ _

/-- The parts with the sign between them are the text. -/
theorem joinWith_eq (falls : FallsInto sign text parts) : Text.joinWith sign parts = text := by
  induction falls with
  | uncut => rfl
  | @cut text before after parts cut rest inductionHypothesis =>
      obtain ⟨part, others, rfl⟩ := List.exists_cons_of_ne_nil rest.ne_nil
      rw [Text.joinWith, inductionHypothesis, List.append_assoc]
      exact (eq_append_of_cutFrom cut).symm

/-- No part has the sign at its top level. -/
theorem not_standsBehind (signed : sign ≠ []) (bare : sign.any isStructural = false)
    (falls : FallsInto sign text parts) {part : List Char} (present : part ∈ parts) :
    ¬ StandsBehind sign part before := by
  induction falls with
  | uncut uncut =>
      obtain rfl := List.mem_singleton.mp present
      exact not_standsBehind_of_cut?_eq_none signed bare uncut
  | cut cut _ inductionHypothesis =>
      rcases List.mem_cons.mp present with rfl | later
      · exact not_standsBehind_before_cut signed bare cut
      · exact inductionHypothesis later

/-- Between each two parts the sign stands at the top level of the whole text. -/
theorem standsBehind (bare : sign.any isStructural = false) (falls : FallsInto sign text parts)
    {front back : List (List Char)} (divided : parts = front ++ back) (begun : front ≠ [])
    (unfinished : back ≠ []) : StandsBehind sign text (Text.joinWith sign front) := by
  induction falls generalizing front with
  | uncut =>
      have sizes := congrArg List.length divided
      have frontSize : 0 < front.length := List.length_pos_iff.mpr begun
      have backSize : 0 < back.length := List.length_pos_iff.mpr unfinished
      rw [List.length_singleton, List.length_append] at sizes
      omega
  | @cut text before after parts cut rest inductionHypothesis =>
      have whole : text = before ++ (sign ++ after) := eq_append_of_cutFrom cut
      have top : (Scan.start.after before).isTopLevel = true := isTopLevel_of_cutFrom cut
      obtain ⟨first, others, rfl⟩ := List.exists_cons_of_ne_nil begun
      obtain ⟨rfl, dividedRest⟩ := List.cons_eq_cons.mp divided
      cases others with
      | nil =>
          refine ⟨⟨after, ?_⟩, top⟩
          rw [whole, Text.joinWith, List.append_assoc]
      | cons next others =>
          obtain ⟨⟨behind, stands⟩, topBehind⟩ :=
            inductionHypothesis dividedRest (List.cons_ne_nil next others)
          refine ⟨⟨behind, ?_⟩, ?_⟩
          · rw [whole, ← stands, Text.joinWith]
            simp only [List.append_assoc]
          · rw [Text.joinWith, List.append_assoc, Scan.after_sign bare top]
            exact topBehind

end FallsInto

/-- A text is cut at the signs of a connective where they stand at its top level: the parts with the sign between
them are the text, no part has the sign at its own top level, and every cut is at a sign at the top level of the
whole text. -/
theorem cuts_at_top_level (known : sign = orSign ∨ sign = andSign) (text : List Char) :
    Text.joinWith sign (splitTopLevel sign text) = text ∧
    (∀ part ∈ splitTopLevel sign text, ∀ before, ¬ StandsBehind sign part before) ∧
    ∀ front back, splitTopLevel sign text = front ++ back → front ≠ [] → back ≠ [] →
      StandsBehind sign text (Text.joinWith sign front) := by
  have signed : sign ≠ [] := by rcases known with rfl | rfl <;> decide
  have bare : sign.any isStructural = false := by rcases known with rfl | rfl <;> decide
  have falls := fallsInto_splitTopLevel signed text
  refine ⟨falls.joinWith_eq, ?_, ?_⟩
  · intro part present before
    exact falls.not_standsBehind signed bare present
  · intro front back divided begun unfinished
    exact falls.standsBehind bare divided begun unfinished

/-- Of two signs that overlap the first one cuts, and an unfinished quotation hides those behind it. -/
theorem cuts_overlapping_signs :
    splitTopLevel orSign "a|||b||(c||d)||'e||".toList =
      ["a".toList, "|b".toList] ++ ["(c||d)".toList, "'e||".toList] ∧
    (∀ before, ¬ StandsBehind orSign "'e||".toList before) ∧
    StandsBehind orSign "a|||b||(c||d)||'e||".toList "a|||b".toList := by
  have divided : splitTopLevel orSign "a|||b||(c||d)||'e||".toList =
      ["a".toList, "|b".toList] ++ ["(c||d)".toList, "'e||".toList] := by decide
  obtain ⟨-, hidden, cuts⟩ := cuts_at_top_level (.inl rfl) "a|||b||(c||d)||'e||".toList
  exact ⟨divided, hidden _ (by rw [divided]; decide), cuts _ _ divided (by decide) (by decide)⟩

end Orchestration.Condition
