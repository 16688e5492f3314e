/-!
# Blank characters

White space as Unicode's `White_Space` property defines it, and the removal of it at the two ends of a
text. The zero-width space is not blank; the no-break space and the ideographic space are.
-/

namespace Orchestration.Text

/-- A character with the `White_Space` property. -/
def isBlank (character : Char) : Bool :=
  let codePoint := character.toNat
  (0x9 ≤ codePoint && codePoint ≤ 0xD) || codePoint = 0x20 || codePoint = 0x85 ||
    codePoint = 0xA0 || codePoint = 0x1680 || (0x2000 ≤ codePoint && codePoint ≤ 0x200A) ||
    codePoint = 0x2028 || codePoint = 0x2029 || codePoint = 0x202F || codePoint = 0x205F ||
    codePoint = 0x3000

/-- A text made of blanks alone; the empty text is one. -/
def isBlankText (text : List Char) : Bool :=
  text.all isBlank

/-- A text without the blanks it begins with. -/
def trimStart (text : List Char) : List Char :=
  text.dropWhile isBlank

/-- A text without the blanks it ends with. -/
def trimEnd (text : List Char) : List Char :=
  text.foldr (fun character rest =>
    if rest.isEmpty && isBlank character then [] else character :: rest) []

/-- A text without the blanks at its two ends. -/
def trim (text : List Char) : List Char :=
  trimEnd (trimStart text)

/-- Trimming at the end leaves the empty text exactly when the text is blank. -/
theorem trimEnd_eq_nil_iff {text : List Char} : trimEnd text = [] ↔ isBlankText text = true := by
  induction text with
  | nil => simp [trimEnd, isBlankText]
  | cons character rest inductionHypothesis =>
      simp only [trimEnd, List.foldr_cons, isBlankText, List.all_cons, Bool.and_eq_true] at *
      by_cases blank : isBlank character = true <;>
        by_cases empty : List.foldr (fun character rest =>
          if rest.isEmpty && isBlank character then [] else character :: rest) [] rest = [] <;>
        simp_all

end Orchestration.Text
