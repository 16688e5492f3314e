/-!
# Finding and cutting at the top level

An operator counts only where no parenthesis is open and no quotation is running. A scan keeps the
two in its state: the depth, which an unmatched closing parenthesis makes negative, and the quote that
has to come to end the quotation. Cutting a text starts a fresh scan after every cut.
-/

namespace Orchestration.Condition

/-- Where a scan stands. -/
structure Scan where
  depth : Int
  quote : Option Char
  deriving DecidableEq, Repr

/-- A scan at the beginning of a text. -/
def Scan.start : Scan := ⟨0, none⟩

/-- True of the characters that change where a scan stands. -/
def isStructural (character : Char) : Bool :=
  character = '"' || character = '\'' || character = '(' || character = ')'

/-- A scan after one more character. -/
def Scan.advance (scan : Scan) (character : Char) : Scan :=
  match scan.quote with
  | some quote => if character = quote then ⟨scan.depth, none⟩ else scan
  | none =>
      if character = '"' || character = '\'' then ⟨scan.depth, some character⟩
      else if character = '(' then ⟨scan.depth + 1, none⟩
      else if character = ')' then ⟨scan.depth - 1, none⟩
      else scan

/-- True where an operator counts. -/
def Scan.isTopLevel (scan : Scan) : Bool :=
  scan.depth = 0 && scan.quote.isNone

/-- Cuts a text at the first place at the top level where a sign stands: what is before the sign and
what is after it. -/
def cutFrom (sign : List Char) (scan : Scan) : List Char → Option (List Char × List Char)
  | [] => none
  | character :: rest =>
      if scan.isTopLevel && !isStructural character && sign.isPrefixOf (character :: rest) then
        some ([], (character :: rest).drop sign.length)
      else
        (cutFrom sign (scan.advance character) rest).map fun parts =>
          (character :: parts.1, parts.2)

/-- Cuts a text at the first top-level occurrence of a sign. -/
def cut? (sign : List Char) (text : List Char) : Option (List Char × List Char) :=
  cutFrom sign .start text

/-- What is after a cut is shorter than the text, whatever the sign. -/
theorem length_after_cutFrom_lt {sign : List Char} {scan : Scan} {text : List Char}
    {parts : List Char × List Char} (signed : sign ≠ []) (cut : cutFrom sign scan text = some parts) :
    parts.2.length < text.length := by
  induction text generalizing scan parts with
  | nil => simp [cutFrom] at cut
  | cons character rest inductionHypothesis =>
      unfold cutFrom at cut
      split at cut
      · simp only [Option.some.injEq] at cut
        subst cut
        have : 0 < sign.length := List.length_pos_iff.mpr signed
        simp only [List.length_drop, List.length_cons]
        omega
      · simp only [Option.map_eq_some_iff] at cut
        obtain ⟨inner, found, rfl⟩ := cut
        have := inductionHypothesis found
        simp only [List.length_cons]
        omega

/-- The parts of a text between the top-level occurrences of a sign, each scanned from its own
beginning. Every cut takes at least one character, so the text's length bounds their number. -/
def splitWithin (sign : List Char) : Nat → List Char → List (List Char)
  | 0, text => [text]
  | bound + 1, text =>
      match cut? sign text with
      | some (before, after) => before :: splitWithin sign bound after
      | none => [text]

/-- The parts of a text between the top-level occurrences of a sign. -/
def splitTopLevel (sign : List Char) (text : List Char) : List (List Char) :=
  splitWithin sign text.length text

/-- Scans a text that begins with a parenthesis, and tells whether that parenthesis stays open up to
the last character. An unfinished quotation hides every parenthesis after it. -/
def staysOpen (scan : Scan) : List Char → Bool
  | [] => true
  | character :: rest =>
      let next := scan.advance character
      if scan.quote.isNone && character = ')' && next.depth = 0 && !rest.isEmpty then false
      else staysOpen next rest

/-- What a pair of parentheses around the whole text encloses. -/
def enclosed? (text : List Char) : Option (List Char) :=
  match text with
  | '(' :: rest =>
      if rest.getLast? = some ')' && staysOpen .start text then some rest.dropLast else none
  | _ => none

/-- What a pair of equal quotes around the whole text encloses. -/
def quotation? (text : List Char) : Option (List Char) :=
  match text with
  | quote :: rest =>
      if (quote = '"' || quote = '\'') && rest.getLast? = some quote then some rest.dropLast
      else none
  | [] => none

end Orchestration.Condition
