/-!
# Separated texts

Texts whose parts are set apart by one character: dotted paths, lines, items of a file path.
-/

namespace Orchestration.Text

/-- The parts of a text between the occurrences of a separator. There is always at least one part,
and the parts of the empty text are one empty part. -/
def splitOn (separator : Char) : List Char → List (List Char)
  | [] => [[]]
  | character :: rest =>
      if character = separator then [] :: splitOn separator rest
      else
        match splitOn separator rest with
        | [] => [[character]]
        | part :: parts => (character :: part) :: parts

/-- Parts written one after another with a separator between each two. -/
def joinWith (separator : List Char) : List (List Char) → List Char
  | [] => []
  | [part] => part
  | part :: next :: parts => part ++ separator ++ joinWith separator (next :: parts)

/-- A text always has a first part. -/
theorem splitOn_ne_nil (separator : Char) (text : List Char) : splitOn separator text ≠ [] := by
  cases text with
  | nil => simp [splitOn]
  | cons character rest =>
      unfold splitOn
      split
      · simp
      · split <;> simp

end Orchestration.Text
