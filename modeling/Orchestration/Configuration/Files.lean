/-!
# Files and variables of the surroundings

What a program finds when it begins: texts under paths and variables under names. Paths are taken apart
and put together as texts, by the separators in them, and nothing is looked up for it.
-/

namespace Orchestration

/-- What lies at a path. -/
inductive FileContent where
  | text (content : String)
  /-- There is something, and it cannot be read. -/
  | unreadable (reason : String)
  /-- There is nothing. -/
  | missing (reason : String)
  deriving DecidableEq, Repr

/-- What a program finds. -/
structure Surroundings where
  file : String → FileContent
  /-- The value of an environment variable, if it is set. -/
  setting : String → Option String

/-- True when there is something at a path. -/
def Surroundings.hasFile (surroundings : Surroundings) (path : String) : Bool :=
  match surroundings.file path with
  | .missing _ => false
  | _ => true

namespace FilePath

/-- A path, given from its end, without the separators and the parts for the same directory that it
ends with. -/
def trimReversed : List Char → List Char
  | '/' :: rest => if rest.isEmpty then ['/'] else trimReversed rest
  | '.' :: '/' :: rest => trimReversed ('/' :: rest)
  | path => path

/-- A path without the separators and the parts for the same directory that it ends with. -/
def trim (path : List Char) : List Char :=
  (trimReversed path.reverse).reverse

/-- The last part of a path. -/
def lastPart (path : List Char) : List Char :=
  ((trim path).reverse.takeWhile (· != '/')).reverse

/-- The path of the directory that holds the last part of a path. The root has none, nor has the empty
path. -/
def parent? (path : String) : Option String :=
  let whole := trim path.toList
  if whole.isEmpty || whole = ['/'] then none
  else some (String.ofList (trim (whole.reverse.dropWhile (· != '/')).reverse))

/-- The ending of the last part of a path: what follows its last point, unless the part begins with
it. -/
def ending? (path : String) : Option (List Char) :=
  let part := (lastPart path.toList).reverse
  let ending := part.takeWhile (· != '.')
  match part.drop ending.length with
  | '.' :: stem => if stem.isEmpty || part = ['.', '.'] then none else some ending.reverse
  | _ => none

/-- True of a path that begins at the root. -/
def isAbsolute (path : String) : Bool := path.toList.head? = some '/'

/-- A path seen from another one. -/
def join (base path : String) : String :=
  if isAbsolute path then path
  else if base.isEmpty || base.toList.getLast? = some '/' then base ++ path
  else base ++ "/" ++ path

end FilePath

end Orchestration
