/-!
File paths as texts, with `/` between their parts. Nothing is looked up and nothing is simplified:
the directory of a path is what its text has before the last part, and a path within a directory is
the two texts with a separator between them.
-/

namespace DumpRules.Path

set_option autoImplicit false

/-- Drops empty parts and parts `.` from the end of a path, written backwards. -/
def dropTrivial : List Char → List Char
  | '/' :: later => dropTrivial later
  | '.' :: '/' :: later => dropTrivial later
  | ['.'] => []
  | cs => cs

/-- Splits what is special at the start of a path from its parts: a separator, which makes it
absolute, or a part `.`, which counts only there. -/
def splitLead : List Char → List Char × List Char
  | '/' :: later => (['/'], later)
  | ['.'] => (['.'], [])
  | '.' :: '/' :: later => (['.'], '/' :: later)
  | cs => ([], cs)

/-- The directory of a path given as characters. -/
def parentChars? (cs : List Char) : Option (List Char) :=
  let (lead, body) := splitLead cs
  match dropTrivial body.reverse with
  | [] => if lead = ['.'] then some [] else none
  | parts => some (lead ++ (dropTrivial (parts.dropWhile (· ≠ '/'))).reverse)

/-- The directory of a path. The empty path and the root have none. -/
def parent? (path : String) : Option String :=
  (parentChars? path.toList).map String.ofList

/-- The path of a file within a directory; an absolute path stays as it is. -/
def join (directory file : String) : String :=
  if file.toList.head? = some '/' then file
  else
    match directory.toList.getLast? with
    | none => file
    | some '/' => directory ++ file
    | some _ => directory ++ "/" ++ file

/-- The parts of a path from some place in it on, where `part` is the part before that place, written
backwards. -/
def partsFrom (part : List Char) : List Char → List String
  | [] => [String.ofList part.reverse]
  | '/' :: later => String.ofList part.reverse :: partsFrom [] later
  | c :: later => partsFrom (c :: part) later

/-- The parts of a path, empty ones included. -/
def parts (path : String) : List String :=
  partsFrom [] path.toList

end DumpRules.Path
