import DumpRules.Suite.Path

/-!
Where commands find and leave their files. A command sees a store only through reading a text and
writing one; `Files` is a store in memory, a tree of directories with the one that a command is run
in.
-/

namespace DumpRules

set_option autoImplicit false

/-- Files as a command sees them. -/
structure Store (m : Type → Type) where
  /-- The text of a file, if there is such a file and it holds text. -/
  read : String → m (Option String)
  /-- Writes a text to a file, making the directories before it; says whether that was possible. -/
  write : String → String → m Bool

/-- Files in memory, each at its place below the root. A file holds a text, or something that is no
text. -/
structure Files where
  files : List (List String × Option String) := []
  directories : List (List String) := []
  /-- Where a path starts that is not absolute. -/
  here : List String := []

namespace Files

/-- What the file at a place holds. -/
def get? (f : Files) (place : List String) : Option (Option String) :=
  f.files.lookup place

/-- Whether a place is a directory: on the way from the root to where we are, one that was made, or
one that holds a file. -/
def isDirectory (f : Files) (place : List String) : Bool :=
  place.isPrefixOf f.here || f.directories.contains place ||
    f.files.any fun (p, _) => place.length < p.length && place.isPrefixOf p

/-- Follows the parts of a path from a place. Every place that is left must be a directory; with
`make`, directories that are missing are made. The root is its own parent. -/
def walk (make : Bool) (f : Files) (place : List String) :
    List String → Option (Files × List String)
  | [] => some (f, place)
  | part :: later =>
    let entered :=
      if f.isDirectory place then some f
      else if make && (f.get? place).isNone then
        some { f with directories := place :: f.directories }
      else none
    entered.bind fun f =>
      if part == "" || part == "." then walk make f place later
      else if part == ".." then walk make f place.dropLast later
      else walk make f (place ++ [part]) later

/-- Where a path starts: at the root if it is absolute. -/
def start (f : Files) (path : String) : List String :=
  if path.toList.head? = some '/' then [] else f.here

/-- Follows a path. The empty path leads nowhere. -/
def follow (make : Bool) (f : Files) (path : String) : Option (Files × List String) :=
  if path.isEmpty then none else walk make f (f.start path) (Path.parts path)

/-- The place that a path leads to. -/
def place? (f : Files) (path : String) : Option (List String) :=
  (follow false f path).map Prod.snd

/-- The text of a file. -/
def read (f : Files) (path : String) : Option String :=
  (f.place? path).bind fun place => (f.get? place).join

/-- Where a path may be written to, with the directories before that place made. -/
def target? (f : Files) (path : String) : Option (Files × List String) := do
  let (f, place) ← follow true f path
  if path.toList.getLast? = some '/' || f.isDirectory place then none else some (f, place)

/-- The files with a text at a place. -/
def put (f : Files) (place : List String) (text : String) : Files :=
  { f with files := (place, some text) :: f.files.filter fun (p, _) => p != place }

/-- Whether a file may be written. -/
def allows (f : Files) (path : String) : Bool :=
  (f.target? path).isSome

/-- Writes a file, making the directories before it, if it may be written. -/
def write (f : Files) (path text : String) : Files :=
  match f.target? path with
  | some (f, place) => f.put place text
  | none => f

/-- Files in memory as a store. -/
def store : Store (StateM Files) where
  read path := fun f => (f.read path, f)
  write path text := fun f => (f.allows path, f.write path text)

end Files

end DumpRules
