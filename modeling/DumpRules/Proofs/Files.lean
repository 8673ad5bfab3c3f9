import DumpRules.Command.Store
import Mathlib.Data.List.Basic

/-!
# What writing a file changes

A command may be run on any files that can be read and written; `FileSystem` says what is expected
of them, whatever their paths look like. A text that may be written is found where its path leads,
and no other file has changed (`FileSystem.Written`).

`Files` is such a file system (`Files.system`). Following a path may make directories and leaves the
files alone (`Files.Grows`), and a path that was followed while making directories leads to the same
place afterwards (`Files.walk_again`).
-/

namespace DumpRules

set_option autoImplicit false

/-! ## File systems -/

/-- Files that can be read and written, with their states `σ`. -/
structure FileSystem (σ : Type) where
  /-- Where a file can be. -/
  Place : Type
  /-- What the file at a place holds, if there is one: a text, or something that is no text. -/
  file? : σ → Place → Option (Option String)
  /-- The place that a path leads to. -/
  place? : σ → String → Option Place
  /-- Whether a file may be written. -/
  allows : σ → String → Bool
  /-- What comes of writing a text to a path. -/
  write : σ → String → String → σ
  written : ∀ s path text, allows s path = true → ∃ place,
    place? (write s path text) path = some place ∧
      file? (write s path text) place = some (some text) ∧
      ∀ other, other ≠ place → file? (write s path text) other = file? s other
  /-- What may not be written may still leave directories, and no file. -/
  refused : ∀ s path text, allows s path = false →
    ∀ place, file? (write s path text) place = file? s place

namespace FileSystem

variable {σ : Type} (fs : FileSystem σ)

/-- The text of a file. -/
def read (s : σ) (path : String) : Option String :=
  (fs.place? s path).bind fun place => (fs.file? s place).join

/-- A file system as a store. -/
def store : Store (StateM σ) where
  read path := fun s => (fs.read s path, s)
  write path text := fun s => (fs.allows s path, fs.write s path text)

/-- No file was created or changed. -/
def Unchanged (s s' : σ) : Prop :=
  ∀ place, fs.file? s' place = fs.file? s place

/-- A text was written to a path: it stands where the path leads, and no other file has changed. -/
structure Written (s : σ) (path text : String) (s' : σ) : Prop where
  read : fs.read s' path = some text
  only : ∃ place, fs.place? s' path = some place ∧
    ∀ other, other ≠ place → fs.file? s' other = fs.file? s other

variable {fs}

theorem written_of_allows {s : σ} {path : String} (allowed : fs.allows s path = true)
    (text : String) : fs.Written s path text (fs.write s path text) := by
  obtain ⟨place, led, holds, others⟩ := fs.written s path text allowed
  refine ⟨?_, place, led, others⟩
  rw [FileSystem.read, led, Option.bind_some, holds]
  rfl

end FileSystem

namespace Files

/-! ## A text at a place -/

theorem lookup_filter_ne {place other : List String} (different : other ≠ place)
    (files : List (List String × Option String)) :
    (files.filter fun (p, _) => p != place).lookup other = files.lookup other := by
  induction files with
  | nil => rfl
  | cons file later ih =>
      obtain ⟨p, content⟩ := file
      by_cases same : p = place
      · have unseen : (other == place) = false := beq_false_of_ne different
        simp [List.lookup_cons, same, unseen, ih]
      · simp [List.lookup_cons, same, ih]

/-- Putting a text at a place changes what the file there holds and no other file. -/
theorem get?_put (f : Files) (place other : List String) (text : String) :
    (f.put place text).get? other = if other = place then some (some text) else f.get? other := by
  unfold get? put
  by_cases same : other = place
  · simp [same]
  · rw [if_neg same, List.lookup_cons, beq_false_of_ne same]
    exact lookup_filter_ne same f.files

/-! ## Directories -/

/-- Nothing but directories is added. -/
structure Grows (f f' : Files) : Prop where
  files : f'.files = f.files
  here : f'.here = f.here
  directories : ∀ p, f.isDirectory p = true → f'.isDirectory p = true

theorem Grows.refl (f : Files) : Grows f f :=
  ⟨rfl, rfl, fun _ directory => directory⟩

theorem Grows.trans {f g h : Files} (first : Grows f g) (second : Grows g h) : Grows f h :=
  ⟨second.files.trans first.files, second.here.trans first.here, fun p directory =>
    second.directories p (first.directories p directory)⟩

theorem Grows.get? {f f' : Files} (grows : Grows f f') (place : List String) :
    f'.get? place = f.get? place := by
  rw [Files.get?, Files.get?, grows.files]

theorem grows_make (f : Files) (place : List String) :
    Grows f { f with directories := place :: f.directories } := by
  refine ⟨rfl, rfl, fun p directory => ?_⟩
  simp only [isDirectory, Bool.or_eq_true, List.contains_cons] at directory ⊢
  rcases directory with (above | made) | holds
  · exact .inl (.inl above)
  · exact .inl (.inr (.inr made))
  · exact .inr holds

/-- Directories stay directories when a file is put anywhere: if the file replaces one, it is found
below the same directories. -/
theorem isDirectory_put {f : Files} {p : List String} (directory : f.isDirectory p = true)
    (place : List String) (text : String) : (f.put place text).isDirectory p = true := by
  simp only [isDirectory, put, Bool.or_eq_true, List.any_eq_true] at directory ⊢
  rcases directory with known | ⟨⟨q, content⟩, member, below⟩
  · exact .inl known
  · right
    by_cases same : q = place
    · exact ⟨(place, some text), List.mem_cons_self, same ▸ below⟩
    · refine ⟨(q, content), List.mem_cons_of_mem _ (List.mem_filter.2 ⟨member, ?_⟩), below⟩
      simpa using same

/-! ## Paths -/

/-- Enters a place, which must be a directory or become one. -/
def enter? (make : Bool) (f : Files) (place : List String) : Option Files :=
  if f.isDirectory place then some f
  else if make && (f.get? place).isNone then
    some { f with directories := place :: f.directories }
  else none

/-- The place that a part of a path leads to. -/
def next (place : List String) (part : String) : List String :=
  if part == "" || part == "." then place
  else if part == ".." then place.dropLast
  else place ++ [part]

theorem walk_cons (make : Bool) (f : Files) (place : List String) (part : String)
    (later : List String) :
    walk make f place (part :: later) =
      (enter? make f place).bind fun f => walk make f (next place part) later := by
  rw [walk]
  congr 1
  funext f
  unfold next
  split
  · rfl
  · split <;> rfl

theorem enter?_eq_some {make : Bool} {f f' : Files} {place : List String}
    (entered : enter? make f place = some f') : Grows f f' ∧ f'.isDirectory place = true := by
  unfold enter? at entered
  split at entered
  · next directory =>
    cases entered
    exact ⟨.refl f, directory⟩
  · split at entered
    · cases entered
      refine ⟨grows_make f place, ?_⟩
      simp [isDirectory]
    · cases entered

theorem walk_grows {make : Bool} {f f' : Files} {place last : List String} {parts : List String}
    (walked : walk make f place parts = some (f', last)) : Grows f f' := by
  induction parts generalizing f place with
  | nil =>
      cases walked
      exact .refl _
  | cons part later ih =>
      rw [walk_cons] at walked
      obtain ⟨g, entered, walked⟩ := Option.bind_eq_some_iff.1 walked
      exact (enter?_eq_some entered).1.trans (ih walked)

/-- A path leads to the same place again wherever the directories on the way are still there. -/
theorem walk_again {make : Bool} {f f' g : Files} {place last : List String} {parts : List String}
    (walked : walk make f place parts = some (f', last))
    (kept : ∀ p, f'.isDirectory p = true → g.isDirectory p = true) :
    walk false g place parts = some (g, last) := by
  induction parts generalizing f place with
  | nil =>
      cases walked
      rfl
  | cons part later ih =>
      rw [walk_cons] at walked
      obtain ⟨h, entered, walked⟩ := Option.bind_eq_some_iff.1 walked
      have directory : g.isDirectory place = true :=
        kept place ((walk_grows walked).directories place (enter?_eq_some entered).2)
      rw [walk_cons, enter?, if_pos directory, Option.bind_some]
      exact ih walked

/-! ## Writing -/

/-- A path leads to the place that was found for writing, also once there is a text. -/
theorem place?_put {f g : Files} {path : String} {place : List String}
    (target : f.target? path = some (g, place)) (text : String) :
    Grows f g ∧ (g.put place text).place? path = some place := by
  obtain ⟨⟨g', last⟩, followed, target⟩ := Option.bind_eq_some_iff.1 target
  dsimp only at target
  split at target
  · cases target
  cases target
  rw [follow, Option.ite_none_left_eq_some] at followed
  obtain ⟨something, walked⟩ := followed
  have grows := walk_grows walked
  have again := walk_again walked fun p directory => isDirectory_put directory place text
  have start : (g.put place text).start path = f.start path := by
    rw [Files.start, Files.start, ← grows.here]
    rfl
  refine ⟨grows, ?_⟩
  rw [place?, follow, if_neg something, start, again]
  rfl

/-- Files in memory are a file system. -/
def system : FileSystem Files where
  Place := List String
  file? := get?
  place? := place?
  allows := allows
  write := write
  written f path text allowed := by
    obtain ⟨⟨g, place⟩, target⟩ := Option.isSome_iff_exists.1 allowed
    obtain ⟨grows, led⟩ := place?_put target text
    have result : f.write path text = g.put place text := by rw [write, target]
    rw [result]
    refine ⟨place, led, ?_, fun other different => ?_⟩
    · rw [get?_put, if_pos rfl]
    · rw [get?_put, if_neg different, grows.get?]
  refused f path text closed place := by
    rw [allows, Option.isSome_eq_false_iff, Option.isNone_iff_eq_none] at closed
    rw [write, closed]

theorem store_system : system.store = store :=
  rfl

end Files

end DumpRules
