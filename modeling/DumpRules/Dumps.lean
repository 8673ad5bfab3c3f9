import DumpRules.Phase

/-!
The texts that a compilation dumped, by phase. A phase may be dumped several times; its texts are
then one after the other, each on a line of its own. A phase that was dumped empty still has a text.
-/

namespace DumpRules

set_option autoImplicit false

/-- The text of each phase that was dumped. -/
structure Dumps where
  text? : Phase → Option String

namespace Dumps

/-- Nothing was dumped. -/
def empty : Dumps := ⟨fun _ => none⟩

/-- A text with another behind it, on a new line. -/
def join (first second : String) : String :=
  if first.toList.getLast? = some '\n' then first ++ second else first ++ "\n" ++ second

/-- Adds a text to a phase. -/
def insert (d : Dumps) (phase : Phase) (text : String) : Dumps where
  text? p :=
    if p = phase then
      match d.text? phase with
      | none => some text
      | some old => some (join old text)
    else d.text? p

/-- Texts of other phases stay as they are. -/
theorem text?_insert_of_ne (d : Dumps) {phase other : Phase} (text : String) (h : other ≠ phase) :
    (d.insert phase text).text? other = d.text? other :=
  if_neg h

/-- The first text of a phase is taken as it is. -/
theorem text?_insert_of_eq_none (d : Dumps) {phase : Phase} (text : String)
    (h : d.text? phase = none) : (d.insert phase text).text? phase = some text := by
  simp [insert, h]

/-- A later text of a phase comes behind those before it. -/
theorem text?_insert_of_eq_some (d : Dumps) {phase : Phase} {old : String} (text : String)
    (h : d.text? phase = some old) :
    (d.insert phase text).text? phase = some (join old text) := by
  simp [insert, h]

/-- Adds texts one after the other. -/
def insertAll (d : Dumps) (texts : List (Phase × String)) : Dumps :=
  texts.foldl (fun d (phase, text) => d.insert phase text) d

/-- The phases that were dumped, in ascending order. -/
def phases (d : Dumps) : List Phase :=
  Phase.all.filter fun p => (d.text? p).isSome

end Dumps

end DumpRules
