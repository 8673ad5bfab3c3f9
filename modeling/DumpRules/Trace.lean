import DumpRules.Phase

/-!
What can be seen of a check from outside while it runs: lines of its log, and requests for the texts
of phases. A step is described by its result together with the events that it causes, so that both
stem from the same look at the dumps.
-/

namespace DumpRules

set_option autoImplicit false

/-- The weight of a line in the log. -/
inductive Level where
  | debug
  | info
  | warn
deriving DecidableEq

/-- The written name of a level. -/
def Level.name : Level → String
  | debug => "DEBUG"
  | info => "INFO"
  | warn => "WARN"

/-- A line of the log. -/
structure LogLine where
  level : Level
  message : String
deriving DecidableEq

/-- A line with its level before it. -/
def LogLine.text (l : LogLine) : String :=
  l.level.name ++ " " ++ l.message

/-- Something that a check does in view of others. -/
inductive Event where
  | log (line : LogLine)
  /-- The text of a phase is asked for. -/
  | request (phase : Phase)
deriving DecidableEq

namespace Event

/-- A line of the log. -/
def line (level : Level) (message : String) : Event :=
  log { level, message }

/-- The lines of the log among some events. -/
def lines (es : List Event) : List LogLine :=
  es.filterMap fun
    | .log l => some l
    | .request _ => none

/-- The phases asked for among some events. -/
def requests (es : List Event) : List Phase :=
  es.filterMap fun
    | .log _ => none
    | .request p => some p

end Event

/-- Something that ran, with what was seen of it. -/
structure Traced (α : Type) where
  value : α
  events : List Event

namespace Traced

variable {α β : Type}

/-- Goes on from a result, with nothing more to be seen. -/
def map (f : α → β) (t : Traced α) : Traced β :=
  { value := f t.value, events := t.events }

/-- Takes a step for each item, in order. -/
def each (step : α → Traced β) : List α → Traced (List β)
  | [] => { value := [], events := [] }
  | a :: later =>
    let first := step a
    let rest := each step later
    { value := first.value :: rest.value, events := first.events ++ rest.events }

@[simp] theorem value_each (step : α → Traced β) (as : List α) :
    (each step as).value = as.map fun a => (step a).value := by
  induction as with
  | nil => rfl
  | cons a later ih => rw [each, ih, List.map_cons]

@[simp] theorem events_each (step : α → Traced β) (as : List α) :
    (each step as).events = as.flatMap fun a => (step a).events := by
  induction as with
  | nil => rfl
  | cons a later ih => rw [each, ih, List.flatMap_cons]

theorem each_congr {step step' : α → Traced β} {as : List α}
    (same : ∀ a ∈ as, step a = step' a) : each step as = each step' as := by
  induction as with
  | nil => rfl
  | cons a later ih =>
      rw [List.forall_mem_cons] at same
      rw [each, each, same.1, ih same.2]

end Traced

end DumpRules
