import DumpRules.Clause.Basic
import DumpRules.Text.Numbered

/-!
What can be wrong with a list of clauses. Every fault knows the list and the stretch of text that it
is about. All faults of a list are reported together; a text that is no list at all has one.
-/

namespace DumpRules

set_option autoImplicit false

/-- The kinds of fault in a list of clauses. -/
inductive Fault where
  /-- The text is no list; `expected` says what could have stood where it goes wrong. -/
  | unexpected (expected : String)
  | unknownComparator (token node : String)
  | invalidBound (token node : String)
  | missingBound (comparator node : String)
  | missingRelation (node : String)
  | unknownPhase (name : String)
  | placeholderPhase (node : String)
  | duplicatePhase (phase : Phase) (node : String)
deriving DecidableEq

/-- A fault in a list of clauses, with its place. -/
structure ClauseError where
  list : ListKind
  span : Span
  fault : Fault
deriving DecidableEq

namespace ClauseError

/-- The text of the message. -/
def message (e : ClauseError) : String :=
  match e.fault with
  | .unexpected expected => s!"Syntax error in {e.list.label}: {expected}"
  | .unknownComparator token node => s!"Unknown comparator '{token}' for node \"{node}\""
  | .invalidBound token node =>
    s!"Invalid bound '{token}' for node \"{node}\": expected a non-negative integer"
  | .missingBound comparator node =>
    s!"Comparator '{comparator}' for node \"{node}\" is missing its bound"
  | .missingRelation node => s!"Counts entry for node \"{node}\" has no comparator or bound"
  | .unknownPhase name => s!"Unknown compile phase '{name}'"
  | .placeholderPhase node => s!"DEFAULT cannot be used as an explicit phase for node \"{node}\""
  | .duplicatePhase phase node =>
    s!"Compile phase {phase.name} is listed twice for node \"{node}\""

/-- The code under which the fault is documented. -/
def code (e : ClauseError) : String :=
  match e.fault with
  | .unexpected _ => "irmatch::parse::syntax"
  | .unknownComparator _ _ => "irmatch::parse::unknown_comparator"
  | .invalidBound _ _ => "irmatch::parse::invalid_bound"
  | .missingBound _ _ => "irmatch::parse::missing_bound"
  | .missingRelation _ => "irmatch::parse::missing_relation"
  | .unknownPhase _ => "irmatch::parse::unknown_phase"
  | .placeholderPhase _ => "irmatch::parse::default_prefix"
  | .duplicatePhase _ _ => "irmatch::parse::duplicate_phase"

/-- Advice on how to mend the fault. -/
def help (e : ClauseError) : Option String :=
  match e.fault with
  | .unknownComparator _ _ =>
    some "valid comparators are: = != < <= > >= (or eq, ne, lt, le, gt, ge)"
  | .missingRelation _ =>
    some "write the expected count after the node, e.g. `LOAD = 1` or `LOAD >= 1`"
  | .placeholderPhase _ => some "drop the prefix to use the node's default phase"
  | _ => none

/-- What is written under the marked stretch of text. -/
def label (e : ClauseError) : String :=
  match e.fault with
  | .unexpected _ => "here"
  | .unknownComparator _ _ => "unknown comparator"
  | .invalidBound _ _ => "not a count"
  | .missingBound _ _ => "bound expected after this"
  | .missingRelation _ => "count expected"
  | .unknownPhase _ => "unknown phase"
  | .placeholderPhase _ => "placeholder phase"
  | .duplicatePhase _ _ => "duplicate"

end ClauseError

/-- What is reported of a list, or of both lists of a rule: one fault, or several. -/
inductive ListError where
  | one (e : ClauseError)
  | many (es : List ClauseError)
deriving DecidableEq

namespace ListError

/-- The faults, in the order of the text. -/
def leaves : ListError → List ClauseError
  | one e => [e]
  | many es => es

/-- The report of some faults. -/
def ofLeaves : List ClauseError → ListError
  | [e] => one e
  | es => many es

/-- The text of the message. -/
def message : ListError → String
  | one e => e.message
  | many es => Text.numbered "parse errors" (es.map ClauseError.message)

/-- The code under which the report is documented. -/
def code : ListError → String
  | one e => e.code
  | many _ => "irmatch::parse::multiple"

/-- Advice on how to mend a single fault. -/
def help : ListError → Option String
  | one e => e.help
  | many _ => none

@[simp] theorem leaves_ofLeaves (es : List ClauseError) : (ofLeaves es).leaves = es := by
  unfold ofLeaves
  split <;> rfl

end ListError

end DumpRules
