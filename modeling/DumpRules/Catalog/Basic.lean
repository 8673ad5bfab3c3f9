import DumpRules.Catalog.Pattern
import DumpRules.Phase
import DumpRules.Text.Numbered

/-!
What rules are resolved against: a catalog, which gives the pattern of a node in a phase, and the
machine that the dumps were captured on, which gives the values of flags and the default phases of
nodes. Both are stated here as all that resolution asks of them.
-/

namespace DumpRules

set_option autoImplicit false

/-- Why a node cannot be looked for. -/
inductive ResolveError where
  | unknownNode (node : String)
  | undefinedInPhase (node : String) (phase : Phase)
  | noDefaultPhase (node : String)
deriving DecidableEq

namespace ResolveError

/-- The text of the message. -/
def message : ResolveError → String
  | unknownNode node => s!"Unknown node \"{node}\": it is not registered in the node catalog"
  | undefinedInPhase node phase =>
    s!"Node \"{node}\" is not defined for compile phase {phase.name}"
  | noDefaultPhase node =>
    s!"Node \"{node}\" has no default compile phase under the current VM configuration"

/-- The code under which the error is documented. -/
def code : ResolveError → String
  | unknownNode _ => "irmatch::resolve::unknown_node"
  | undefinedInPhase _ _ => "irmatch::resolve::undefined_in_phase"
  | noDefaultPhase _ => "irmatch::resolve::no_default_phase"

/-- Advice on how to mend the error. -/
def help : ResolveError → Option String
  | unknownNode _ => none
  | undefinedInPhase _ _ => some "pick a phase whose output class the node is registered for"
  | noDefaultPhase _ =>
    some "name the phase explicitly with a prefix, e.g. `FINAL_CODE:LOAD`"

end ResolveError

/-- All reasons why the clauses of a rule cannot be resolved. -/
structure ResolveErrors where
  errors : List ResolveError
deriving DecidableEq

namespace ResolveErrors

/-- The text of the message. -/
def message (es : ResolveErrors) : String :=
  Text.numbered "resolution errors" (es.errors.map ResolveError.message)

/-- The code under which the errors are documented. -/
def code : String := "irmatch::resolve::errors"

end ResolveErrors

/-- Knows nodes and their patterns. -/
structure Catalog where
  contains : String → Bool
  pattern : String → Phase → Except ResolveError Pattern

/-- The machine that dumps were captured on: the values of its flags, and the phase in which a node
is looked for by default. -/
structure Machine where
  flag : String → Option String
  defaultPhase : String → Option Phase

end DumpRules
