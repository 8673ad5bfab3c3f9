import DumpRules.Catalog.Basic
import DumpRules.Clause.Basic

/-!
A constraint is a clause bound to one phase, with the pattern by which its node is looked for there.
-/

namespace DumpRules

set_option autoImplicit false

/-- A clause bound to a phase. -/
structure Constraint where
  /-- The number of the clause in its list, from 1. -/
  index : Nat
  node : String
  phase : Phase
  pattern : Pattern
  /-- Empty for a clause that forbids its node. -/
  relations : List Relation
deriving DecidableEq

namespace Constraint

/-- Binds a clause to a phase. -/
def resolve (catalog : Catalog) (index : Nat) (c : Clause) (phase : Phase) :
    Except ResolveError Constraint :=
  match catalog.pattern c.node phase with
  | .error e => .error e
  | .ok pattern => .ok { index, node := c.node, phase, pattern, relations := c.relations }

/-- Whether a count satisfies every relation. -/
def accepts (c : Constraint) (count : Nat) : Bool :=
  c.relations.all fun r => r.holds count

/-- What is expected, in the form of a report. -/
def expected (c : Constraint) : String :=
  if c.relations.isEmpty then "=0" else expectedText c.relations

/-- A constraint as a clause with its phase before it. -/
def text (c : Constraint) : String :=
  c.phase.name ++ ":" ++ c.node ++ String.join (c.relations.map fun r => " " ++ r.text)

end Constraint

end DumpRules
