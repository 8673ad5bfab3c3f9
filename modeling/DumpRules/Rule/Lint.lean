import DumpRules.Rule.Check

/-!
What can be said of rules without any dump: which phases each will be checked in.
-/

namespace DumpRules

set_option autoImplicit false

/-- What is said of an accepted rule. -/
structure LintedRule where
  index : Nat
  name : Option String
  /-- Whether the rule is about the default phases of its nodes. -/
  defaultPhases : Bool
  applicable : Bool
  /-- The phases that will be checked; none if the rule does not apply. -/
  phases : List Phase
  failOn : Nat
  counts : Nat
deriving DecidableEq

namespace LintedRule

/-- What is said of a rule that is ready to be checked. -/
def ofPrepared (r : PreparedRule) : LintedRule :=
  { index := r.rule.index
    name := r.rule.name
    defaultPhases := decide (r.rule.target = .default)
    applicable := r.plan.isSome
    phases :=
      match r.plan with
      | none => []
      | some plan => plan.phases
    failOn := r.rule.clauses.failOn.length
    counts := r.rule.clauses.counts.length }

/-- The line on a rule. -/
def text (r : LintedRule) : String :=
  let label := ruleLabel r.index r.name
  if r.applicable then
    let phases := ", ".intercalate (r.phases.map Phase.name)
    s!"  {label}: {r.failOn} failOn, {r.counts} counts -> {phases}\n"
  else s!"  {label}: not applicable\n"

/-- What is said of a rule, as a document. -/
def toJson (r : LintedRule) : Json :=
  let name : List (String × Json) :=
    match r.name with
    | none => []
    | some name => [("name", .string name)]
  .object ([("rule_index", .nat r.index)] ++ name ++ [
    ("default_phases", .bool r.defaultPhases),
    ("applicable", .bool r.applicable),
    ("phases", .strings (r.phases.map Phase.name)),
    ("fail_on", .nat r.failOn),
    ("counts", .nat r.counts)])

end LintedRule

end DumpRules
