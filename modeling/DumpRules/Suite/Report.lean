import DumpRules.Rule.Lint
import DumpRules.Suite.Manifest

/-!
The reports on a whole suite: what came of checking it, and what can be said of its rules without
dumps.
-/

namespace DumpRules

set_option autoImplicit false

/-- What came of checking a suite. -/
structure SuiteReport where
  suiteName : String
  flags : Bindings String
  rules : List RuleReport

namespace SuiteReport

/-- The number of rules that fail. -/
def failedRules (r : SuiteReport) : Nat :=
  r.rules.countP RuleReport.isFailure

/-- Whether no rule fails. -/
def isPass (r : SuiteReport) : Bool :=
  r.failedRules == 0

/-- The report in words. -/
def text (r : SuiteReport) : String :=
  let headline :=
    if r.isPass then s!"Suite {r.suiteName}: PASS ({r.rules.length} rule(s))\n"
    else s!"Suite {r.suiteName}: FAIL ({r.failedRules} of {r.rules.length} rule(s) failed)\n"
  headline ++ String.join (r.rules.map fun rule => "  " ++ indented rule.text ++ "\n")

/-- The report as a document, its fields in ascending order of their names. -/
def toJson (r : SuiteReport) : Json :=
  Json.sorted <| .object [
    ("schema_version", .nat currentSchema.toNat),
    ("suite_name", .string r.suiteName),
    ("flags", r.flags.toJson),
    ("overall", .string (if r.isPass then "pass" else "fail")),
    ("rules", .array (r.rules.map RuleReport.toJson))]

end SuiteReport

/-- What can be said of a suite without dumps. -/
structure LintReport where
  suiteName : String
  rules : List LintedRule

namespace LintReport

/-- The report in words. -/
def text (r : LintReport) : String :=
  s!"Suite {r.suiteName}: {r.rules.length} rule(s) OK\n" ++ String.join (r.rules.map LintedRule.text)

/-- The report as a document. -/
def toJson (r : LintReport) : Json :=
  .object [
    ("schema_version", .nat currentSchema.toNat),
    ("suite_name", .string r.suiteName),
    ("rules", .array (r.rules.map LintedRule.toJson))]

end LintReport

end DumpRules
