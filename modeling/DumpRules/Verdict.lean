import DumpRules.Clause.Basic
import DumpRules.Json.Basic

/-!
What comes of checking a rule: for each of its phases that it passes, which constraints fail, or that
no dump of the phase was captured, which is a failure but no mismatch.
-/

namespace DumpRules

set_option autoImplicit false

/-- A constraint that does not hold. -/
structure Failure where
  kind : ListKind
  /-- The number of the clause in its list, from 1. -/
  index : Nat
  node : String
  pattern : String
  observed : Nat
  expected : String
deriving DecidableEq

/-- What comes of checking one phase. -/
inductive PhaseOutcome where
  | pass
  | fail (failures : List Failure)
  | absent
deriving DecidableEq

/-- What comes of checking one phase, with its name. -/
structure PhaseResult where
  phase : Phase
  outcome : PhaseOutcome
deriving DecidableEq

/-- What comes of checking a rule. -/
inductive RuleOutcome where
  /-- The flags of the run do not meet the conditions of the rule. -/
  | notApplicable
  | evaluated (phases : List PhaseResult)
deriving DecidableEq

/-- What comes of checking a rule, with its number from 1 and its name. -/
structure RuleReport where
  index : Nat
  name : Option String
  outcome : RuleOutcome
deriving DecidableEq

/-- What a rule is called in texts. -/
def ruleLabel (index : Nat) (name : Option String) : String :=
  match name with
  | none => s!"IR rule {index}"
  | some name => s!"IR rule {index} ({name})"

/-- A text with each of its lines but the first moved two columns to the right. -/
def indented (text : String) : String :=
  String.ofList (text.toList.flatMap fun c => if c = '\n' then ['\n', ' ', ' '] else [c])

namespace Failure

/-- A failure in words. -/
def text (f : Failure) : String :=
  match f.kind with
  | .failOn =>
    s!"failOn constraint {f.index}: forbidden node \"{f.node}\" matched {f.observed} time(s) " ++
      s!"(pattern: {f.pattern})"
  | .counts =>
    s!"counts constraint {f.index}: node \"{f.node}\" found {f.observed} time(s), " ++
      s!"expected {f.expected} (pattern: {f.pattern})"

/-- A failure as a document. -/
def toJson (f : Failure) : Json :=
  .object [
    ("attribute", .string f.kind.tag),
    ("constraint_index", .nat f.index),
    ("node", .string f.node),
    ("pattern", .string f.pattern),
    ("observed", .nat f.observed),
    ("expected", .string f.expected)]

end Failure

namespace PhaseResult

/-- Whether the phase passes. -/
def isPass (r : PhaseResult) : Bool :=
  match r.outcome with
  | .pass => true
  | _ => false

/-- The constraints of the phase that fail. -/
def failures (r : PhaseResult) : List Failure :=
  match r.outcome with
  | .fail fs => fs
  | _ => []

/-- The result of a phase in words. -/
def text (r : PhaseResult) : String :=
  match r.outcome with
  | .pass => s!"{r.phase.name}: pass"
  | .absent => s!"{r.phase.name}: no compilation output captured for this phase"
  | .fail fs =>
    s!"{r.phase.name}: {fs.length} failure(s)" ++ String.join (fs.map fun f => "\n  - " ++ f.text)

/-- The result of a phase as a document. -/
def toJson (r : PhaseResult) : Json :=
  let outcome : List (String × Json) :=
    match r.outcome with
    | .pass => [("status", .string "pass")]
    | .absent => [("status", .string "phase_absent")]
    | .fail fs => [("status", .string "fail"), ("failures", .array (fs.map Failure.toJson))]
  .object [("phase", .string r.phase.name), ("outcome", .object outcome)]

end PhaseResult

namespace RuleReport

/-- The results of the phases; a rule that does not apply has none. -/
def phases (r : RuleReport) : List PhaseResult :=
  match r.outcome with
  | .notApplicable => []
  | .evaluated ps => ps

/-- Whether some phase does not pass. -/
def isFailure (r : RuleReport) : Bool :=
  r.phases.any fun p => !p.isPass

/-- The phases that do not pass. -/
def failedPhases (r : RuleReport) : List PhaseResult :=
  r.phases.filter fun p => !p.isPass

/-- The report in words. -/
def text (r : RuleReport) : String :=
  let label := ruleLabel r.index r.name
  match r.outcome with
  | .notApplicable => label ++ ": not applicable"
  | .evaluated _ =>
    if r.isFailure then
      label ++ ": FAIL" ++ String.join (r.failedPhases.map fun p => "\n  " ++ indented p.text)
    else label ++ ": PASS"

/-- The report as a document. -/
def toJson (r : RuleReport) : Json :=
  let name : List (String × Json) :=
    match r.name with
    | none => []
    | some name => [("name", .string name)]
  let outcome : List (String × Json) :=
    match r.outcome with
    | .notApplicable => [("status", .string "not_applicable")]
    | .evaluated ps =>
      [("status", .string "evaluated"), ("phases", .array (ps.map PhaseResult.toJson))]
  .object ([("rule_index", .nat r.index)] ++ name ++ [("outcome", .object outcome)])

end RuleReport

end DumpRules
