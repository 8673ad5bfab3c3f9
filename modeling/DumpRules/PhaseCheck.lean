import DumpRules.Dumps
import DumpRules.Plan
import DumpRules.Trace
import DumpRules.Verdict

/-!
Checking the constraints of a plan against the dumps. The text of a phase is asked for once, and only
if the phase was dumped. Phases are checked independently of each other, so that their results do not
depend on the order in which they are worked out.
-/

namespace DumpRules

set_option autoImplicit false

/-- What is to be checked in a phase: constraints against a text, or nothing, since the phase was not
dumped. -/
inductive PhaseCheck where
  | absent (phase : Phase)
  | present (phase : Phase) (bucket : Bucket) (text : String)

namespace Constraint

/-- The failure of a constraint, given what was observed. -/
def failure (c : Constraint) (kind : ListKind) (observed : Nat) : Failure :=
  { kind, index := c.index, node := c.node, pattern := c.pattern.source, observed,
    expected := c.expected }

/-- Checks that a forbidden node does not occur. -/
def checkFailOn (text : String) (c : Constraint) : Option Failure :=
  let observed := c.pattern.count text
  if 0 < observed then some (c.failure .failOn observed) else none

/-- Checks that the count of a node satisfies every relation. -/
def checkCounts (text : String) (c : Constraint) : Option Failure :=
  let observed := c.pattern.count text
  if c.accepts observed then none else some (c.failure .counts observed)

end Constraint

/-- The constraints of a bucket that fail, the forbidding ones first. -/
def Bucket.failures (b : Bucket) (text : String) : List Failure :=
  b.failOn.filterMap (Constraint.checkFailOn text) ++ b.counts.filterMap (Constraint.checkCounts text)

namespace PhaseCheck

/-- The phase that is checked. -/
def phase : PhaseCheck → Phase
  | absent p => p
  | present p _ _ => p

/-- Carries out a check. -/
def evaluate : PhaseCheck → PhaseResult
  | absent phase => { phase, outcome := .absent }
  | present phase bucket text =>
    match bucket.failures text with
    | [] => { phase, outcome := .pass }
    | fs => { phase, outcome := .fail fs }

/-- Sets up the check of a bucket of constraints, against the text that is asked for. -/
def setUp (dumps : Dumps) : Phase × Bucket → Traced PhaseCheck
  | (phase, bucket) =>
    match dumps.text? phase with
    | none =>
      { value := absent phase
        events := [.line .warn s!"No compilation output captured for phase {phase.name}"] }
    | some text =>
      { value := present phase bucket text
        events :=
          [.line .debug (s!"Built rule for phase {phase.name}: {bucket.failOn.length} failOn, " ++
              s!"{bucket.counts.length} counts constraint(s)"),
            .request phase] }

end PhaseCheck

namespace Plan

/-- The buckets of a plan that hold a constraint. -/
def filled (plan : Plan) : Plan :=
  plan.filter fun (_, bucket) => !bucket.isEmpty

/-- The phases that are checked. -/
def phases (plan : Plan) : List Phase :=
  plan.filled.map Prod.fst

/-- Sets up the checks of a plan, in ascending order of their phases. -/
def setUp (plan : Plan) (dumps : Dumps) : Traced (List PhaseCheck) :=
  Traced.each (PhaseCheck.setUp dumps) plan.filled

/-- The checks of a plan. -/
def checks (plan : Plan) (dumps : Dumps) : List PhaseCheck :=
  (plan.setUp dumps).value

/-- The results of a plan. -/
def results (plan : Plan) (dumps : Dumps) : List PhaseResult :=
  (plan.checks dumps).map PhaseCheck.evaluate

end Plan

end DumpRules
