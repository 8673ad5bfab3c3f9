import DumpRules.PhaseCheck
import DumpRules.Rule.Basic

/-!
Checking lists of rules. First every declaration is accepted and planned, or rejected; if one is
rejected, nothing is checked and all rejected ones are reported. Then the rules are checked in order,
each giving one report.
-/

namespace DumpRules

set_option autoImplicit false

/-- A rule ready to be checked: with its plan, or without if it does not apply. -/
structure PreparedRule where
  rule : IrRule
  plan : Option Plan

/-- Accepts and plans the declaration with a given number. -/
def prepareRule (machine : Machine) (catalog : Catalog) (index : Nat) (d : RuleDeclaration) :
    Except RuleError PreparedRule :=
  let prepared : Except DeclarationError PreparedRule := do
    let rule ← IrRule.ofDeclaration index d machine
    if rule.isApplicable machine then
      return { rule, plan := some (← rule.plan machine catalog) }
    else
      return { rule, plan := none }
  prepared.mapError fun error => { index, name := d.name, error }

/-- The rejected rules among some. -/
def rejected (rs : List (Except RuleError PreparedRule)) : List RuleError :=
  rs.filterMap fun
    | .error e => some e
    | .ok _ => none

/-- The accepted rules among some. -/
def accepted (rs : List (Except RuleError PreparedRule)) : List PreparedRule :=
  rs.filterMap fun
    | .error _ => none
    | .ok r => some r

/-- What is seen of a rule being prepared. -/
def PreparedRule.events (r : PreparedRule) : List Event :=
  match r.plan with
  | some _ => []
  | none => [.line .debug s!"IR rule {r.rule.index} does not apply under the current flags"]

/-- Accepts and plans every declaration, without looking at any dump. -/
def prepareRules (machine : Machine) (catalog : Catalog) (ds : List RuleDeclaration) :
    Traced (Except RuleErrors (List PreparedRule)) :=
  let rs := ds.mapIdx fun i d => prepareRule machine catalog (i + 1) d
  { value :=
      match rejected rs with
      | [] => .ok (accepted rs)
      | es => .error ⟨es⟩
    events := (accepted rs).flatMap PreparedRule.events }

/-- What is seen of a rule that has been checked. -/
def RuleReport.event (r : RuleReport) : Event :=
  let verdict :=
    match r.outcome with
    | .notApplicable => "not applicable"
    | .evaluated _ => if r.isFailure then "failed" else "passed"
  .line .info s!"IR rule {r.index}: {verdict}"

namespace PreparedRule

/-- Checks a rule: sets up its phases, evaluates them in some way and then gives the verdict. -/
def checkWith (evaluate : List PhaseCheck → List PhaseResult) (r : PreparedRule) (dumps : Dumps) :
    Traced RuleReport :=
  let checked : Traced RuleOutcome :=
    match r.plan with
    | none => { value := .notApplicable, events := [] }
    | some plan => (plan.setUp dumps).map fun checks => .evaluated (evaluate checks)
  let report : RuleReport :=
    { index := r.rule.index, name := r.rule.name, outcome := checked.value }
  { value := report, events := checked.events ++ [report.event] }

/-- Checks a rule, phase after phase. -/
def check (r : PreparedRule) (dumps : Dumps) : Traced RuleReport :=
  r.checkWith (List.map PhaseCheck.evaluate) dumps

/-- The report of a rule. -/
def report (r : PreparedRule) (dumps : Dumps) : RuleReport :=
  (r.check dumps).value

end PreparedRule

/-- Checks declarations against dumps, with one report for each. The checks of a rule are evaluated
in a given way. -/
def checkRulesWith (evaluate : List PhaseCheck → List PhaseResult) (machine : Machine)
    (catalog : Catalog) (dumps : Dumps) (ds : List RuleDeclaration) :
    Traced (Except RuleErrors (List RuleReport)) :=
  let prepared := prepareRules machine catalog ds
  match prepared.value with
  | .error es => { value := .error es, events := prepared.events }
  | .ok rs =>
    let checked := Traced.each (fun r => r.checkWith evaluate dumps) rs
    { value := .ok checked.value, events := prepared.events ++ checked.events }

/-- Checks declarations against dumps, the phases of each rule one after the other. -/
def checkRules (machine : Machine) (catalog : Catalog) (dumps : Dumps)
    (ds : List RuleDeclaration) : Traced (Except RuleErrors (List RuleReport)) :=
  checkRulesWith (List.map PhaseCheck.evaluate) machine catalog dumps ds

/-! ### What a check comes to -/

namespace PreparedRule

variable {r : PreparedRule} {plan : Plan}

theorem outcome_of_skipped (skipped : r.plan = none) (dumps : Dumps) :
    (r.report dumps).outcome = .notApplicable := by
  simp only [report, check, checkWith, skipped]

theorem outcome_of_planned (planned : r.plan = some plan) (dumps : Dumps) :
    (r.report dumps).outcome = .evaluated (plan.results dumps) := by
  simp only [report, check, checkWith, planned]
  rfl

theorem events_of_skipped (skipped : r.plan = none) (dumps : Dumps) :
    (r.check dumps).events = [(r.report dumps).event] := by
  simp only [report, check, checkWith, skipped]
  rfl

theorem events_of_planned (planned : r.plan = some plan) (dumps : Dumps) :
    (r.check dumps).events = (plan.setUp dumps).events ++ [(r.report dumps).event] := by
  simp only [report, check, checkWith, planned]
  rfl

end PreparedRule

section

variable {machine : Machine} {catalog : Catalog} {ds : List RuleDeclaration}

theorem checkRules_of_error {es : RuleErrors}
    (failed : (prepareRules machine catalog ds).value = .error es) (dumps : Dumps) :
    checkRules machine catalog dumps ds =
      { value := .error es, events := (prepareRules machine catalog ds).events } := by
  simp only [checkRules, checkRulesWith, failed]

theorem checkRules_of_ok {rs : List PreparedRule}
    (ready : (prepareRules machine catalog ds).value = .ok rs) (dumps : Dumps) :
    checkRules machine catalog dumps ds =
      { value := .ok (rs.map (·.report dumps))
        events := (prepareRules machine catalog ds).events ++
          rs.flatMap fun r => (r.check dumps).events } := by
  simp only [checkRules, checkRulesWith, ready, Traced.value_each, Traced.events_each]
  rfl

theorem checkRules_value (machine : Machine) (catalog : Catalog) (dumps : Dumps)
    (ds : List RuleDeclaration) :
    (checkRules machine catalog dumps ds).value =
      (prepareRules machine catalog ds).value.map (List.map (·.report dumps)) := by
  cases ready : (prepareRules machine catalog ds).value with
  | error es =>
      rw [checkRules_of_error ready]
      rfl
  | ok rs =>
      rw [checkRules_of_ok ready]
      rfl

end

end DumpRules
