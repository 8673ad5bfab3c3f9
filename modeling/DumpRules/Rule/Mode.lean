import DumpRules.Rule.Check

/-!
Ways to work out a check. The phases of a rule may be evaluated one after another, or each as a task
of its own. Only the evaluation differs: the texts are asked for beforehand and in order, and the
results keep the order of the phases.
-/

namespace DumpRules

set_option autoImplicit false

/-- How the phases of a rule are evaluated. -/
inductive EvalMode where
  | sequential
  | parallel
deriving DecidableEq

/-- Evaluates the checks of a rule. -/
def EvalMode.evaluate (mode : EvalMode) (checks : List PhaseCheck) : List PhaseResult :=
  match mode with
  | sequential => checks.map PhaseCheck.evaluate
  | parallel =>
    let tasks := checks.map fun c => Task.spawn fun _ => c.evaluate
    tasks.map Task.get

/-- Checks declarations against dumps in a given way, with one report for each. -/
def checkRulesIn (mode : EvalMode) (machine : Machine) (catalog : Catalog) (dumps : Dumps)
    (ds : List RuleDeclaration) : Traced (Except RuleErrors (List RuleReport)) :=
  checkRulesWith mode.evaluate machine catalog dumps ds

/-! ### The way does not matter -/

theorem EvalMode.evaluate_eq (mode : EvalMode) : mode.evaluate = List.map PhaseCheck.evaluate := by
  funext checks
  cases mode with
  | sequential => rfl
  | parallel => exact List.map_map

@[simp] theorem checkRulesIn_eq (mode : EvalMode) (machine : Machine) (catalog : Catalog)
    (dumps : Dumps) (ds : List RuleDeclaration) :
    checkRulesIn mode machine catalog dumps ds = checkRules machine catalog dumps ds := by
  rw [checkRulesIn, mode.evaluate_eq, checkRules]

end DumpRules
