import DumpRules.Rule.Lint
import DumpRules.Proofs.Evaluation
import DumpRules.Proofs.Independence
import Mathlib.Data.List.Forall2

/-!
# A lint is a dry run of a check

Linting prepares rules and says what they will be checked for; checking prepares them too and then
looks at dumps. The two go separate ways from the plan of a rule on. `LintedRule.Predicts` says what
a line of a lint foretells of a report, and `lint_predicts_check` that it does so whatever was
dumped: a phase without a dump still has its result.
-/

namespace DumpRules

set_option autoImplicit false

/-- What is said of a rule beforehand agrees with its report. -/
structure LintedRule.Predicts (l : LintedRule) (report : RuleReport) : Prop where
  index : l.index = report.index
  name : l.name = report.name
  applicable : l.applicable = true ↔ report.outcome ≠ .notApplicable
  phases : l.phases = report.phases.map (·.phase)

theorem predicts_ofPrepared (r : PreparedRule) (dumps : Dumps) :
    (LintedRule.ofPrepared r).Predicts (r.report dumps) := by
  cases planned : r.plan with
  | none =>
      have outcome := PreparedRule.outcome_of_skipped planned dumps
      constructor
      case index => rfl
      case name => rfl
      case applicable => simp [LintedRule.ofPrepared, planned, outcome]
      case phases => simp [LintedRule.ofPrepared, planned, RuleReport.phases, outcome]
  | some plan =>
      have outcome := PreparedRule.outcome_of_planned planned dumps
      constructor
      case index => rfl
      case name => rfl
      case applicable => simp [LintedRule.ofPrepared, planned, outcome]
      case phases =>
        have results := plan.phases_results dumps
        simp only [LintedRule.ofPrepared, planned, RuleReport.phases, outcome, results]

/-- **A lint predicts a check.** Whatever the dumps and the mode, preparing and checking reject the
same declarations for the same reasons, or both accept all of them. Then every declaration has a
line in the lint and a report in the check, and the line foretells the report. -/
theorem lint_predicts_check (mode : EvalMode) (machine : Machine) (catalog : Catalog)
    (dumps : Dumps) (ds : List RuleDeclaration) :
    (∀ es, (prepareRules machine catalog ds).value = .error es ↔
      (checkRulesIn mode machine catalog dumps ds).value = .error es) ∧
    ∀ rs, (prepareRules machine catalog ds).value = .ok rs →
      ∃ reports, (checkRulesIn mode machine catalog dumps ds).value = .ok reports ∧
        reports.length = ds.length ∧
        List.Forall₂ LintedRule.Predicts (rs.map LintedRule.ofPrepared) reports := by
  have value : (checkRulesIn mode machine catalog dumps ds).value =
      (prepareRules machine catalog ds).value.map (List.map (·.report dumps)) := by
    rw [checkRulesIn_eq, checkRules_value]
  constructor
  · intro es
    rw [value, map_eq_error]
  · intro rs ready
    have length := (prepared_of_prepareRules ready).1
    refine ⟨rs.map (·.report dumps), ?_, by rw [List.length_map, length], ?_⟩
    · rw [value, ready]
      rfl
    · rw [List.forall₂_map_left_iff, List.forall₂_map_right_iff, List.forall₂_same]
      intro r _
      exact predicts_ofPrepared r dumps

end DumpRules
