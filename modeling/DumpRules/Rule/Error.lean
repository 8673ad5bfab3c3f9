import DumpRules.Catalog.Basic
import DumpRules.Clause.Error
import DumpRules.Consistency
import DumpRules.Verdict

/-!
Why rules are rejected. A rule is rejected for the first thing that is wrong with it; of a list of
rules all rejected ones are reported together.
-/

namespace DumpRules

set_option autoImplicit false

/-- Why a rule is rejected. -/
inductive DeclarationError where
  | clauses (e : ListError)
  | inconsistent (e : ConsistencyError)
  | unresolved (e : ResolveErrors)
  | duplicatePhase (phase : Phase)
  | mixedDefault (phase : Phase)
  | phaseOutsideRule (node : String) (phase : Phase)
  | emptyRule
  | unknownFlag (flag : String)
deriving DecidableEq

namespace DeclarationError

/-- The text of the message. -/
def message : DeclarationError → String
  | clauses e => e.message
  | inconsistent e => e.message
  | unresolved e => e.message
  | duplicatePhase phase => s!"Cannot specify a compile phase twice: {phase.name}"
  | mixedDefault phase =>
    s!"DEFAULT cannot be combined with explicit compile phases ({phase.name})"
  | phaseOutsideRule node phase =>
    s!"Constraint on node \"{node}\" targets {phase.name}, " ++
      "which is not one of the rule's phases"
  | emptyRule => "IR rule has neither failOn nor counts constraints"
  | unknownFlag flag => s!"applyIf names unknown VM flag \"{flag}\""

/-- The code under which the error is documented. -/
def code : DeclarationError → String
  | clauses e => e.code
  | inconsistent e => e.code
  | unresolved _ => ResolveErrors.code
  | duplicatePhase _ => "irmatch::declaration::duplicate_phase"
  | mixedDefault _ => "irmatch::declaration::mixed_default"
  | phaseOutsideRule _ _ => "irmatch::declaration::prefix_outside_rule"
  | emptyRule => "irmatch::declaration::empty_rule"
  | unknownFlag _ => "irmatch::declaration::unknown_flag"

/-- Advice on how to mend the error. -/
def help : DeclarationError → Option String
  | clauses e => e.help
  | mixedDefault _ => some "either list only DEFAULT or only concrete phases"
  | _ => none

end DeclarationError

/-- A rejected rule, with its number from 1 and its name. -/
structure RuleError where
  index : Nat
  name : Option String
  error : DeclarationError
deriving DecidableEq

namespace RuleError

/-- The text of the message. -/
def message (e : RuleError) : String :=
  ruleLabel e.index e.name ++ ": " ++ e.error.message

/-- The code under which rejected rules are documented. -/
def code : String := "irmatch::declaration::rule"

end RuleError

/-- All rejected rules of a list. -/
structure RuleErrors where
  errors : List RuleError
deriving DecidableEq

namespace RuleErrors

/-- The text of the message. -/
def message (es : RuleErrors) : String :=
  Text.numbered "invalid IR rules" (es.errors.map RuleError.message)

/-- The code under which such reports are documented. -/
def code : String := "irmatch::declaration::multiple"

end RuleErrors

end DumpRules
