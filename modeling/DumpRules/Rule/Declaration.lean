import DumpRules.Json.Record
import DumpRules.Phase

/-!
Rules as their authors write them.
-/

namespace DumpRules

set_option autoImplicit false

/-- A condition of a rule: a flag has a value. -/
structure FlagCondition where
  flag : String
  value : String
deriving DecidableEq

/-- A rule as written. Without phases it is about the default phases of its nodes. -/
structure RuleDeclaration where
  name : Option String := none
  phases : List Phase := []
  failOn : String := ""
  counts : String := ""
  applyIf : List FlagCondition := []
deriving DecidableEq

namespace FlagCondition

/-- A condition as a document. -/
def toJson (c : FlagCondition) : Json :=
  .object [("flag", .string c.flag), ("value", .string c.value)]

/-- Reads a condition. -/
def ofJson? (j : Json) : Option FlagCondition := do
  let [flag, value] ← j.record? ["flag", "value"] | none
  some {
    flag := ← Json.required Json.asString? flag
    value := ← Json.required Json.asString? value }

end FlagCondition

namespace RuleDeclaration

/-- A rule as a document; one without a name has no such field. -/
def toJson (d : RuleDeclaration) : Json :=
  let name : List (String × Json) :=
    match d.name with
    | none => []
    | some name => [("name", .string name)]
  .object (name ++ [
    ("phases", .strings (d.phases.map Phase.name)),
    ("fail_on", .string d.failOn),
    ("counts", .string d.counts),
    ("apply_if", .array (d.applyIf.map FlagCondition.toJson))])

/-- Reads a rule. -/
def ofJson? (j : Json) : Option RuleDeclaration := do
  let [name, phases, failOn, counts, applyIf] ←
    j.record? ["name", "phases", "fail_on", "counts", "apply_if"] | none
  some {
    name := ← Json.nullable Json.asString? name
    phases := ← Json.withDefault [] (Json.asList? (Json.asName? Phase.ofName?)) phases
    failOn := ← Json.withDefault "" Json.asString? failOn
    counts := ← Json.withDefault "" Json.asString? counts
    applyIf := ← Json.withDefault [] (Json.asList? FlagCondition.ofJson?) applyIf }

end RuleDeclaration

end DumpRules
