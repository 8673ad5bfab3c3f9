import DumpRules.Clause.Reader
import DumpRules.Plan
import DumpRules.Rule.Declaration
import DumpRules.Rule.Error

/-!
Accepted rules. A declaration is accepted if its phases make sense together, its lists can be read and
are not both empty, its clauses can hold together, the phases before its clauses are among its own,
and the flags of its conditions are known. These are looked at in that order.
-/

namespace DumpRules

set_option autoImplicit false

/-- The first phase of a list that repeats an earlier one; `seen` came before the list. -/
def firstRepeated (seen : List Phase) : List Phase → Option Phase
  | [] => none
  | p :: later => if p ∈ seen then some p else firstRepeated (p :: seen) later

/-- What a rule is about, by the phases it names. No phase at all, or the placeholder alone, means
the default phases of the nodes. -/
def Target.ofDeclared (phases : List Phase) : Except DeclarationError Target :=
  match firstRepeated [] phases with
  | some p => .error (.duplicatePhase p)
  | none =>
    let concrete := ascending (phases.filter (· ≠ .placeholder))
    match concrete with
    | [] => .ok .default
    | least :: _ =>
      if .placeholder ∈ phases then .error (.mixedDefault least) else .ok (.explicit concrete)

/-- The first phase before a clause that its rule is not about, with the node of the clause. -/
def outsidePhase? (t : Target) (cs : Clauses) : Option (String × Phase) :=
  match t with
  | .default => none
  | .explicit phases => cs.all.findSome? fun c =>
    ((c.phases.getD []).find? fun p => !phases.contains p).map fun p => (c.node, p)

/-- An accepted rule, with its number from 1. -/
structure IrRule where
  index : Nat
  name : Option String
  target : Target
  clauses : Clauses
  applyIf : List FlagCondition

namespace IrRule

/-- Accepts a declaration, or says what is wrong with it. -/
def ofDeclaration (index : Nat) (d : RuleDeclaration) (machine : Machine) :
    Except DeclarationError IrRule := do
  let target ← Target.ofDeclared d.phases
  let clauses ← (readClauses d.failOn d.counts).mapError .clauses
  if clauses.isEmpty then throw .emptyRule
  let _ ← (consistent clauses.failOn clauses.counts).mapError .inconsistent
  if let some (node, phase) := outsidePhase? target clauses then
    throw (.phaseOutsideRule node phase)
  if let some c := d.applyIf.find? fun c => (machine.flag c.flag).isNone then
    throw (.unknownFlag c.flag)
  return { index, name := d.name, target, clauses, applyIf := d.applyIf }

/-- Whether the flags meet the conditions of the rule. -/
def isApplicable (r : IrRule) (machine : Machine) : Bool :=
  r.applyIf.all fun c => machine.flag c.flag == some c.value

/-- The plan of a rule. -/
def plan (r : IrRule) (machine : Machine) (catalog : Catalog) :
    Except DeclarationError Plan :=
  (DumpRules.plan r.target machine catalog r.clauses).mapError .unresolved

end IrRule

end DumpRules
