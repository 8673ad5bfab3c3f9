/-!
What a scan has tried, and what it says when nothing fits.

A scan leaves behind a tree of attempts: which rule of the grammar was tried where, with what result,
and what was tried within it. `Furthest` walks that tree and keeps the rules that failed at the
furthest place reached. A rule that fails where a single rule failed within it adds nothing, since
the inner name says more; where several failed within it, its own name stands for all of them.
-/

namespace DumpRules.Grammar

set_option autoImplicit false

/-- The rules of the grammar, in the order in which messages list them. -/
inductive Rule where
  | endOfInput
  | phaseName
  | phasePrefix
  | nodeIdent
  | nodeRef
  | comparator
  | bound
  | relation
  | countsEntry
  | failOnList
  | countsList
deriving DecidableEq

namespace Rule

/-- All rules, in the order of messages. -/
def all : List Rule :=
  [endOfInput, phaseName, phasePrefix, nodeIdent, nodeRef, comparator, bound, relation, countsEntry,
   failOnList, countsList]

/-- The name of a rule in messages. -/
def name : Rule → String
  | endOfInput => "EOI"
  | phaseName => "phase_name"
  | phasePrefix => "phase_prefix"
  | nodeIdent => "node_ident"
  | nodeRef => "node_ref"
  | comparator => "comparator"
  | bound => "bound"
  | relation => "relation"
  | countsEntry => "counts_entry"
  | failOnList => "fail_on_list"
  | countsList => "counts_list"

end Rule

/-- One try of a rule at a byte of the text, with all tries made within it, in order. -/
inductive Attempt where
  | mk (rule : Rule) (offset : Nat) (failed : Bool) (inner : List Attempt)

/-- The furthest place where a rule failed, and the rules on record there. -/
structure Furthest where
  offset : Nat := 0
  rules : List Rule := []

namespace Furthest

/-- The number of rules on record at a place. -/
def countAt (f : Furthest) (offset : Nat) : Nat :=
  if f.offset = offset then f.rules.length else 0

/-- Records that a rule failed. `before` is the number of rules that were on record at its place when
it was started. -/
def fail (f : Furthest) (rule : Rule) (offset before : Nat) : Furthest :=
  if f.countAt offset = before + 1 then f
  else if offset = f.offset then { f with rules := f.rules.take before ++ [rule] }
  else if f.offset < offset then { offset, rules := [rule] }
  else f

end Furthest

mutual

/-- Takes an attempt into account. -/
def Attempt.record (f : Furthest) : Attempt → Furthest
  | .mk rule offset failed inner =>
    let after := Attempt.recordAll f inner
    if failed then after.fail rule offset (f.countAt offset) else after

/-- Takes attempts into account, one after the other. -/
def Attempt.recordAll (f : Furthest) : List Attempt → Furthest
  | [] => f
  | a :: later => Attempt.recordAll (Attempt.record f a) later

end

/-- An enumeration as messages write it. -/
def enumeration : List String → String
  | [] => ""
  | [a] => a
  | [a, b] => a ++ " or " ++ b
  | names => ", ".intercalate names.dropLast ++ ", or " ++ names.getLastD ""

/-- What a message says of the rules on record, each once and in the order of the grammar. -/
def Furthest.expected (f : Furthest) : String :=
  "expected " ++ enumeration ((Rule.all.filter f.rules.contains).map Rule.name)

end DumpRules.Grammar
