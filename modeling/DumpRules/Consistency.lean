import DumpRules.Clause.Basic
import DumpRules.CountSet

/-!
Whether the clauses of a rule can hold together, whatever phases they are meant for. The counting
clauses are taken in order. A node whose count is pinned by an equality takes no other relation, the
relations on a node must leave it some count, and a forbidden node must be left the count zero. The
first clause that breaks one of these is reported.
-/

namespace DumpRules

set_option autoImplicit false

/-- What the clauses on one node come to so far. -/
structure NodeCounts where
  hasEquality : Bool
  permitted : CountSet
deriving DecidableEq

/-- What the clauses come to so far: nodes in ascending order. -/
abbrev Tally := List (String × NodeCounts)

namespace Tally

/-- What is known of a node. -/
def get? (t : Tally) (node : String) : Option NodeCounts :=
  t.lookup node

/-- Sets what is known of a node, keeping the nodes in ascending order. -/
def put (node : String) (counts : NodeCounts) : Tally → Tally
  | [] => [(node, counts)]
  | (n, c) :: later =>
    if node < n then (node, counts) :: (n, c) :: later
    else if n = node then (node, counts) :: later
    else (n, c) :: Tally.put node counts later

end Tally

/-- Why clauses cannot hold together. -/
inductive Conflict where
  | redundant
  | incompatible
  | failOnContradiction
deriving DecidableEq

/-- A conflict with the clause that brings it about. -/
structure ConsistencyError where
  conflict : Conflict
  node : String
  clause : String
deriving DecidableEq

namespace ConsistencyError

/-- The text of the message. -/
def message (e : ConsistencyError) : String :=
  let offending := s!"(offending constraint: `{e.clause}`)"
  match e.conflict with
  | .redundant =>
    s!"Redundant constraints: node \"{e.node}\" has an equality constraint that already fully " ++
      s!"specifies the expected count; additional constraints are not allowed {offending}"
  | .incompatible =>
    s!"Incompatible constraints: node \"{e.node}\" has counts constraints that cannot be " ++
      s!"satisfied {offending}"
  | .failOnContradiction =>
    s!"Incompatible constraints: node \"{e.node}\" is in failOn but counts requires it to " ++
      s!"appear {offending}"

/-- The code under which the conflict is documented. -/
def code (e : ConsistencyError) : String :=
  match e.conflict with
  | .redundant => "irmatch::declaration::redundant"
  | .incompatible => "irmatch::declaration::incompatible"
  | .failOnContradiction => "irmatch::declaration::fail_on_contradiction"

end ConsistencyError

/-- What the clauses on a node come to with one more clause, or that this is one too many. -/
def mergeClause (known : Option NodeCounts) (c : Clause) : Except Conflict NodeCounts :=
  let permitted := CountSet.ofRelations c.relations
  if c.isEquality && decide (1 < c.relations.length) then .error .redundant
  else
    match known with
    | none => .ok { hasEquality := c.isEquality, permitted }
    | some k =>
      if k.hasEquality || c.isEquality then .error .redundant
      else .ok { hasEquality := false, permitted := k.permitted.inter permitted }

/-- Whether what the clauses on a node come to leaves it a count, and zero if it is forbidden. -/
def checkLeft (forbidden : Bool) (counts : NodeCounts) : Except Conflict NodeCounts :=
  if counts.permitted.isEmpty then .error .incompatible
  else if forbidden && !counts.permitted.permitsZero then .error .failOnContradiction
  else .ok counts

/-- Adds a clause to what the clauses before it come to. -/
def addClause (failOn : List Clause) (t : Tally) (c : Clause) : Except ConsistencyError Tally :=
  let forbidden := failOn.any fun f => f.node == c.node
  match (mergeClause (t.get? c.node) c).bind (checkLeft forbidden) with
  | .ok counts => .ok (t.put c.node counts)
  | .error conflict => .error { conflict, node := c.node, clause := c.text }

/-- Adds clauses in order, up to the first that is in conflict with those before it. -/
def addClauses (failOn : List Clause) (t : Tally) : List Clause → Except ConsistencyError Tally
  | [] => .ok t
  | c :: later =>
    match addClause failOn t c with
    | .ok t => addClauses failOn t later
    | .error e => .error e

/-- What all counting clauses of a rule come to, if they can hold together with the forbidding
ones. -/
def consistent (failOn counts : List Clause) : Except ConsistencyError Tally :=
  addClauses failOn [] counts

end DumpRules
