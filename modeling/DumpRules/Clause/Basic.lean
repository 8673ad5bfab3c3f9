import DumpRules.Phase
import DumpRules.Relation

/-!
The clauses of a rule, as written: a rule has a list of nodes that must not occur and a list of nodes
whose number of occurrences is bounded. Each clause names a node, may name the phases it is meant
for, and remembers where in its list it stands.
-/

namespace DumpRules

set_option autoImplicit false

/-- The two lists of clauses that a rule has. -/
inductive ListKind where
  | failOn
  | counts
deriving DecidableEq

/-- The name of a list in messages. -/
def ListKind.label : ListKind → String
  | failOn => "failOn"
  | counts => "counts"

/-- The name of a list in reports. -/
def ListKind.tag : ListKind → String
  | failOn => "fail_on"
  | counts => "counts"

/-- A stretch of a text, from byte `start` up to byte `stop`. -/
structure Span where
  start : Nat
  stop : Nat
deriving DecidableEq

/-- The number of bytes in a stretch. -/
def Span.length (s : Span) : Nat :=
  s.stop - s.start

/-- What a clause demands of its node: that it does not occur, or that its count satisfies every one
of some relations. -/
inductive Demand where
  | failOn
  | counts (relations : List Relation)
deriving DecidableEq

/-- A clause as written. Without phases of its own it follows those of its rule. -/
structure Clause where
  node : String
  demand : Demand
  phases : Option (List Phase)
  span : Span
deriving DecidableEq

/-- Relations as they are written in reports, with commas between them. -/
def expectedText (relations : List Relation) : String :=
  ",".intercalate (relations.map Relation.text)

namespace Clause

/-- The list that a clause belongs to. -/
def kind (c : Clause) : ListKind :=
  match c.demand with
  | .failOn => .failOn
  | .counts _ => .counts

/-- The relations of a clause; one that forbids its node has none. -/
def relations (c : Clause) : List Relation :=
  match c.demand with
  | .failOn => []
  | .counts rs => rs

/-- Whether a clause pins the count of its node by an equality. -/
def isEquality (c : Clause) : Bool :=
  c.relations.any fun r => r.comparator == .eq

/-- What a clause expects, in the form of a report. -/
def expected (c : Clause) : String :=
  match c.demand with
  | .failOn => "=0"
  | .counts rs => expectedText rs

/-- A clause as it could have been written. -/
def text (c : Clause) : String :=
  let phases :=
    match c.phases with
    | none => ""
    | some ps => "|".intercalate (ps.map Phase.name) ++ ":"
  phases ++ c.node ++ String.join (c.relations.map fun r => " " ++ r.text)

end Clause

/-- Both lists of a rule. -/
structure Clauses where
  failOn : List Clause
  counts : List Clause
deriving DecidableEq

namespace Clauses

/-- All clauses, the forbidding ones first. -/
def all (cs : Clauses) : List Clause :=
  cs.failOn ++ cs.counts

/-- Whether there is no clause at all. -/
def isEmpty (cs : Clauses) : Bool :=
  cs.failOn.isEmpty && cs.counts.isEmpty

end Clauses

end DumpRules
