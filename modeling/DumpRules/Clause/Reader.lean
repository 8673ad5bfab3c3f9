import DumpRules.Clause.Error
import DumpRules.Grammar.Lists

/-!
Reading lists of clauses. Once a text is a list by its grammar, each entry is judged on its own, so
that one bad entry hides no fault of another: the clauses are returned if no entry has a fault, and
otherwise all faults are, in the order of the text.
-/

namespace DumpRules

set_option autoImplicit false

open Grammar

namespace Grammar

/-- The faults of the names of phases before a node: each must be known, be no placeholder and not
repeat one of `seen`. -/
def phaseFaults (node : String) (seen : List Phase) : List Token → List (Span × Fault)
  | [] => []
  | t :: later =>
    match Phase.ofName? t.text with
    | none => (t.span, .unknownPhase t.text) :: phaseFaults node seen later
    | some .placeholder => (t.span, .placeholderPhase node) :: phaseFaults node seen later
    | some p =>
      if p ∈ seen then (t.span, .duplicatePhase p node) :: phaseFaults node seen later
      else phaseFaults node (p :: seen) later

namespace NodeRef

/-- The faults of a node reference. -/
def faults (r : NodeRef) : List (Span × Fault) :=
  match r.phases with
  | none => []
  | some names => phaseFaults r.node.text [] names

/-- The phases before the node, in written order. -/
def phaseList (r : NodeRef) : Option (List Phase) :=
  r.phases.map fun names => names.filterMap fun t => Phase.ofName? t.text

/-- The clause that forbids the node. -/
def clause (r : NodeRef) : Clause :=
  { node := r.node.text, demand := .failOn, phases := r.phaseList, span := r.span }

end NodeRef

namespace RelationTerm

/-- The comparator of a relation; a bound alone means equality. -/
def comparator? (t : RelationTerm) : Option Comparator :=
  match t.comparator with
  | none => some .eq
  | some c => Comparator.ofToken? c.text

/-- The bound of a relation. -/
def bound? (t : RelationTerm) : Option UInt64 :=
  t.bound.bind fun b => Text.count64? b.text.toList

/-- The relation, if both its parts are there and make sense. -/
def relation? (t : RelationTerm) : Option Relation :=
  t.comparator?.bind fun comparator => t.bound?.map fun bound => { comparator, bound }

/-- The faults of a comparator. -/
def comparatorFaults (node : String) (t : RelationTerm) : List (Span × Fault) :=
  match t.comparator with
  | none => []
  | some c =>
    match Comparator.ofToken? c.text with
    | some _ => []
    | none => [(c.span, .unknownComparator c.text node)]

/-- The faults of a bound. That it is missing is a fault only behind a known comparator. -/
def boundFaults (node : String) (t : RelationTerm) : List (Span × Fault) :=
  match t.bound, t.comparator with
  | some b, _ =>
    match Text.count64? b.text.toList with
    | some _ => []
    | none => [(b.span, .invalidBound b.text node)]
  | none, some c =>
    match Comparator.ofToken? c.text with
    | some _ => [(t.span, .missingBound c.text node)]
    | none => []
  | none, none => []

/-- The faults of a relation. -/
def faults (node : String) (t : RelationTerm) : List (Span × Fault) :=
  t.comparatorFaults node ++ t.boundFaults node

end RelationTerm

namespace Entry

/-- The faults of an entry: those of its phases, the lack of a relation, those of its relations. -/
def faults (e : Entry) : List (Span × Fault) :=
  let node := e.ref.node.text
  let lacking := if e.relations.isEmpty then [(e.span, .missingRelation node)] else []
  e.ref.faults ++ lacking ++ e.relations.flatMap (RelationTerm.faults node)

/-- The clause that bounds the count of the node. -/
def clause (e : Entry) : Clause :=
  { node := e.ref.node.text
    demand := .counts (e.relations.filterMap RelationTerm.relation?)
    phases := e.ref.phaseList
    span := e.span }

end Entry

end Grammar

/-- Judges the entries of a list. -/
def judge {α : Type} (list : ListKind) (faults : α → List (Span × Fault)) (clause : α → Clause)
    (entries : List α) : Except ListError (List Clause) :=
  match entries.flatMap faults with
  | [] => .ok (entries.map clause)
  | fs => .error (.ofLeaves (fs.map fun (span, fault) => { list, span, fault }))

/-- Reads a text by its grammar and judges the entries. -/
def readList {α : Type} (list : ListKind) (scanner : Scanner (List α))
    (faults : α → List (Span × Fault)) (clause : α → Clause) (source : String) :
    Except ListError (List Clause) :=
  match scanAll scanner source.toList with
  | .error u => .error (.one { list, span := u.span, fault := .unexpected u.expected })
  | .ok entries => judge list faults clause entries

/-- Reads a list of nodes that must not occur. -/
def readFailOn (source : String) : Except ListError (List Clause) :=
  readList .failOn failOnList NodeRef.faults NodeRef.clause source

/-- Reads a list of nodes whose number of occurrences is bounded. -/
def readCounts (source : String) : Except ListError (List Clause) :=
  readList .counts countsList Entry.faults Entry.clause source

/-- Reads both lists of a rule and reports the faults of both together. -/
def readClauses (failOn counts : String) : Except ListError Clauses :=
  match readFailOn failOn, readCounts counts with
  | .ok failOn, .ok counts => .ok { failOn, counts }
  | .error e, .ok _ => .error e
  | .ok _, .error e => .error e
  | .error a, .error b => .error (.ofLeaves (a.leaves ++ b.leaves))

end DumpRules
