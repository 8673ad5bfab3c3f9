import DumpRules.Constraint

/-!
Plans: which constraints are checked in which phase.

Every clause has targets: the phases written before it, or else those of its rule, or else the
default phase of its node. A clause is tried at each of its targets in turn. If one try fails there is
no plan, and all reasons are reported, each once. Otherwise every phase that was a target of some
clause has a bucket with its constraints in the order of the clauses.
-/

namespace DumpRules

set_option autoImplicit false

/-- The phases that a rule is about. -/
inductive Target where
  /-- Each node in its default phase. -/
  | default
  /-- Given phases, in ascending order. -/
  | explicit (phases : List Phase)
deriving DecidableEq

/-- Phases in ascending order, each once. -/
def ascending (phases : List Phase) : List Phase :=
  Phase.all.filter phases.contains

/-- The constraints of one phase. -/
structure Bucket where
  failOn : List Constraint
  counts : List Constraint
deriving DecidableEq

/-- Whether a bucket holds no constraint. -/
def Bucket.isEmpty (b : Bucket) : Bool :=
  b.failOn.isEmpty && b.counts.isEmpty

/-- The buckets of a rule, in ascending order of their phases. -/
abbrev Plan := List (Phase × Bucket)

/-- A constraint with the list that it comes from. -/
structure Placement where
  kind : ListKind
  constraint : Constraint
deriving DecidableEq

/-- The targets of a clause when its rule is about default phases. -/
def Clause.defaultTargets (c : Clause) (machine : Machine) (catalog : Catalog) :
    Except ResolveError (List Phase) :=
  match c.phases with
  | some phases => .ok phases
  | none =>
    if catalog.contains c.node then
      match machine.defaultPhase c.node with
      | some p => .ok [p]
      | none => .error (.noDefaultPhase c.node)
    else .error (.unknownNode c.node)

/-- The targets of a clause when its rule is about given phases. Phases before the clause that the
rule is not about do not count. -/
def Clause.explicitTargets (c : Clause) (phases : List Phase) : List Phase :=
  match c.phases with
  | some own => own.filter phases.contains
  | none => phases

/-- The targets of a clause. -/
def Target.of (t : Target) (machine : Machine) (catalog : Catalog) (c : Clause) :
    Except ResolveError (List Phase) :=
  match t with
  | .default => c.defaultTargets machine catalog
  | .explicit phases => .ok (c.explicitTargets phases)

/-- Clauses with their list and their number in it. -/
def Clauses.numbered (cs : Clauses) : List (ListKind × Nat × Clause) :=
  cs.failOn.mapIdx (fun i c => (.failOn, i + 1, c)) ++
    cs.counts.mapIdx fun i c => (.counts, i + 1, c)

/-- All tries of one clause, in order. -/
def tries (t : Target) (machine : Machine) (catalog : Catalog) :
    ListKind × Nat × Clause → List (Except ResolveError Placement)
  | (kind, index, c) =>
    match t.of machine catalog c with
    | .error e => [.error e]
    | .ok phases => phases.map fun p =>
      (Constraint.resolve catalog index c p).map fun constraint => { kind, constraint }

/-- The reasons why tries failed. -/
def failed (ts : List (Except ResolveError Placement)) : List ResolveError :=
  ts.filterMap fun
    | .error e => some e
    | .ok _ => none

/-- What came of the tries that did not fail. -/
def placed (ts : List (Except ResolveError Placement)) : List Placement :=
  ts.filterMap fun
    | .error _ => none
    | .ok p => some p

/-- The constraints of one phase. -/
def bucketOf (ps : List Placement) (phase : Phase) : Bucket :=
  let own (kind : ListKind) :=
    (ps.filter fun p => p.kind = kind ∧ p.constraint.phase = phase).map (·.constraint)
  { failOn := own .failOn, counts := own .counts }

/-- The buckets of all phases that have a constraint. -/
def gather (ps : List Placement) : Plan :=
  (Phase.all.filter fun phase => ps.any fun p => p.constraint.phase = phase).map fun phase =>
    (phase, bucketOf ps phase)

/-- The plan of a rule with some clauses. -/
def plan (t : Target) (machine : Machine) (catalog : Catalog) (cs : Clauses) :
    Except ResolveErrors Plan :=
  let ts := cs.numbered.flatMap (tries t machine catalog)
  match failed ts with
  | [] => .ok (gather (placed ts))
  | es => .error ⟨es.eraseDups⟩

end DumpRules
