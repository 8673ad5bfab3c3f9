import DumpRules.Proofs.Acceptance

/-!
# The phases that a clause is meant for

The phases written before a clause come first, then those of its rule, then the default phase of its
node: `RuleDeclaration.meant`. A rule keeps its phases in another form and drops phases before a
clause that are not among them, but once it is accepted the targets of each of its clauses are just
the phases that the clause is meant for, there is at least one, and none comes twice (`Aimed`).
-/

namespace DumpRules

set_option autoImplicit false

/-! ## Phases in order -/

theorem Phase.pairwise_all : Phase.all.Pairwise (· < ·) := by
  decide

theorem Phase.nodup_of_pairwise {ps : List Phase} (ordered : ps.Pairwise (· < ·)) : ps.Nodup :=
  List.nodup_iff_pairwise_ne.2 (ordered.imp fun less same => by
    subst same
    exact Nat.lt_irrefl _ less)

@[simp] theorem mem_ascending {p : Phase} {ps : List Phase} : p ∈ ascending ps ↔ p ∈ ps := by
  simp [ascending]

theorem pairwise_ascending (ps : List Phase) : (ascending ps).Pairwise (· < ·) :=
  Phase.pairwise_all.filter _

/-! ## The phases of a rule -/

/-- The concrete phases that a rule names, as written. -/
def RuleDeclaration.concrete (d : RuleDeclaration) : List Phase :=
  d.phases.filter (· ≠ .placeholder)

/-- What a rule is about, once its phases are accepted. -/
theorem target_of_ofDeclared {d : RuleDeclaration} {t : Target}
    (declared : Target.ofDeclared d.phases = .ok t) :
    t = .default ∧ d.concrete = [] ∨
      t = .explicit (ascending d.concrete) ∧ d.concrete ≠ [] := by
  simp only [Target.ofDeclared] at declared
  split at declared
  case h_1 => cases declared
  split at declared
  · rename_i unnamed
    cases declared
    refine .inl ⟨rfl, List.eq_nil_iff_forall_not_mem.2 fun p member => ?_⟩
    have member : p ∈ ascending d.concrete := mem_ascending.2 member
    rw [RuleDeclaration.concrete, unnamed] at member
    exact List.not_mem_nil member
  · rename_i least others named
    split at declared
    · cases declared
    · cases declared
      refine .inr ⟨rfl, fun empty => ?_⟩
      have member : least ∈ ascending d.concrete := by
        rw [RuleDeclaration.concrete, named]
        exact List.mem_cons_self
      rw [mem_ascending, empty] at member
      exact List.not_mem_nil member

/-- Nothing is found outside the phases of a rule if its clauses keep to them. -/
theorem mem_of_outsidePhase? {phases own : List Phase} {cs : Clauses} {c : Clause}
    (inside : outsidePhase? (.explicit phases) cs = none) (member : c ∈ cs.all)
    (written : c.phases = some own) : ∀ p ∈ own, p ∈ phases := by
  intro p among
  simp only [outsidePhase?, List.findSome?_eq_none_iff, Option.map_eq_none_iff,
    List.find?_eq_none] at inside
  have kept := inside c member p (by rw [written]; exact among)
  simpa using kept

/-! ## The targets of a clause -/

/-- The phases that a clause of a rule is meant for, given the default phases of nodes. -/
def RuleDeclaration.meant (d : RuleDeclaration) (default : String → Option Phase) (c : Clause) :
    List Phase :=
  match c.phases with
  | some own => own
  | none =>
    match d.concrete with
    | [] => (default c.node).toList
    | p :: later => p :: later

theorem meant_of_own {d : RuleDeclaration} {default : String → Option Phase} {c : Clause}
    {own : List Phase} (written : c.phases = some own) : d.meant default c = own := by
  rw [RuleDeclaration.meant, written]

theorem meant_of_default {d : RuleDeclaration} {default : String → Option Phase} {c : Clause}
    (plain : c.phases = none) (unnamed : d.concrete = []) :
    d.meant default c = (default c.node).toList := by
  rw [RuleDeclaration.meant, plain, unnamed]

theorem meant_of_named {d : RuleDeclaration} {default : String → Option Phase} {c : Clause}
    (plain : c.phases = none) (named : d.concrete ≠ []) : d.meant default c = d.concrete := by
  obtain ⟨p, later, phases⟩ := List.exists_cons_of_ne_nil named
  rw [RuleDeclaration.meant, plain, phases]

/-- Phases that are those a clause is meant for, each of them once. -/
structure Aimed (meant targets : List Phase) : Prop where
  nonempty : targets ≠ []
  once : targets.Nodup
  same : ∀ p, p ∈ targets ↔ p ∈ meant

theorem Clause.WellRead.aimed {kind : ListKind} {c : Clause} (well : c.WellRead kind)
    {own : List Phase} (written : c.phases = some own) : Aimed own own := by
  obtain ⟨filled, once, -⟩ := well.own own written
  exact ⟨filled, once, fun p => Iff.rfl⟩

theorem aimed_ascending {ps : List Phase} (filled : ps ≠ []) : Aimed ps (ascending ps) where
  nonempty empty := by
    obtain ⟨p, member⟩ := List.exists_mem_of_ne_nil ps filled
    have member := mem_ascending.2 member
    rw [empty] at member
    exact List.not_mem_nil member
  once := Phase.nodup_of_pairwise (pairwise_ascending ps)
  same p := mem_ascending

theorem aimed_of_default {d : RuleDeclaration} {machine : Machine} {catalog : Catalog}
    {kind : ListKind} {c : Clause} {targets : List Phase} (well : c.WellRead kind)
    (unnamed : d.concrete = []) (tried : c.defaultTargets machine catalog = .ok targets) :
    Aimed (d.meant machine.defaultPhase c) targets := by
  rw [Clause.defaultTargets] at tried
  cases written : c.phases with
  | some own =>
      rw [written] at tried
      cases tried
      rw [meant_of_own written]
      exact well.aimed written
  | none =>
      rw [written] at tried
      split at tried
      case h_1 impossible => cases impossible
      split at tried
      case isFalse => cases tried
      split at tried
      case h_2 => cases tried
      rename_i p default
      cases tried
      rw [meant_of_default written unnamed, default]
      exact ⟨List.cons_ne_nil _ _, by simp, fun q => Iff.rfl⟩

/-- Phases before a clause that the rule is not about would be dropped, but there are none. -/
theorem aimed_of_explicit {d : RuleDeclaration} {default : String → Option Phase}
    {kind : ListKind} {cs : Clauses} {c : Clause} (well : c.WellRead kind)
    (named : d.concrete ≠ []) (member : c ∈ cs.all)
    (inside : outsidePhase? (.explicit (ascending d.concrete)) cs = none) :
    Aimed (d.meant default c) (c.explicitTargets (ascending d.concrete)) := by
  rw [Clause.explicitTargets]
  cases written : c.phases with
  | some own =>
      have kept : own.filter (ascending d.concrete).contains = own :=
        List.filter_eq_self.2 fun p among => by
          simpa using mem_of_outsidePhase? inside member written p among
      simp only [kept]
      rw [meant_of_own written]
      exact well.aimed written
  | none =>
      rw [meant_of_named written named]
      exact aimed_ascending named

/-- A clause of an accepted rule is tried exactly where it is meant to be. -/
theorem RuleDeclaration.Accepted.aimed {d : RuleDeclaration} {machine : Machine} {number : Nat}
    {rule : IrRule} (accepted : d.Accepted machine number rule) {catalog : Catalog} {c : Clause}
    (member : c ∈ rule.clauses.all) {targets : List Phase}
    (tried : rule.target.of machine catalog c = .ok targets) :
    Aimed (d.meant machine.defaultPhase c) targets := by
  obtain ⟨kind, among⟩ := Clauses.mem_all.1 member
  have well := wellRead_of_readClauses accepted.read kind c among
  have inside := accepted.inside
  rcases target_of_ofDeclared accepted.target with ⟨target, unnamed⟩ | ⟨target, named⟩
  · rw [target, Target.of] at tried
    exact aimed_of_default well unnamed tried
  · rw [target] at inside
    rw [target, Target.of] at tried
    cases tried
    exact aimed_of_explicit well named member inside

end DumpRules
