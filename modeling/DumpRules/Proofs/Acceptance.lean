import DumpRules.Rule.Check
import DumpRules.Proofs.Grammar.Soundness

/-!
# What is known of accepted rules

A declaration is accepted only if every check on it succeeds. `Accepted` keeps what the checks
found, `WellRead` what the readers guarantee of each clause, and `prepared_of_prepareRules` that
one rejected declaration is enough for there to be no prepared rules at all. Later proofs start
from these and do not look into the checks again.
-/

namespace DumpRules

set_option autoImplicit false

open Grammar

/-! ## Results that can be errors -/

theorem bind_eq_ok {ε α β : Type} {x : Except ε α} {f : α → Except ε β} {b : β} :
    x >>= f = .ok b ↔ ∃ a, x = .ok a ∧ f a = .ok b := by
  cases x <;> simp [bind, Except.bind]

theorem mapError_eq_ok {ε δ α : Type} {x : Except ε α} {f : ε → δ} {a : α} :
    x.mapError f = .ok a ↔ x = .ok a := by
  cases x <;> simp [Except.mapError]

theorem map_eq_ok {ε α β : Type} {x : Except ε α} {f : α → β} {b : β} :
    x.map f = .ok b ↔ ∃ a, x = .ok a ∧ f a = b := by
  cases x <;> simp [Except.map]

/-- Results are taken together iff each of them is there. -/
theorem mapM_eq_some_iff {α β : Type} {f : α → Option β} {as : List α} {bs : List β} :
    as.mapM f = some bs ↔ as.map f = bs.map some := by
  induction as generalizing bs with
  | nil => cases bs <;> simp
  | cons a later ih => cases bs <;> simp [List.mapM_cons, Option.bind_eq_some_iff, ih]

/-- If no result is an error, all of them are values. -/
theorem map_ok_values {ε α : Type} {error? : Except ε α → Option ε}
    {value? : Except ε α → Option α} (errors : ∀ e, error? (.error e) = some e)
    (values : ∀ a, value? (.ok a) = some a) {xs : List (Except ε α)}
    (clean : xs.filterMap error? = []) : (xs.filterMap value?).map .ok = xs := by
  rw [List.filterMap_eq_nil_iff] at clean
  induction xs with
  | nil => rfl
  | cons x later ih =>
      obtain ⟨first, others⟩ := List.forall_mem_cons.1 clean
      cases x with
      | error e => rw [errors] at first; cases first
      | ok a => rw [List.filterMap_cons_some (values a), List.map_cons, ih others]

/-! ## Clauses as they are read -/

/-- The clauses of one of the lists. -/
def Clauses.of (cs : Clauses) : ListKind → List Clause
  | .failOn => cs.failOn
  | .counts => cs.counts

theorem Clauses.mem_all {cs : Clauses} {c : Clause} : c ∈ cs.all ↔ ∃ kind, c ∈ cs.of kind := by
  rw [Clauses.all, List.mem_append]
  constructor
  · rintro (member | member)
    · exact ⟨.failOn, member⟩
    · exact ⟨.counts, member⟩
  · rintro ⟨kind, member⟩
    cases kind with
    | failOn => exact .inl member
    | counts => exact .inr member

/-- What holds of every clause that is read from a list. -/
structure Clause.WellRead (list : ListKind) (c : Clause) : Prop where
  kind : c.kind = list
  /-- Without relations a clause would bound nothing. -/
  related : list = .counts → c.relations ≠ []
  /-- Phases before a clause are some, are concrete and are named once. -/
  own : ∀ ps, c.phases = some ps → ps ≠ [] ∧ ps.Nodup ∧ .placeholder ∉ ps

theorem Clause.WellRead.demand_failOn {c : Clause} (well : c.WellRead .failOn) :
    c.demand = .failOn := by
  have kind := well.kind
  unfold Clause.kind at kind
  split at kind
  · assumption
  · cases kind

theorem Clause.WellRead.demand_counts {c : Clause} (well : c.WellRead .counts) :
    c.demand = .counts c.relations := by
  have kind := well.kind
  unfold Clause.kind at kind
  unfold Clause.relations
  split at kind
  · cases kind
  · assumption

theorem readClauses_eq_ok_iff {failOn counts : String} {cs : Clauses} :
    readClauses failOn counts = .ok cs ↔
      readFailOn failOn = .ok cs.failOn ∧ readCounts counts = .ok cs.counts := by
  obtain ⟨forbidden, bounded⟩ := cs
  unfold readClauses
  cases readFailOn failOn <;> cases readCounts counts <;> simp

theorem wellRead_of_readClauses {failOn counts : String} {cs : Clauses}
    (read : readClauses failOn counts = .ok cs) (kind : ListKind) :
    ∀ c ∈ cs.of kind, c.WellRead kind := by
  obtain ⟨forbidden, bounded⟩ := readClauses_eq_ok_iff.1 read
  intro c member
  cases kind with
  | failOn =>
      refine (readFailOn_written forbidden).forall_mem
        (P := fun x => ∀ c : Clause, c.content = x → c.WellRead .failOn) ?_ _
        (List.mem_map_of_mem member) c rfl
      rintro _ s r ⟨ref⟩ c same
      obtain ⟨rfl, rfl, demand⟩ := Content.mk.inj same
      exact ⟨by rw [Clause.kind, demand], by simp, ref.own⟩
  | counts =>
      refine (readCounts_written bounded).forall_mem
        (P := fun x => ∀ c : Clause, c.content = x → c.WellRead .counts) ?_ _
        (List.mem_map_of_mem member) c rfl
      rintro _ s r ⟨ref, gap, related⟩ c same
      obtain ⟨rfl, rfl, demand⟩ := Content.mk.inj same
      refine ⟨by rw [Clause.kind, demand], fun _ => ?_, ref.own⟩
      obtain ⟨first, others⟩ := related
      rw [Clause.relations, demand]
      exact List.cons_ne_nil _ _

/-! ## Accepted declarations -/

/-- What is known of a rule that a declaration was accepted as. -/
structure RuleDeclaration.Accepted (d : RuleDeclaration) (machine : Machine) (number : Nat)
    (rule : IrRule) : Prop where
  index : rule.index = number
  name : rule.name = d.name
  applyIf : rule.applyIf = d.applyIf
  target : Target.ofDeclared d.phases = .ok rule.target
  read : readClauses d.failOn d.counts = .ok rule.clauses
  filled : rule.clauses.isEmpty = false
  consistent : ∃ tally, consistent rule.clauses.failOn rule.clauses.counts = .ok tally
  inside : outsidePhase? rule.target rule.clauses = none
  known : ∀ c ∈ d.applyIf, machine.flag c.flag ≠ none

theorem accepted_of_ofDeclaration {index : Nat} {d : RuleDeclaration} {machine : Machine}
    {rule : IrRule} (accepted : IrRule.ofDeclaration index d machine = .ok rule) :
    d.Accepted machine index rule := by
  unfold IrRule.ofDeclaration at accepted
  simp only [bind_eq_ok, mapError_eq_ok] at accepted
  obtain ⟨target, declared, clauses, read, accepted⟩ := accepted
  split at accepted
  case isTrue => cases accepted
  rename_i filled
  simp only [bind_eq_ok, mapError_eq_ok] at accepted
  obtain ⟨tally, consistent, accepted⟩ := accepted
  split at accepted
  case h_1 => cases accepted
  rename_i inside
  split at accepted
  case h_1 => cases accepted
  rename_i known
  cases accepted
  have inside : outsidePhase? target clauses = none := by
    cases outside : outsidePhase? target clauses with
    | none => rfl
    | some found => exact absurd outside (inside found.1 found.2)
  have known : ∀ c ∈ d.applyIf, machine.flag c.flag ≠ none := by
    intro c member missing
    cases unknown : d.applyIf.find? fun c => (machine.flag c.flag).isNone with
    | none => simpa [missing] using List.find?_eq_none.1 unknown c member
    | some found => exact known found unknown
  exact ⟨rfl, rfl, rfl, declared, read, by simpa using filled, ⟨tally, consistent⟩, inside, known⟩

theorem RuleDeclaration.Accepted.exists_clause {d : RuleDeclaration} {machine : Machine}
    {number : Nat} {rule : IrRule} (accepted : d.Accepted machine number rule) :
    ∃ c, c ∈ rule.clauses.all := by
  refine List.exists_mem_of_ne_nil _ fun empty => ?_
  obtain ⟨noFailOn, noCounts⟩ := List.append_eq_nil_iff.1 empty
  have filled := accepted.filled
  simp [Clauses.isEmpty, noFailOn, noCounts] at filled

/-! ## Prepared rules -/

/-- What is known of a prepared rule: it was accepted, and it has a plan iff it applies. -/
structure PreparedRule.Follows (machine : Machine) (catalog : Catalog) (number : Nat)
    (d : RuleDeclaration) (r : PreparedRule) : Prop where
  accepted : d.Accepted machine number r.rule
  planned : r.rule.isApplicable machine = true →
    ∃ p, r.plan = some p ∧
      DumpRules.plan r.rule.target machine catalog r.rule.clauses = .ok p
  skipped : r.rule.isApplicable machine = false → r.plan = none

theorem follows_of_prepareRule {machine : Machine} {catalog : Catalog} {index : Nat}
    {d : RuleDeclaration} {r : PreparedRule}
    (prepared : prepareRule machine catalog index d = .ok r) :
    r.Follows machine catalog index d := by
  simp only [prepareRule, mapError_eq_ok, bind_eq_ok] at prepared
  obtain ⟨rule, accepted, prepared⟩ := prepared
  split at prepared
  · rename_i applies
    simp only [IrRule.plan, bind_eq_ok, mapError_eq_ok] at prepared
    obtain ⟨p, planned, done⟩ := prepared
    cases done
    exact ⟨accepted_of_ofDeclaration accepted, fun _ => ⟨p, rfl, planned⟩, by simp [applies]⟩
  · rename_i skips
    cases prepared
    exact ⟨accepted_of_ofDeclaration accepted, fun applies => absurd applies skips, fun _ => rfl⟩

theorem map_ok_accepted {rs : List (Except RuleError PreparedRule)} (clean : rejected rs = []) :
    (accepted rs).map .ok = rs :=
  map_ok_values (fun _ => rfl) (fun _ => rfl) clean

/-- Rules are prepared together or not at all. -/
theorem prepared_of_prepareRules {machine : Machine} {catalog : Catalog}
    {ds : List RuleDeclaration} {prepared : List PreparedRule}
    (ready : (prepareRules machine catalog ds).value = .ok prepared) :
    prepared.length = ds.length ∧ ∀ (i : Nat) (d : RuleDeclaration), ds[i]? = some d →
      ∃ r, prepared[i]? = some r ∧ r.Follows machine catalog (i + 1) d := by
  simp only [prepareRules] at ready
  split at ready
  case h_2 => cases ready
  rename_i clean
  cases ready
  have all := map_ok_accepted clean
  refine ⟨by simpa using congrArg List.length all, fun i d found => ?_⟩
  have same := congrArg (·[i]?) all
  simp only [List.getElem?_map, List.getElem?_mapIdx, found, Option.map_some,
    Option.map_eq_some_iff] at same
  obtain ⟨r, at_i, prepared⟩ := same
  exact ⟨r, at_i, follows_of_prepareRule prepared.symm⟩

end DumpRules
