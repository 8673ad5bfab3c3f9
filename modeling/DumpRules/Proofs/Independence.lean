import DumpRules.Rule.Mode
import DumpRules.Proofs.Acceptance
import Mathlib.Data.List.Basic

/-!
# Declarations do not influence each other

A declaration is accepted and planned, or rejected, without regard to those before it: its number
is only put down (`prepareRule_later`). So a list of declarations that is put together from two
gives what the two give, with the numbers of the second increased (`Independent`), and this is
kept by whatever is done to each prepared rule on its own.
-/

namespace DumpRules

set_option autoImplicit false

/-! ## Numbers -/

/-- A rule with `n` more declarations before it. -/
def IrRule.later (n : Nat) (r : IrRule) : IrRule :=
  { r with index := r.index + n }

def PreparedRule.later (n : Nat) (r : PreparedRule) : PreparedRule :=
  { r with rule := r.rule.later n }

def RuleReport.later (n : Nat) (r : RuleReport) : RuleReport :=
  { r with index := r.index + n }

def RuleError.later (n : Nat) (e : RuleError) : RuleError :=
  { e with index := e.index + n }

theorem map_bind {ε α β γ : Type} (x : Except ε α) (f : α → Except ε β) (g : β → γ) :
    (x >>= f).map g = x >>= fun a => (f a).map g := by
  cases x <;> rfl

theorem mapError_eq_error {ε δ α : Type} {x : Except ε α} {f : ε → δ} {e : δ} :
    x.mapError f = .error e ↔ ∃ a, x = .error a ∧ f a = e := by
  cases x <;> simp [Except.mapError]

/-- A declaration is accepted whatever its number is. -/
theorem ofDeclaration_later (index n : Nat) (d : RuleDeclaration) (machine : Machine) :
    IrRule.ofDeclaration (index + n) d machine =
      (IrRule.ofDeclaration index d machine).map (.later n) := by
  unfold IrRule.ofDeclaration
  simp only [map_bind]
  refine bind_congr fun target => bind_congr fun clauses => ?_
  split
  · rfl
  · rw [map_bind]
    refine bind_congr fun tally => ?_
    split
    · rfl
    · split <;> rfl

/-- The result of preparing a rule with `n` more declarations before it. -/
def laterResult (n : Nat) : Except RuleError PreparedRule → Except RuleError PreparedRule
  | .ok r => .ok (r.later n)
  | .error e => .error (e.later n)

theorem prepareRule_later (machine : Machine) (catalog : Catalog) (index n : Nat)
    (d : RuleDeclaration) :
    prepareRule machine catalog (index + n) d =
      laterResult n (prepareRule machine catalog index d) := by
  simp only [prepareRule, ofDeclaration_later]
  cases IrRule.ofDeclaration index d machine with
  | error e => rfl
  | ok rule =>
      have applies : (rule.later n).isApplicable machine = rule.isApplicable machine := rfl
      have plan : (rule.later n).plan machine catalog = rule.plan machine catalog := rfl
      simp only [Except.map, bind, Except.bind, applies, plan]
      split
      · cases rule.plan machine catalog <;> rfl
      · rfl

/-! ## Results of lists -/

/-- The rejected declarations of a result, in order. -/
def errorsOf {β : Type} : Except RuleErrors (List β) → List RuleError
  | .ok _ => []
  | .error es => es.errors

/-- What two lists of declarations give together if the second has `n` declarations before it: all
that both give, or else the rejected declarations of both. -/
def inSequence {β : Type} (later : Nat → β → β) (n : Nat) :
    Except RuleErrors (List β) → Except RuleErrors (List β) → Except RuleErrors (List β)
  | .ok xs, .ok ys => .ok (xs ++ ys.map (later n))
  | x, y => .error ⟨errorsOf x ++ (errorsOf y).map (.later n)⟩

/-- Declarations are looked at independently of each other, and none counts if one is rejected. -/
structure Independent {β : Type} (later : Nat → β → β)
    (run : List RuleDeclaration → Except RuleErrors (List β)) : Prop where
  append : ∀ ds₁ ds₂, run (ds₁ ++ ds₂) = inSequence later ds₁.length (run ds₁) (run ds₂)
  /-- A declaration is rejected just when it is on its own, and for the same cause. -/
  alone : ∀ (ds : List RuleDeclaration) (i : Nat) (d : RuleDeclaration), ds[i]? = some d →
    ∀ name cause, RuleError.mk (i + 1) name cause ∈ errorsOf (run ds) ↔
      run [d] = .error ⟨[⟨1, name, cause⟩]⟩

/-- What comes of the results of preparing each declaration. -/
def settled (rs : List (Except RuleError PreparedRule)) :
    Except RuleErrors (List PreparedRule) :=
  match rejected rs with
  | [] => .ok (accepted rs)
  | es => .error ⟨es⟩

theorem errorsOf_settled (rs : List (Except RuleError PreparedRule)) :
    errorsOf (settled rs) = rejected rs := by
  unfold settled
  split
  · rename_i clean
    rw [clean]
    rfl
  · rfl

theorem settled_of_none {rs : List (Except RuleError PreparedRule)} (clean : rejected rs = []) :
    settled rs = .ok (accepted rs) := by
  rw [settled, clean]

theorem settled_of_some {rs : List (Except RuleError PreparedRule)} (faulty : rejected rs ≠ []) :
    settled rs = .error ⟨rejected rs⟩ := by
  unfold settled
  split
  · contradiction
  · rfl

theorem rejected_later (n : Nat) (rs : List (Except RuleError PreparedRule)) :
    rejected (rs.map (laterResult n)) = (rejected rs).map (.later n) := by
  rw [rejected, rejected, List.filterMap_map, List.map_filterMap]
  refine List.filterMap_congr fun x _ => ?_
  cases x <;> rfl

theorem accepted_later (n : Nat) (rs : List (Except RuleError PreparedRule)) :
    accepted (rs.map (laterResult n)) = (accepted rs).map (.later n) := by
  rw [accepted, accepted, List.filterMap_map, List.map_filterMap]
  refine List.filterMap_congr fun x _ => ?_
  cases x <;> rfl

theorem inSequence_of_some {β : Type} {later : Nat → β → β} {n : Nat}
    {x y : Except RuleErrors (List β)} (faulty : errorsOf x ++ (errorsOf y).map (.later n) ≠ []) :
    inSequence later n x y = .error ⟨errorsOf x ++ (errorsOf y).map (.later n)⟩ := by
  cases x <;> cases y
  case ok.ok => exact absurd rfl faulty
  all_goals rfl

theorem settled_append (n : Nat) (rs rs' : List (Except RuleError PreparedRule)) :
    settled (rs ++ rs'.map (laterResult n)) =
      inSequence PreparedRule.later n (settled rs) (settled rs') := by
  have all : rejected (rs ++ rs'.map (laterResult n)) =
      rejected rs ++ (rejected rs').map (.later n) := by
    rw [← rejected_later]
    exact List.filterMap_append
  by_cases clean : rejected rs = [] ∧ rejected rs' = []
  · obtain ⟨first, second⟩ := clean
    rw [settled_of_none first, settled_of_none second, inSequence,
      settled_of_none (by simp [all, first, second]), ← accepted_later]
    exact congrArg Except.ok List.filterMap_append
  · have faulty : rejected rs ++ (rejected rs').map (.later n) ≠ [] := by simpa using clean
    rw [settled_of_some (all ▸ faulty), all, inSequence_of_some, errorsOf_settled, errorsOf_settled]
    rwa [errorsOf_settled, errorsOf_settled]

/-! ## Preparing and checking -/

/-- The results of preparing each declaration of a list. -/
def preparedEach (machine : Machine) (catalog : Catalog) (ds : List RuleDeclaration) :
    List (Except RuleError PreparedRule) :=
  ds.mapIdx fun i d => prepareRule machine catalog (i + 1) d

theorem preparedEach_append (machine : Machine) (catalog : Catalog)
    (ds₁ ds₂ : List RuleDeclaration) :
    preparedEach machine catalog (ds₁ ++ ds₂) = preparedEach machine catalog ds₁ ++
      (preparedEach machine catalog ds₂).map (laterResult ds₁.length) := by
  have each : ∀ (i : Nat) (d : RuleDeclaration),
      prepareRule machine catalog (i + ds₁.length + 1) d =
        laterResult ds₁.length (prepareRule machine catalog (i + 1) d) := by
    intro i d
    rw [Nat.add_right_comm, prepareRule_later]
  simp only [preparedEach, List.mapIdx_append, each]
  simp only [List.mapIdx_eq_zipIdx_map, List.map_map]
  rfl

theorem index_of_prepareRule {machine : Machine} {catalog : Catalog} {index : Nat}
    {d : RuleDeclaration} {e : RuleError} (failed : prepareRule machine catalog index d = .error e) :
    e.index = index := by
  simp only [prepareRule, mapError_eq_error] at failed
  obtain ⟨cause, -, rfl⟩ := failed
  rfl

theorem mem_rejected {rs : List (Except RuleError PreparedRule)} {e : RuleError} :
    e ∈ rejected rs ↔ .error e ∈ rs := by
  rw [rejected, List.mem_filterMap]
  constructor
  · rintro ⟨_ | r, member, ⟨⟩⟩
    exact member
  · exact fun member => ⟨_, member, rfl⟩

/-- A list rejects the declaration at a place iff that declaration is rejected by itself. -/
theorem mem_rejected_preparedEach {machine : Machine} {catalog : Catalog}
    {ds : List RuleDeclaration} {i : Nat} {d : RuleDeclaration} (found : ds[i]? = some d)
    {e : RuleError} (number : e.index = i + 1) :
    e ∈ rejected (preparedEach machine catalog ds) ↔
      prepareRule machine catalog (i + 1) d = .error e := by
  rw [mem_rejected, List.mem_iff_getElem?]
  simp only [preparedEach, List.getElem?_mapIdx, Option.map_eq_some_iff]
  constructor
  · rintro ⟨j, d', found', failed⟩
    have same : j + 1 = i + 1 := (index_of_prepareRule failed).symm.trans number
    obtain rfl : j = i := Nat.succ_injective same
    obtain rfl : d' = d := Option.some.inj (found'.symm.trans found)
    exact failed
  · exact fun failed => ⟨i, d, found, failed⟩

theorem laterResult_eq_error {n : Nat} {x : Except RuleError PreparedRule} {e : RuleError} :
    laterResult n x = .error (e.later n) ↔ x = .error e := by
  obtain ⟨index, name, cause⟩ := e
  rcases x with ⟨index', name', cause'⟩ | r
  · simp [laterResult, RuleError.later]
  · simp [laterResult]

theorem settled_singleton_eq_error {x : Except RuleError PreparedRule} {e : RuleError} :
    settled [x] = .error ⟨[e]⟩ ↔ x = .error e := by
  cases x <;> simp [settled, rejected]

theorem independent_prepareRules (machine : Machine) (catalog : Catalog) :
    Independent PreparedRule.later fun ds => (prepareRules machine catalog ds).value where
  append ds₁ ds₂ :=
    (congrArg settled (preparedEach_append machine catalog ds₁ ds₂)).trans (settled_append _ _ _)
  alone ds i d found name cause := by
    have place : RuleError.mk (i + 1) name cause = (RuleError.mk 1 name cause).later i := by
      simp [RuleError.later, Nat.add_comm]
    have own : prepareRule machine catalog (i + 1) d =
        laterResult i (prepareRule machine catalog 1 d) := by
      rw [Nat.add_comm, prepareRule_later]
    calc
      RuleError.mk (i + 1) name cause ∈ errorsOf (prepareRules machine catalog ds).value
        ↔ RuleError.mk (i + 1) name cause ∈ rejected (preparedEach machine catalog ds) :=
          iff_of_eq (congrArg _ (errorsOf_settled _))
      _ ↔ prepareRule machine catalog (i + 1) d = .error ⟨i + 1, name, cause⟩ :=
          mem_rejected_preparedEach found rfl
      _ ↔ prepareRule machine catalog 1 d = .error ⟨1, name, cause⟩ := by
          rw [own, place, laterResult_eq_error]
      _ ↔ settled [prepareRule machine catalog 1 d] = .error ⟨[⟨1, name, cause⟩]⟩ :=
          settled_singleton_eq_error.symm

theorem errorsOf_map {β γ : Type} (x : Except RuleErrors (List β)) (f : β → γ) :
    errorsOf (x.map (List.map f)) = errorsOf x := by
  cases x <;> rfl

theorem map_eq_error {ε α β : Type} {x : Except ε α} {f : α → β} {e : ε} :
    x.map f = .error e ↔ x = .error e := by
  cases x <;> simp [Except.map]

/-- What is made of each result on its own is as independent as the results are. -/
theorem Independent.map {β γ : Type} {later : Nat → β → β} {later' : Nat → γ → γ} {f : β → γ}
    {run : List RuleDeclaration → Except RuleErrors (List β)} (independent : Independent later run)
    (same : ∀ n x, f (later n x) = later' n (f x)) :
    Independent later' fun ds => (run ds).map (List.map f) where
  append ds₁ ds₂ := by
    have each : ∀ n, f ∘ later n = later' n ∘ f := fun n => funext (same n)
    simp only [independent.append]
    cases run ds₁ with
    | error es => cases run ds₂ <;> rfl
    | ok xs =>
        cases run ds₂ with
        | error es => rfl
        | ok ys => simp only [inSequence, Except.map, List.map_append, List.map_map, each]
  alone ds i d found name cause := by
    rw [errorsOf_map, map_eq_error]
    exact independent.alone ds i d found name cause

/-- **Rules are checked independently, and all or none.** In every mode, a list of declarations that
is put together from two is accepted iff both are. It then has the reports of the first followed by
those of the second with their numbers increased, and otherwise the rejected declarations of both
in the same way, so that a declaration is rejected in a list iff it is on its own. Preparing
without checking follows the same law. -/
theorem rules_independent (mode : EvalMode) (machine : Machine) (catalog : Catalog)
    (dumps : Dumps) :
    Independent RuleReport.later
        (fun ds => (checkRulesIn mode machine catalog dumps ds).value) ∧
      Independent PreparedRule.later fun ds => (prepareRules machine catalog ds).value := by
  have prepared := independent_prepareRules machine catalog
  refine ⟨?_, prepared⟩
  simp only [checkRulesIn_eq, checkRules_value]
  exact prepared.map fun n r => rfl

end DumpRules
