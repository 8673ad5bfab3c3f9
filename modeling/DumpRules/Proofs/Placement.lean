import DumpRules.Proofs.Targets
import Mathlib.Data.List.Basic

/-!
# Where the clauses of a rule are placed

A plan is made by trying every clause at every target and sorting what comes of it by phase. If no
try fails, each list of a bucket holds just the clauses of that list which are meant for the
phase, in their order and each once (`slots`). `Fits` says this of a whole plan.
-/

namespace DumpRules

set_option autoImplicit false

/-- The constraints of a bucket that come from one of the lists. -/
def Bucket.of (b : Bucket) : ListKind → List Constraint
  | .failOn => b.failOn
  | .counts => b.counts

variable {catalog : Catalog} {machine : Machine} {t : Target}

/-- The constraint of a numbered clause in a phase, if the clause is meant for it. -/
def slot? (catalog : Catalog) (meant : Clause → List Phase) (phase : Phase) (index : Nat)
    (c : Clause) : Option Constraint :=
  if phase ∈ meant c then (Constraint.resolve catalog index c phase).toOption else none

/-- The constraints that the clauses of a list have in a phase. -/
def slots (catalog : Catalog) (meant : Clause → List Phase) (phase : Phase) (list : List Clause) :
    List Constraint :=
  list.zipIdx.filterMap fun e => slot? catalog meant phase (e.2 + 1) e.1

theorem resolve_eq_ok_iff {index : Nat} {c : Clause} {p : Phase} {x : Constraint} :
    Constraint.resolve catalog index c p = .ok x ↔
      ∃ pattern, catalog.pattern c.node p = .ok pattern ∧
        x = ⟨index, c.node, p, pattern, c.relations⟩ := by
  unfold Constraint.resolve
  cases catalog.pattern c.node p <;> simp [eq_comm]

theorem mem_slots {meant : Clause → List Phase} {p : Phase} {list : List Clause} {x : Constraint} :
    x ∈ slots catalog meant p list ↔ ∃ (i : Nat) (c : Clause), list[i]? = some c ∧ p ∈ meant c ∧
      Constraint.resolve catalog (i + 1) c p = .ok x := by
  have slot : ∀ (i : Nat) (c : Clause), slot? catalog meant p (i + 1) c = some x ↔
      p ∈ meant c ∧ Constraint.resolve catalog (i + 1) c p = .ok x := by
    intro i c
    cases resolved : Constraint.resolve catalog (i + 1) c p <;>
      simp [slot?, resolved, Except.toOption]
  simp only [slots, List.mem_filterMap, slot, Prod.exists, List.mem_zipIdx_iff_getElem?]
  exact exists_comm

/-- A list has a constraint in a phase iff one of its clauses is meant for the phase. -/
theorem slots_ne_nil_iff {meant : Clause → List Phase} {p : Phase} {list : List Clause}
    (known : ∀ c ∈ list, p ∈ meant c → ∃ pattern, catalog.pattern c.node p = .ok pattern) :
    slots catalog meant p list ≠ [] ↔ ∃ c ∈ list, p ∈ meant c := by
  constructor
  · intro filled
    obtain ⟨x, member⟩ := List.exists_mem_of_ne_nil _ filled
    obtain ⟨i, c, at_i, aimed, -⟩ := mem_slots.1 member
    exact ⟨c, List.mem_of_getElem? at_i, aimed⟩
  · rintro ⟨c, member, aimed⟩
    obtain ⟨pattern, found⟩ := known c member aimed
    obtain ⟨i, at_i⟩ := List.mem_iff_getElem?.1 member
    exact List.ne_nil_of_mem
      (mem_slots.2 ⟨i, c, at_i, aimed, resolve_eq_ok_iff.2 ⟨pattern, found, rfl⟩⟩)

/-! ## One clause -/

theorem placed_tries {kind : ListKind} {index : Nat} {c : Clause} {targets : List Phase}
    (tried : t.of machine catalog c = .ok targets) :
    placed (tries t machine catalog (kind, index, c)) = targets.filterMap fun p =>
      (Constraint.resolve catalog index c p).toOption.map (Placement.mk kind) := by
  simp only [tries, tried, placed, List.filterMap_map]
  congr 1
  funext p
  cases resolved : Constraint.resolve catalog index c p <;>
    simp [resolved, Except.map, Except.toOption]

/-- Where nothing fails, a clause has targets and its node is known at each of them. -/
theorem tried_of_clean {kind : ListKind} {index : Nat} {c : Clause}
    (clean : failed (tries t machine catalog (kind, index, c)) = []) :
    ∃ targets, t.of machine catalog c = .ok targets ∧
      ∀ p ∈ targets, ∃ pattern, catalog.pattern c.node p = .ok pattern := by
  cases tried : t.of machine catalog c with
  | error e => simp [tries, tried, failed] at clean
  | ok targets =>
      refine ⟨targets, rfl, fun p member => ?_⟩
      simp only [tries, tried, failed, List.filterMap_map, List.filterMap_eq_nil_iff] at clean
      have good := clean p member
      cases found : catalog.pattern c.node p with
      | error e => simp [Constraint.resolve, found, Except.map] at good
      | ok pattern => exact ⟨pattern, rfl⟩

/-- The constraint of a placement, if it is for a given list and phase. -/
def Placement.at? (kind : ListKind) (phase : Phase) (q : Placement) : Option Constraint :=
  if q.kind = kind ∧ q.constraint.phase = phase then some q.constraint else none

theorem at?_of_resolve {kind list : ListKind} {index : Nat} {c : Clause} {p phase : Phase} :
    ((Constraint.resolve catalog index c p).toOption.map (Placement.mk list)).bind
        (Placement.at? kind phase) =
      if list = kind ∧ p = phase then (Constraint.resolve catalog index c p).toOption
      else none := by
  cases resolved : Constraint.resolve catalog index c p with
  | error e => simp [Except.toOption]
  | ok x =>
      obtain ⟨pattern, found, rfl⟩ := resolve_eq_ok_iff.1 resolved
      simp [Except.toOption, Placement.at?]

theorem filterMap_once {α β : Type} [DecidableEq α] {as : List α} (once : as.Nodup) (a : α)
    (f : α → Option β) :
    (as.filterMap fun x => if x = a then f x else none) =
      if a ∈ as then (f a).toList else [] := by
  induction as with
  | nil => rfl
  | cons x later ih =>
      obtain ⟨new, once⟩ := List.nodup_cons.1 once
      by_cases same : x = a
      · subst same
        have gone : (later.filterMap fun y => if y = x then f y else none) = [] := by
          rw [ih once, if_neg new]
        cases found : f x <;> simp [found, gone]
      · rw [List.filterMap_cons_none (by simp [same]), ih once]
        simp [Ne.symm same]

/-- A clause has one constraint in each phase that it is meant for, and none elsewhere. -/
theorem at?_placed_tries {meant : Clause → List Phase} {targets : List Phase}
    {kind list : ListKind} {index : Nat} {c : Clause} {phase : Phase}
    (tried : t.of machine catalog c = .ok targets) (aimed : Aimed (meant c) targets) :
    (placed (tries t machine catalog (list, index, c))).filterMap (Placement.at? kind phase) =
      if list = kind then (slot? catalog meant phase index c).toList else [] := by
  rw [placed_tries tried, List.filterMap_filterMap]
  simp only [at?_of_resolve]
  by_cases own : list = kind
  · -- Targets come once each, so at most one try lands in the phase.
    simp only [own, true_and, if_true, slot?]
    rw [filterMap_once aimed.once]
    by_cases member : phase ∈ meant c
    · rw [if_pos ((aimed.same phase).2 member), if_pos member]
    · rw [if_neg (fun among => member ((aimed.same phase).1 among)), if_neg member]
      rfl
  · simp [own]

/-! ## The plan -/

/-- A plan in which every clause stands exactly where it is meant to. -/
structure Fits (catalog : Catalog) (meant : Clause → List Phase) (cs : Clauses) (plan : Plan) :
    Prop where
  aimed : ∀ c ∈ cs.all, meant c ≠ []
  known : ∀ c ∈ cs.all, ∀ p ∈ meant c, ∃ pattern, catalog.pattern c.node p = .ok pattern
  ordered : (plan.map Prod.fst).Pairwise (· < ·)
  phases : ∀ p, p ∈ plan.map Prod.fst ↔ ∃ c ∈ cs.all, p ∈ meant c
  buckets : ∀ p b, (p, b) ∈ plan → ∀ kind, b.of kind = slots catalog meant p (cs.of kind)

theorem flatMap_numbered {β : Type} (cs : Clauses) (f : ListKind → Nat → Clause → List β) :
    (cs.numbered.flatMap fun e => f e.1 e.2.1 e.2.2) =
      (cs.failOn.zipIdx.flatMap fun e => f .failOn (e.2 + 1) e.1) ++
        cs.counts.zipIdx.flatMap fun e => f .counts (e.2 + 1) e.1 := by
  simp only [Clauses.numbered, List.mapIdx_eq_zipIdx_map, List.flatMap_append, List.flatMap_map]

theorem mem_numbered {cs : Clauses} {kind : ListKind} {index : Nat} {c : Clause}
    (member : (kind, index, c) ∈ cs.numbered) : c ∈ cs.all := by
  simp only [Clauses.numbered, List.mem_append, List.mem_mapIdx, Prod.mk.injEq] at member
  rcases member with ⟨i, bound, -, -, rfl⟩ | ⟨i, bound, -, -, rfl⟩
  · exact List.mem_append_left _ (List.getElem_mem _)
  · exact List.mem_append_right _ (List.getElem_mem _)

theorem exists_numbered {cs : Clauses} {c : Clause} (member : c ∈ cs.all) :
    ∃ kind index, (kind, index, c) ∈ cs.numbered := by
  simp only [Clauses.numbered, List.mem_append, List.mem_mapIdx, Prod.mk.injEq]
  rcases List.mem_append.1 member with among | among
  · obtain ⟨i, bound, rfl⟩ := List.mem_iff_getElem.1 among
    exact ⟨_, _, .inl ⟨i, bound, rfl, rfl, rfl⟩⟩
  · obtain ⟨i, bound, rfl⟩ := List.mem_iff_getElem.1 among
    exact ⟨_, _, .inr ⟨i, bound, rfl, rfl, rfl⟩⟩

theorem of_bucketOf (ps : List Placement) (phase : Phase) (kind : ListKind) :
    (bucketOf ps phase).of kind = ps.filterMap (Placement.at? kind phase) := by
  have own : (bucketOf ps phase).of kind = (ps.filter fun p =>
      p.kind = kind ∧ p.constraint.phase = phase).map (·.constraint) := by
    cases kind <;> rfl
  rw [own]
  clear own
  induction ps with
  | nil => rfl
  | cons q later ih =>
      by_cases here : q.kind = kind ∧ q.constraint.phase = phase
      · have taken : q.at? kind phase = some q.constraint := if_pos here
        rw [List.filter_cons_of_pos (by simpa using here), List.map_cons, ih,
          List.filterMap_cons_some taken]
      · have left : q.at? kind phase = none := if_neg here
        rw [List.filter_cons_of_neg (by simpa using here), ih,
          List.filterMap_cons_none left]

theorem any_phase_iff {ps : List Placement} {phase : Phase} :
    (ps.any fun q => q.constraint.phase = phase) = true ↔
      ∃ kind, ps.filterMap (Placement.at? kind phase) ≠ [] := by
  simp only [List.any_eq_true, decide_eq_true_eq]
  constructor
  · rintro ⟨q, member, here⟩
    exact ⟨q.kind, List.ne_nil_of_mem
      (List.mem_filterMap.2 ⟨q, member, if_pos ⟨rfl, here⟩⟩)⟩
  · rintro ⟨kind, filled⟩
    obtain ⟨x, among⟩ := List.exists_mem_of_ne_nil _ filled
    obtain ⟨q, member, taken⟩ := List.mem_filterMap.1 among
    refine ⟨q, member, ?_⟩
    by_contra elsewhere
    rw [Placement.at?, if_neg fun both => elsewhere both.2] at taken
    cases taken

/-- What is placed of one list in one phase, over all tries. -/
theorem at?_placed_numbered {meant : Clause → List Phase} {cs : Clauses} {kind : ListKind}
    {phase : Phase} (each : ∀ c ∈ cs.all, ∃ targets,
      t.of machine catalog c = .ok targets ∧ Aimed (meant c) targets) :
    (placed (cs.numbered.flatMap (tries t machine catalog))).filterMap
      (Placement.at? kind phase) = slots catalog meant phase (cs.of kind) := by
  have split : placed (cs.numbered.flatMap (tries t machine catalog)) =
      cs.numbered.flatMap fun e => placed (tries t machine catalog e) :=
    List.filterMap_flatMap
  have entry : ∀ e ∈ cs.numbered,
      (placed (tries t machine catalog e)).filterMap (Placement.at? kind phase) =
        if e.1 = kind then (slot? catalog meant phase e.2.1 e.2.2).toList else [] := by
    rintro ⟨list, index, c⟩ member
    obtain ⟨targets, tried, aimed⟩ := each c (mem_numbered member)
    exact at?_placed_tries tried aimed
  rw [split, List.filterMap_flatMap, List.flatMap_congr entry,
    flatMap_numbered cs fun list index c =>
      if list = kind then (slot? catalog meant phase index c).toList else []]
  cases kind <;> simp [slots, Clauses.of, List.filterMap_eq_flatMap_toList]

/-- There is a plan only if each clause has targets and its node is known at all of them. -/
theorem tried_of_plan {cs : Clauses} {made : Plan}
    (planned : plan t machine catalog cs = .ok made) :
    made = gather (placed (cs.numbered.flatMap (tries t machine catalog))) ∧
      ∀ c ∈ cs.all, ∃ targets, t.of machine catalog c = .ok targets ∧
        ∀ p ∈ targets, ∃ pattern, catalog.pattern c.node p = .ok pattern := by
  simp only [plan] at planned
  split at planned
  case h_2 => cases planned
  rename_i clean
  cases planned
  refine ⟨rfl, fun c member => ?_⟩
  obtain ⟨kind, index, numbered⟩ := exists_numbered member
  rw [failed, List.filterMap_flatMap, List.flatMap_eq_nil_iff] at clean
  exact tried_of_clean (clean _ numbered)

theorem keys_gather (ps : List Placement) :
    (gather ps).map Prod.fst =
      Phase.all.filter fun phase => ps.any fun q => q.constraint.phase = phase := by
  simp [gather, Function.comp_def]

theorem bucket_of_mem_gather {ps : List Placement} {p : Phase} {b : Bucket}
    (member : (p, b) ∈ gather ps) : b = bucketOf ps p := by
  obtain ⟨q, -, same⟩ := List.mem_map.1 member
  cases same
  rfl

/-- A plan fits the clauses it was made for. -/
theorem fits_of_plan {meant : Clause → List Phase} {cs : Clauses} {made : Plan}
    (planned : plan t machine catalog cs = .ok made)
    (aimed : ∀ c ∈ cs.all, ∀ targets, t.of machine catalog c = .ok targets →
      Aimed (meant c) targets) : Fits catalog meant cs made := by
  obtain ⟨rfl, tried⟩ := tried_of_plan planned
  have each : ∀ c ∈ cs.all, ∃ targets, t.of machine catalog c = .ok targets ∧
      Aimed (meant c) targets := fun c member => by
    obtain ⟨targets, tried, -⟩ := tried c member
    exact ⟨targets, tried, aimed c member targets tried⟩
  have known : ∀ c ∈ cs.all, ∀ p ∈ meant c, ∃ pattern,
      catalog.pattern c.node p = .ok pattern := by
    intro c member p among
    obtain ⟨targets, tried, known⟩ := tried c member
    exact known p (((aimed c member targets tried).same p).2 among)
  constructor
  case aimed =>
    intro c member
    obtain ⟨targets, -, aimed⟩ := each c member
    obtain ⟨p, among⟩ := List.exists_mem_of_ne_nil _ aimed.nonempty
    exact List.ne_nil_of_mem ((aimed.same p).1 among)
  case known => exact known
  case ordered =>
    rw [keys_gather]
    exact Phase.pairwise_all.filter _
  case phases =>
    intro p
    have filled : ∀ kind, slots catalog meant p (cs.of kind) ≠ [] ↔
        ∃ c ∈ cs.of kind, p ∈ meant c := fun kind =>
      slots_ne_nil_iff fun c member among => known c (Clauses.mem_all.2 ⟨kind, member⟩) p among
    rw [keys_gather, List.mem_filter, any_phase_iff]
    simp only [at?_placed_numbered each, filled, Phase.mem_all, true_and, Clauses.mem_all]
    constructor
    · rintro ⟨kind, c, member, among⟩
      exact ⟨c, ⟨kind, member⟩, among⟩
    · rintro ⟨c, ⟨kind, member⟩, among⟩
      exact ⟨kind, c, member, among⟩
  case buckets =>
    intro p b member kind
    rw [bucket_of_mem_gather member, of_bucketOf, at?_placed_numbered each]

/-! ## The plans of accepted rules -/

theorem isApplicable_iff {d : RuleDeclaration} {machine : Machine} {number : Nat} {rule : IrRule}
    (accepted : d.Accepted machine number rule) :
    rule.isApplicable machine = true ↔
      ∀ c ∈ d.applyIf, machine.flag c.flag = some c.value := by
  simp [IrRule.isApplicable, accepted.applyIf]

/-- The plan of an accepted rule fits the phases that its clauses are meant for. -/
theorem PreparedRule.Follows.fits {machine : Machine} {catalog : Catalog} {number : Nat}
    {d : RuleDeclaration} {r : PreparedRule} (follows : r.Follows machine catalog number d)
    (applies : ∀ c ∈ d.applyIf, machine.flag c.flag = some c.value) :
    ∃ p, r.plan = some p ∧ Fits catalog (d.meant machine.defaultPhase) r.rule.clauses p := by
  obtain ⟨p, planned, made⟩ := follows.planned ((isApplicable_iff follows.accepted).2 applies)
  exact ⟨p, planned, fits_of_plan made fun c member targets tried =>
    follows.accepted.aimed member tried⟩

end DumpRules
