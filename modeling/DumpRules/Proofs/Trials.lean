import DumpRules.Proofs.Placement

/-!
# Why there is no plan

The clauses of a rule are tried in order, each at its targets in order, and a trial can fail in
one way only. `Trial` writes out what is tried. There is a plan iff no trial fails; otherwise all
reasons are reported, in the order in which they came up and each of them once.
-/

namespace DumpRules

set_option autoImplicit false

/-! ## First occurrences -/

section Occurrences

variable {α : Type} [DecidableEq α]

theorem idxOf_lt_of_filter {keep : α → Bool} {a b : α} (kept : keep a = true)
    (kept' : keep b = true) (l : List α)
    (first : (l.filter keep).idxOf a < (l.filter keep).idxOf b) : l.idxOf a < l.idxOf b := by
  induction l with
  | nil => exact first
  | cons x l ih =>
      by_cases here : keep x = true
      · rw [List.filter_cons_of_pos here] at first
        by_cases xb : x = b
        · subst xb
          simp at first
        by_cases xa : x = a
        · subst xa
          simp [List.idxOf_cons_ne _ xb]
        rw [List.idxOf_cons_ne _ xa, List.idxOf_cons_ne _ xb] at first ⊢
        exact Nat.succ_lt_succ (ih (Nat.lt_of_succ_lt_succ first))
      · rw [List.filter_cons_of_neg here] at first
        have xa : x ≠ a := fun same => here (same ▸ kept)
        have xb : x ≠ b := fun same => here (same ▸ kept')
        rw [List.idxOf_cons_ne _ xa, List.idxOf_cons_ne _ xb]
        exact Nat.succ_lt_succ (ih first)

/-- Without repetitions, a list keeps each of its members where it occurs first. -/
theorem pairwise_eraseDups (l : List α) :
    l.eraseDups.Pairwise fun a b => l.idxOf a < l.idxOf b := by
  match l with
  | [] => exact .nil
  | x :: l =>
      have others : ∀ a ∈ (l.filter fun a => !a == x).eraseDups, x ≠ a := fun a member => by
        have kept := (List.mem_filter.1 (List.mem_eraseDups.1 member)).2
        rintro rfl
        simp at kept
      rw [List.eraseDups_cons]
      refine List.pairwise_cons.2 ⟨fun a member => ?_, ?_⟩
      · rw [List.idxOf_cons_self, List.idxOf_cons_ne _ (others a member)]
        exact Nat.succ_pos _
      · refine (pairwise_eraseDups (l.filter fun a => !a == x)).imp_of_mem ?_
        intro a b member member' first
        have xa := others a member
        have xb := others b member'
        rw [List.idxOf_cons_ne _ xa, List.idxOf_cons_ne _ xb]
        exact Nat.succ_lt_succ (idxOf_lt_of_filter (by simp [xa.symm]) (by simp [xb.symm]) l first)
termination_by l.length
decreasing_by exact Nat.lt_succ_of_le (List.length_filter_le _ _)

end Occurrences

/-! ## Trials -/

/-- What is tried for a clause. -/
inductive Trial where
  /-- A node is looked for in a phase. -/
  | look (node : String) (phase : Phase)
  /-- A node that is not registered has no phase to be looked for in. -/
  | unregistered (node : String)
  /-- A node without a default phase has none either. -/
  | homeless (node : String)
deriving DecidableEq

/-- Why a trial fails, if it does. -/
def Trial.error? (catalog : Catalog) : Trial → Option ResolveError
  | look node phase =>
    match catalog.pattern node phase with
    | .ok _ => none
    | .error e => some e
  | unregistered node => some (.unknownNode node)
  | homeless node => some (.noDefaultPhase node)

/-- What is tried for a node by default. -/
def defaultTrial (machine : Machine) (catalog : Catalog) (node : String) : Trial :=
  if catalog.contains node then
    match machine.defaultPhase node with
    | some phase => .look node phase
    | none => .homeless node
  else .unregistered node

/-- What is tried for a clause, in order. -/
def Clause.trials (t : Target) (machine : Machine) (catalog : Catalog) (c : Clause) : List Trial :=
  match t, c.phases with
  | .default, some own => own.map (.look c.node)
  | .default, none => [defaultTrial machine catalog c.node]
  | .explicit phases, some own => (own.filter phases.contains).map (.look c.node)
  | .explicit phases, none => phases.map (.look c.node)

/-- What is tried for all clauses: those that forbid their node come first. -/
def trials (t : Target) (machine : Machine) (catalog : Catalog) (cs : Clauses) : List Trial :=
  (cs.failOn ++ cs.counts).flatMap (Clause.trials t machine catalog)

/-- Why trials fail, in order. -/
def reasons (catalog : Catalog) (ts : List Trial) : List ResolveError :=
  ts.filterMap (Trial.error? catalog)

/-- Some reasons without repetitions, each where it came up first. -/
structure Distinct (reasons es : List ResolveError) : Prop where
  once : es.Nodup
  complete : ∀ e, e ∈ es ↔ e ∈ reasons
  first : es.Pairwise fun e e' => reasons.idxOf e < reasons.idxOf e'

/-- Nothing stands in the way of a plan. -/
structure Feasible (t : Target) (machine : Machine) (catalog : Catalog) (cs : Clauses) : Prop where
  found : ∀ node phase, .look node phase ∈ trials t machine catalog cs →
    ∃ pattern, catalog.pattern node phase = .ok pattern
  placed : t = .default → ∀ c ∈ cs.failOn ++ cs.counts, c.phases = none →
    catalog.contains c.node = true ∧ ∃ phase, machine.defaultPhase c.node = some phase

/-- What a rule with some clauses comes to. -/
structure Resolution (t : Target) (machine : Machine) (catalog : Catalog) (cs : Clauses) :
    Prop where
  planned : (∃ made, plan t machine catalog cs = .ok made) ↔ Feasible t machine catalog cs
  refused : ¬Feasible t machine catalog cs → ∃ es, plan t machine catalog cs = .error ⟨es⟩ ∧
    es ≠ [] ∧ Distinct (reasons catalog (trials t machine catalog cs)) es

section

variable {t : Target} {machine : Machine} {catalog : Catalog}

theorem failed_look (kind : ListKind) (index : Nat) (c : Clause) (phases : List Phase) :
    failed (phases.map fun p =>
      (Constraint.resolve catalog index c p).map fun constraint => Placement.mk kind constraint) =
      reasons catalog (phases.map (.look c.node)) := by
  simp only [failed, reasons, List.filterMap_map]
  congr 1
  funext p
  simp only [Function.comp_apply, Constraint.resolve, Trial.error?]
  cases catalog.pattern c.node p <;> rfl

/-- The tries of a clause fail for the reasons for which its trials fail. -/
theorem failed_tries (kind : ListKind) (index : Nat) (c : Clause) :
    failed (tries t machine catalog (kind, index, c)) =
      reasons catalog (c.trials t machine catalog) := by
  unfold tries Clause.trials
  cases t with
  | explicit phases =>
      simp only [Target.of, Clause.explicitTargets]
      cases c.phases with
      | some own => exact failed_look kind index c (own.filter phases.contains)
      | none => exact failed_look kind index c phases
  | default =>
      simp only [Target.of, Clause.defaultTargets]
      cases c.phases with
      | some own => exact failed_look kind index c own
      | none =>
          simp only [defaultTrial]
          by_cases registered : catalog.contains c.node = true
          · rw [if_pos registered, if_pos registered]
            cases machine.defaultPhase c.node with
            | some phase => exact failed_look kind index c [phase]
            | none => rfl
          · rw [if_neg registered, if_neg registered]
            rfl

theorem failed_numbered (cs : Clauses) :
    failed (cs.numbered.flatMap (tries t machine catalog)) =
      reasons catalog (trials t machine catalog cs) := by
  have clauses : cs.numbered.map (·.2.2) = cs.failOn ++ cs.counts := by
    simp [Clauses.numbered, List.mapIdx_eq_zipIdx_map, Function.comp_def]
  rw [failed, List.filterMap_flatMap, reasons, trials, List.filterMap_flatMap, ← clauses,
    List.flatMap_map]
  exact List.flatMap_congr fun e _ => failed_tries e.1 e.2.1 e.2.2

theorem Trial.error?_eq_none_iff {trial : Trial} :
    trial.error? catalog = none ↔ ∃ node phase, trial = .look node phase ∧
      ∃ pattern, catalog.pattern node phase = .ok pattern := by
  cases trial with
  | look node phase => cases found : catalog.pattern node phase <;> simp [Trial.error?, found]
  | unregistered node => simp [Trial.error?]
  | homeless node => simp [Trial.error?]

theorem defaultTrial_eq_look_iff {node other : String} {phase : Phase} :
    defaultTrial machine catalog node = .look other phase ↔
      catalog.contains node = true ∧ machine.defaultPhase node = some phase ∧ node = other := by
  unfold defaultTrial
  by_cases registered : catalog.contains node = true
  · cases machine.defaultPhase node <;> simp [registered, and_comm]
  · simp [registered]

/-- Only by default can a clause have nowhere to be looked for. -/
theorem Clause.mem_trials {c : Clause} {trial : Trial}
    (member : trial ∈ c.trials t machine catalog) :
    (∃ phase, trial = .look c.node phase) ∨
      t = .default ∧ c.phases = none ∧ trial = defaultTrial machine catalog c.node := by
  unfold Clause.trials at member
  split at member
  case h_2 plain => exact .inr ⟨rfl, plain, List.mem_singleton.1 member⟩
  all_goals
    obtain ⟨phase, -, rfl⟩ := List.mem_map.1 member
    exact .inl ⟨phase, rfl⟩

/-- No trial fails iff nothing stands in the way of a plan. -/
theorem reasons_eq_nil_iff (cs : Clauses) :
    reasons catalog (trials t machine catalog cs) = [] ↔ Feasible t machine catalog cs := by
  rw [reasons, List.filterMap_eq_nil_iff]
  constructor
  · intro clean
    constructor
    case found =>
      intro node phase member
      obtain ⟨_, _, same, found⟩ := Trial.error?_eq_none_iff.1 (clean _ member)
      cases same
      exact found
    case placed =>
      rintro rfl c member plain
      have tried : defaultTrial machine catalog c.node ∈ trials .default machine catalog cs :=
        List.mem_flatMap.2 ⟨c, member, by simp [Clause.trials, plain]⟩
      obtain ⟨_, phase, same, -⟩ := Trial.error?_eq_none_iff.1 (clean _ tried)
      obtain ⟨registered, chosen, -⟩ := defaultTrial_eq_look_iff.1 same
      exact ⟨registered, phase, chosen⟩
  · intro feasible trial member
    obtain ⟨c, among, tried⟩ := List.mem_flatMap.1 member
    obtain ⟨phase, rfl⟩ : ∃ phase, trial = .look c.node phase := by
      rcases Clause.mem_trials tried with look | ⟨default, plain, rfl⟩
      · exact look
      · obtain ⟨registered, phase, chosen⟩ := feasible.placed default c among plain
        exact ⟨phase, defaultTrial_eq_look_iff.2 ⟨registered, chosen, rfl⟩⟩
    exact Trial.error?_eq_none_iff.2 ⟨_, phase, rfl, feasible.found _ _ member⟩

theorem distinct_eraseDups (es : List ResolveError) : Distinct es es.eraseDups := by
  have first := pairwise_eraseDups es
  refine ⟨List.nodup_iff_pairwise_ne.2 (first.imp ?_), fun e => List.mem_eraseDups, first⟩
  rintro e _ less rfl
  exact Nat.lt_irrefl _ less

theorem plan_eq (cs : Clauses) :
    plan t machine catalog cs =
      if reasons catalog (trials t machine catalog cs) = [] then
        .ok (gather (placed (cs.numbered.flatMap (tries t machine catalog))))
      else .error ⟨(reasons catalog (trials t machine catalog cs)).eraseDups⟩ := by
  simp only [plan, failed_numbered]
  cases reasons catalog (trials t machine catalog cs) <;> rfl

/-- What is planned, and what is reported otherwise. -/
theorem resolution_of_plan (t : Target) (machine : Machine) (catalog : Catalog) (cs : Clauses) :
    Resolution t machine catalog cs := by
  constructor
  case planned =>
    rw [plan_eq, ← reasons_eq_nil_iff]
    by_cases clean : reasons catalog (trials t machine catalog cs) = [] <;> simp [clean]
  case refused =>
    rw [plan_eq, ← reasons_eq_nil_iff]
    intro reported
    obtain ⟨e, member⟩ := List.exists_mem_of_ne_nil _ reported
    exact ⟨_, if_neg reported, List.ne_nil_of_mem (List.mem_eraseDups.2 member),
      distinct_eraseDups _⟩

end

/-- **Clauses that cannot be placed are all reported, in order and once.** A rule has a plan iff
every node is found where it is looked for and, by default, each clause without phases is about a
registered node with a default phase. Otherwise there is no plan, and the reasons of all trials
that fail are reported where they came up first. Named phases are tried in ascending order. -/
theorem plan_reports_failures (machine : Machine) (catalog : Catalog) (cs : Clauses)
    (named : List Phase) :
    Resolution .default machine catalog cs ∧
    Resolution (.explicit (ascending named)) machine catalog cs ∧
    (ascending named).Pairwise (· < ·) ∧ ∀ p, p ∈ ascending named ↔ p ∈ named :=
  ⟨resolution_of_plan _ _ _ _, resolution_of_plan _ _ _ _, pairwise_ascending named,
    fun _ => mem_ascending⟩

def noFlags : Machine :=
  ⟨fun _ => none, fun _ => none⟩

def noNodes : Catalog :=
  ⟨fun _ => false, fun node _ => .error (.unknownNode node)⟩

/-- Three clauses on two nodes. -/
def strangers : Clauses :=
  ⟨[⟨"STORE", .failOn, none, ⟨0, 5⟩⟩],
    [⟨"LOAD", .counts [⟨.gt, 0⟩], none, ⟨0, 7⟩⟩, ⟨"STORE", .counts [⟨.eq, 0⟩], none, ⟨9, 17⟩⟩]⟩

/-- Three trials fail for two reasons. -/
theorem plan_reports_failures_strangers :
    plan (.explicit (ascending [.iterGvn1])) noFlags noNodes strangers =
      .error ⟨[.unknownNode "STORE", .unknownNode "LOAD"]⟩ ∧
    ¬Feasible (.explicit (ascending [.iterGvn1])) noFlags noNodes strangers := by
  have refused : plan (.explicit (ascending [.iterGvn1])) noFlags noNodes strangers =
      .error ⟨[.unknownNode "STORE", .unknownNode "LOAD"]⟩ := by
    decide
  refine ⟨refused, fun feasible => ?_⟩
  obtain ⟨made, planned⟩ :=
    (plan_reports_failures noFlags noNodes strangers [.iterGvn1]).2.1.planned.2 feasible
  rw [refused] at planned
  cases planned

end DumpRules
