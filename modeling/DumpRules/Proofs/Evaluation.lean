import DumpRules.Catalog.Registry
import DumpRules.Proofs.Placement

/-!
# What a phase shows of the clauses meant for it

A clause makes its demand on a text through the pattern of its node. `unmet` lists the clauses of a
list whose demand is not met in a phase, as they are to be reported, straight from the clauses. If a
plan fits, checking a bucket of it reports just these, and checking the whole plan gives one result
for each phase that some clause is meant for.
-/

namespace DumpRules

set_option autoImplicit false

/-! ## Demands -/

/-- A number of occurrences is as demanded. -/
def Demand.Holds : Demand → Nat → Prop
  | .failOn, count => count = 0
  | .counts relations, count => ∀ r ∈ relations, r.holds count = true

instance (d : Demand) (count : Nat) : Decidable (d.Holds count) :=
  match d with
  | .failOn => inferInstanceAs (Decidable (count = 0))
  | .counts relations => inferInstanceAs (Decidable (∀ r ∈ relations, r.holds count = true))

/-- A text meets the demand of a clause. -/
def Clause.MetBy (patterns : String → Option Pattern) (text : String) (c : Clause) : Prop :=
  ∃ pattern, patterns c.node = some pattern ∧ c.demand.Holds (pattern.count text)

/-- The report of a numbered clause whose demand a text does not meet. -/
def Clause.failure? (patterns : String → Option Pattern) (text : String) (index : Nat)
    (c : Clause) : Option Failure :=
  (patterns c.node).bind fun pattern =>
    let observed := pattern.count text
    if c.demand.Holds observed then none
    else some
      { kind := c.kind, index, node := c.node, pattern := pattern.source, observed,
        expected := c.expected }

/-- The reports of the clauses of a list that are meant for a phase and not met in its text. -/
def unmet (patterns : String → Option Pattern) (meant : Clause → List Phase) (phase : Phase)
    (text : String) (list : List Clause) : List Failure :=
  list.zipIdx.filterMap fun e =>
    if phase ∈ meant e.1 then e.1.failure? patterns text (e.2 + 1) else none

theorem failure?_eq_none_iff {patterns : String → Option Pattern} {text : String} {index : Nat}
    {c : Clause} {pattern : Pattern} (known : patterns c.node = some pattern) :
    c.failure? patterns text index = none ↔ c.MetBy patterns text := by
  simp [Clause.failure?, Clause.MetBy, known]

/-- Nothing is reported iff every clause that is meant for the phase is met. -/
theorem unmet_eq_nil_iff {patterns : String → Option Pattern} {meant : Clause → List Phase}
    {phase : Phase} {text : String} {list : List Clause}
    (known : ∀ c ∈ list, phase ∈ meant c → ∃ pattern, patterns c.node = some pattern) :
    unmet patterns meant phase text list = [] ↔
      ∀ c ∈ list, phase ∈ meant c → c.MetBy patterns text := by
  rw [unmet, List.filterMap_eq_nil_iff]
  constructor
  · intro none c member aimed
    obtain ⟨i, at_i⟩ := List.mem_iff_getElem?.1 member
    obtain ⟨pattern, found⟩ := known c member aimed
    have nothing := none (c, i) (List.mem_zipIdx_iff_getElem?.2 at_i)
    rw [if_pos aimed] at nothing
    exact (failure?_eq_none_iff found).1 nothing
  · rintro met ⟨c, i⟩ among
    have member := List.mem_of_getElem? (List.mem_zipIdx_iff_getElem?.1 among)
    by_cases aimed : phase ∈ meant c
    · obtain ⟨pattern, found⟩ := known c member aimed
      rw [if_pos aimed]
      exact (failure?_eq_none_iff found).2 (met c member aimed)
    · exact if_neg aimed

/-! ## Buckets -/

/-- The check that the constraints of a list undergo. -/
def Constraint.check : ListKind → String → Constraint → Option Failure
  | .failOn => Constraint.checkFailOn
  | .counts => Constraint.checkCounts

/-- Checking the constraint of a clause is looking whether the demand of the clause is met. -/
theorem check_constraint {kind : ListKind} {c : Clause} (well : c.WellRead kind) (index : Nat)
    (p : Phase) (pattern : Pattern) (text : String) :
    Constraint.check kind text ⟨index, c.node, p, pattern, c.relations⟩ =
      if c.demand.Holds (pattern.count text) then none
      else some
        { kind := c.kind, index, node := c.node, pattern := pattern.source,
          observed := pattern.count text, expected := c.expected } := by
  have kinds := well.kind
  have related := well.related
  unfold Clause.kind at kinds
  unfold Clause.relations at related ⊢
  cases demanded : c.demand with
  | failOn =>
      rw [demanded] at kinds
      subst kinds
      by_cases unmatched : pattern.count text = 0
      · simp [Constraint.check, Constraint.checkFailOn, Demand.Holds, unmatched]
      · simp [Constraint.check, Constraint.checkFailOn, Demand.Holds, unmatched, Nat.pos_of_ne_zero,
          Constraint.failure, Constraint.expected, Clause.kind, Clause.expected, demanded]
  | counts relations =>
      rw [demanded] at kinds
      subst kinds
      have related : relations ≠ [] := by simpa [demanded] using related
      simp [Constraint.check, Constraint.checkCounts, Constraint.accepts, Demand.Holds,
        Constraint.failure, Constraint.expected, Clause.kind, Clause.expected, demanded, related]

/-- Patterns that do not depend on the phase. -/
def Catalog.Agrees (catalog : Catalog) (patterns : String → Option Pattern) : Prop :=
  ∀ node p pattern, catalog.pattern node p = .ok pattern → patterns node = some pattern

/-- The pattern that a registry has for a node, in whatever phase. -/
def Registry.pattern? (r : Registry) (node : String) : Option Pattern :=
  (r.find? node).map (·.pattern)

theorem Registry.agrees_pattern? (r : Registry) : r.catalog.Agrees r.pattern? := by
  intro node p pattern found
  simp only [Registry.catalog, Registry.pattern] at found
  split at found
  case h_1 => cases found
  rename_i n known
  split at found
  case isFalse => cases found
  cases found
  rw [Registry.pattern?, known]
  rfl

variable {catalog : Catalog} {patterns : String → Option Pattern} {meant : Clause → List Phase}
  {cs : Clauses} {plan : Plan}

theorem filterMap_check_slots (agrees : catalog.Agrees patterns) {kind : ListKind} {phase : Phase}
    {list : List Clause} (well : ∀ c ∈ list, c.WellRead kind)
    (known : ∀ c ∈ list, phase ∈ meant c → ∃ pattern, catalog.pattern c.node phase = .ok pattern)
    (text : String) :
    (slots catalog meant phase list).filterMap (Constraint.check kind text) =
      unmet patterns meant phase text list := by
  rw [slots, unmet, List.filterMap_filterMap]
  refine List.filterMap_congr ?_
  rintro ⟨c, i⟩ among
  have member := List.mem_of_getElem? (List.mem_zipIdx_iff_getElem?.1 among)
  by_cases aimed : phase ∈ meant c
  · obtain ⟨pattern, found⟩ := known c member aimed
    have resolved : Constraint.resolve catalog (i + 1) c phase =
        .ok ⟨i + 1, c.node, phase, pattern, c.relations⟩ :=
      resolve_eq_ok_iff.2 ⟨pattern, found, rfl⟩
    simp only [slot?, if_pos aimed, resolved, Except.toOption, Option.bind_some,
      check_constraint (well c member), Clause.failure?, agrees _ _ _ found]
  · simp [slot?, aimed]

theorem isEmpty_eq_false_iff {b : Bucket} : b.isEmpty = false ↔ ∃ kind, b.of kind ≠ [] := by
  obtain ⟨failOn, counts⟩ := b
  constructor
  · intro filled
    by_cases empty : failOn = []
    · exact ⟨.counts, by simpa [Bucket.isEmpty, Bucket.of, empty] using filled⟩
    · exact ⟨.failOn, empty⟩
  · rintro ⟨kind, filled⟩
    cases kind <;> simp_all [Bucket.isEmpty, Bucket.of]

/-- The list of a bucket that fits, clause by clause, is checked clause by clause. -/
theorem Fits.failures (fits : Fits catalog meant cs plan) (agrees : catalog.Agrees patterns)
    (well : ∀ kind, ∀ c ∈ cs.of kind, c.WellRead kind) {p : Phase} {b : Bucket}
    (member : (p, b) ∈ plan) (text : String) :
    b.failures text = unmet patterns meant p text cs.failOn ++
      unmet patterns meant p text cs.counts := by
  have part : ∀ kind, (b.of kind).filterMap (Constraint.check kind text) =
      unmet patterns meant p text (cs.of kind) := by
    intro kind
    rw [fits.buckets p b member kind]
    exact filterMap_check_slots agrees (well kind)
      (fun c among aimed => fits.known c (Clauses.mem_all.2 ⟨kind, among⟩) p aimed) text
  exact congrArg₂ _ (part .failOn) (part .counts)

/-- No bucket of a plan that fits is empty. -/
theorem Fits.filled (fits : Fits catalog meant cs plan) {p : Phase} {b : Bucket}
    (member : (p, b) ∈ plan) : b.isEmpty = false := by
  obtain ⟨c, among, aimed⟩ := (fits.phases p).1 (List.mem_map_of_mem member)
  obtain ⟨kind, among⟩ := Clauses.mem_all.1 among
  refine isEmpty_eq_false_iff.2 ⟨kind, ?_⟩
  rw [fits.buckets p b member kind]
  exact (slots_ne_nil_iff fun c among aimed =>
    fits.known c (Clauses.mem_all.2 ⟨kind, among⟩) p aimed).2 ⟨c, among, aimed⟩

/-! ## Results -/

/-- What the result of a phase says. -/
structure Judged (patterns : String → Option Pattern) (meant : Clause → List Phase) (cs : Clauses)
    (dumps : Dumps) (r : PhaseResult) : Prop where
  absent : r.outcome = .absent ↔ dumps.text? r.phase = none
  pass : ∀ text, dumps.text? r.phase = some text →
    (r.outcome = .pass ↔ ∀ c ∈ cs.all, r.phase ∈ meant c → c.MetBy patterns text)
  fail : ∀ text, dumps.text? r.phase = some text →
    (∃ c ∈ cs.all, r.phase ∈ meant c ∧ ¬c.MetBy patterns text) →
    ∃ fs, r.outcome = .fail fs ∧ fs ≠ [] ∧
      fs = unmet patterns meant r.phase text cs.failOn ++
        unmet patterns meant r.phase text cs.counts

/-- What the results of a rule say: one for each phase that some clause is meant for, in order. -/
structure Results (patterns : String → Option Pattern) (meant : Clause → List Phase)
    (cs : Clauses) (dumps : Dumps) (results : List PhaseResult) : Prop where
  ordered : (results.map (·.phase)).Pairwise (· < ·)
  phases : ∀ p, p ∈ results.map (·.phase) ↔ ∃ c ∈ cs.all, p ∈ meant c
  each : ∀ r ∈ results, Judged patterns meant cs dumps r

section Bucket

variable {p : Phase} {b : Bucket} {dumps : Dumps} {text : String}

theorem evaluate_of_absent (dumped : dumps.text? p = none) :
    (PhaseCheck.setUp dumps (p, b)).value.evaluate = ⟨p, .absent⟩ := by
  simp only [PhaseCheck.setUp, dumped, PhaseCheck.evaluate]

theorem evaluate_of_clean (dumped : dumps.text? p = some text) (clean : b.failures text = []) :
    (PhaseCheck.setUp dumps (p, b)).value.evaluate = ⟨p, .pass⟩ := by
  simp only [PhaseCheck.setUp, dumped, PhaseCheck.evaluate, clean]

theorem evaluate_of_failures (dumped : dumps.text? p = some text) (fails : b.failures text ≠ []) :
    (PhaseCheck.setUp dumps (p, b)).value.evaluate = ⟨p, .fail (b.failures text)⟩ := by
  obtain ⟨f, others, failures⟩ := List.exists_cons_of_ne_nil fails
  simp only [PhaseCheck.setUp, dumped, PhaseCheck.evaluate, failures]

theorem phase_evaluate_setUp (dumps : Dumps) (p : Phase) (b : Bucket) :
    (PhaseCheck.setUp dumps (p, b)).value.evaluate.phase = p := by
  cases dumped : dumps.text? p with
  | none => rw [evaluate_of_absent dumped]
  | some text =>
      by_cases clean : b.failures text = []
      · rw [evaluate_of_clean dumped clean]
      · rw [evaluate_of_failures dumped clean]

theorem judged_of_failures
    (reported : ∀ text, b.failures text = unmet patterns meant p text cs.failOn ++
      unmet patterns meant p text cs.counts)
    (known : ∀ c ∈ cs.all, p ∈ meant c → ∃ pattern, patterns c.node = some pattern) :
    Judged patterns meant cs dumps (PhaseCheck.setUp dumps (p, b)).value.evaluate := by
  have clean : ∀ text, b.failures text = [] ↔
      ∀ c ∈ cs.all, p ∈ meant c → c.MetBy patterns text := by
    intro text
    rw [reported, List.append_eq_nil_iff, Clauses.all, List.forall_mem_append,
      unmet_eq_nil_iff fun c member => known c (List.mem_append_left _ member),
      unmet_eq_nil_iff fun c member => known c (List.mem_append_right _ member)]
  cases dumped : dumps.text? p with
  | none =>
      rw [evaluate_of_absent dumped]
      exact ⟨by simp [dumped], by simp [dumped], by simp [dumped]⟩
  | some text =>
      by_cases passes : b.failures text = []
      · have met := (clean text).1 passes
        rw [evaluate_of_clean dumped passes]
        refine ⟨by simp [dumped], ?_, ?_⟩
        · rintro _ same
          cases dumped.symm.trans same
          exact ⟨fun _ => met, fun _ => rfl⟩
        · rintro _ same ⟨c, member, aimed, broken⟩
          cases dumped.symm.trans same
          exact absurd (met c member aimed) broken
      · rw [evaluate_of_failures dumped passes]
        refine ⟨by simp [dumped], ?_, ?_⟩
        · rintro _ same
          cases dumped.symm.trans same
          exact ⟨fun pass => (by cases pass), fun met => absurd ((clean text).2 met) passes⟩
        · rintro _ same -
          cases dumped.symm.trans same
          exact ⟨_, rfl, passes, reported text⟩

end Bucket

theorem Fits.filled_eq (fits : Fits catalog meant cs plan) : plan.filled = plan :=
  List.filter_eq_self.2 fun e member => by simp [fits.filled member]

theorem Plan.results_eq (plan : Plan) (dumps : Dumps) :
    plan.results dumps = plan.filled.map fun e => (PhaseCheck.setUp dumps e).value.evaluate := by
  rw [Plan.results, Plan.checks, Plan.setUp, Traced.value_each, List.map_map]
  rfl

/-- Every phase of a plan has its result, whether the phase was dumped or not. -/
theorem Plan.phases_results (plan : Plan) (dumps : Dumps) :
    (plan.results dumps).map (·.phase) = plan.phases := by
  rw [Plan.results_eq, Plan.phases, List.map_map]
  exact List.map_congr_left fun e _ => phase_evaluate_setUp dumps e.1 e.2

theorem Fits.phases_results (fits : Fits catalog meant cs plan) (dumps : Dumps) :
    (plan.results dumps).map (·.phase) = plan.map Prod.fst := by
  rw [plan.phases_results, Plan.phases, fits.filled_eq]

/-- What comes of checking a plan that fits. -/
theorem Fits.results (fits : Fits catalog meant cs plan) (agrees : catalog.Agrees patterns)
    (well : ∀ kind, ∀ c ∈ cs.of kind, c.WellRead kind) (dumps : Dumps) :
    Results patterns meant cs dumps (plan.results dumps) := by
  have keys := fits.phases_results dumps
  refine ⟨keys ▸ fits.ordered, fun p => keys ▸ fits.phases p, fun r member => ?_⟩
  rw [Plan.results_eq, fits.filled_eq] at member
  obtain ⟨⟨p, b⟩, among, rfl⟩ := List.mem_map.1 member
  refine judged_of_failures (fun text => fits.failures agrees well among text) ?_
  intro c member aimed
  obtain ⟨pattern, found⟩ := fits.known c member p aimed
  exact ⟨pattern, agrees _ _ _ found⟩

end DumpRules
