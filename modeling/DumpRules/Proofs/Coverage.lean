import DumpRules.Proofs.Evaluation
import Mathlib.Data.List.Nodup

/-!
# No rule passes without being looked at

A rule that applies and was prepared has each of its clauses in one slot of each phase that the
clause is meant for, in no other bucket, and there is at least one such phase (`Covers`). So its
report has a result, and if it passes then every clause was looked for in a captured text. The
machine may be any: it is the registry that keeps nodes out of the placeholder.
-/

namespace DumpRules

set_option autoImplicit false

variable {registry : Registry} {catalog : Catalog} {meant : Clause → List Phase}

/-! ## Slots by number -/

theorem index_of_slot? {p : Phase} {index : Nat} {c : Clause} {x : Constraint}
    (slot : slot? catalog meant p index c = some x) : x.index = index := by
  unfold slot? at slot
  split at slot
  case isFalse => cases slot
  cases resolved : Constraint.resolve catalog index c p with
  | error e =>
      rw [resolved] at slot
      cases slot
  | ok y =>
      rw [resolved] at slot
      cases slot
      obtain ⟨pattern, -, rfl⟩ := resolve_eq_ok_iff.1 resolved
      rfl

/-- The constraints with the number of a clause are the slot of that clause. -/
theorem filter_slots {p : Phase} {list : List Clause} {i : Nat} {c : Clause}
    (at_i : list[i]? = some c) :
    (slots catalog meant p list).filter (·.index = i + 1) =
      (slot? catalog meant p (i + 1) c).toList := by
  have member : (c, i) ∈ list.zipIdx := List.mem_zipIdx_iff_getElem?.2 at_i
  have once : list.zipIdx.Nodup :=
    List.Nodup.of_map Prod.snd (by rw [List.zipIdx_map_snd]; exact List.nodup_range')
  -- Only the entry at `i` has a slot with the number `i + 1`.
  have picked : ∀ e ∈ list.zipIdx,
      (slot? catalog meant p (e.2 + 1) e.1).filter (·.index = i + 1) =
        if e = (c, i) then slot? catalog meant p (e.2 + 1) e.1 else none := by
    rintro ⟨c', j⟩ among
    by_cases same : j = i
    · subst same
      obtain rfl : c' = c :=
        Option.some.inj ((List.mem_zipIdx_iff_getElem?.1 among).symm.trans at_i)
      cases slot : slot? catalog meant p (j + 1) c' with
      | none => simp
      | some x => simp [index_of_slot? slot]
    · cases slot : slot? catalog meant p (j + 1) c' with
      | none => simp
      | some x => simp [index_of_slot? slot, same]
  rw [slots, List.filter_filterMap, List.filterMap_congr picked, filterMap_once once, if_pos member]

/-! ## Coverage -/

/-- A plan checks every clause, where it is meant to be checked and nowhere else. -/
structure Covers (registry : Registry) (meant : Clause → List Phase) (cs : Clauses)
    (plan : Plan) : Prop where
  ordered : (plan.map Prod.fst).Pairwise (· < ·)
  concrete : .placeholder ∉ plan.map Prod.fst
  filled : ∀ p b, (p, b) ∈ plan → b.isEmpty = false
  aimed : ∀ c ∈ cs.all, meant c ≠ []
  /-- A clause has one slot in each phase that it is meant for. -/
  placed : ∀ (kind : ListKind) (i : Nat) (c : Clause), (cs.of kind)[i]? = some c → ∀ p ∈ meant c,
    ∃ b pattern, (p, b) ∈ plan ∧ registry.pattern c.node p = .ok pattern ∧
      (b.of kind).filter (·.index = i + 1) = [⟨i + 1, c.node, p, pattern, c.relations⟩]
  /-- It has none elsewhere. -/
  absent : ∀ (kind : ListKind) (i : Nat) (c : Clause), (cs.of kind)[i]? = some c →
    ∀ p b, (p, b) ∈ plan → p ∉ meant c → (b.of kind).filter (·.index = i + 1) = []
  /-- Nothing is checked that is not a clause. -/
  sourced : ∀ p b, (p, b) ∈ plan → ∀ kind, ∀ x ∈ b.of kind,
    ∃ (i : Nat) (c : Clause), (cs.of kind)[i]? = some c ∧ p ∈ meant c ∧ x.index = i + 1

theorem pattern_placeholder_ne_ok (registry : Registry) (node : String) (pattern : Pattern) :
    registry.pattern node .placeholder ≠ .ok pattern := by
  unfold Registry.pattern
  cases registry.find? node with
  | none => nofun
  | some n => simp [NodeEntry.isDefinedIn, Phase.outputClass?]

theorem Fits.covers {cs : Clauses} {plan : Plan} (fits : Fits registry.catalog meant cs plan) :
    Covers registry meant cs plan where
  ordered := fits.ordered
  concrete member := by
    obtain ⟨c, among, aimed⟩ := (fits.phases _).1 member
    obtain ⟨pattern, found⟩ := fits.known c among _ aimed
    exact pattern_placeholder_ne_ok registry c.node pattern found
  filled p b member := fits.filled member
  aimed := fits.aimed
  placed kind i c at_i p aimed := by
    have among : c ∈ cs.all := Clauses.mem_all.2 ⟨kind, List.mem_of_getElem? at_i⟩
    obtain ⟨pattern, found⟩ := fits.known c among p aimed
    obtain ⟨⟨_, b⟩, member, rfl⟩ := List.mem_map.1 ((fits.phases p).2 ⟨c, among, aimed⟩)
    refine ⟨b, pattern, member, found, ?_⟩
    rw [fits.buckets _ b member kind, filter_slots at_i, slot?, if_pos aimed,
      resolve_eq_ok_iff.2 ⟨pattern, found, rfl⟩]
    rfl
  absent kind i c at_i p b member elsewhere := by
    rw [fits.buckets p b member kind, filter_slots at_i, slot?, if_neg elsewhere]
    rfl
  sourced p b member kind x among := by
    rw [fits.buckets p b member kind] at among
    obtain ⟨i, c, at_i, aimed, resolved⟩ := mem_slots.1 among
    obtain ⟨pattern, -, rfl⟩ := resolve_eq_ok_iff.1 resolved
    exact ⟨i, c, at_i, aimed, rfl⟩

/-! ## Passing -/

/-- If all results pass, every clause was met in a captured text, wherever it is meant for. -/
theorem Results.met {patterns : String → Option Pattern} {cs : Clauses} {dumps : Dumps}
    {results : List PhaseResult} (judged : Results patterns meant cs dumps results)
    (passes : ∀ r ∈ results, r.isPass = true) {c : Clause} (member : c ∈ cs.all) {p : Phase}
    (aimed : p ∈ meant c) : ∃ text, dumps.text? p = some text ∧ c.MetBy patterns text := by
  obtain ⟨r, among, rfl⟩ := List.mem_map.1 ((judged.phases p).2 ⟨c, member, aimed⟩)
  have result := judged.each r among
  have pass : r.outcome = .pass := by
    have passed := passes r among
    unfold PhaseResult.isPass at passed
    split at passed
    · assumption
    · cases passed
  cases dumped : dumps.text? r.phase with
  | none =>
      have absent := result.absent.2 dumped
      rw [pass] at absent
      cases absent
  | some text => exact ⟨text, rfl, (result.pass text dumped).1 pass c member aimed⟩

/-- **No vacuous pass.** A prepared rule that applies has every clause in its plan, where it is
meant to be, so that its report has results; and the rule passes only if every clause was looked
for in a captured text, in all its phases, and found as demanded. -/
theorem prepared_covers {machine : Machine} {registry : Registry} {ds : List RuleDeclaration}
    {prepared : List PreparedRule}
    (ready : (prepareRules machine registry.catalog ds).value = .ok prepared) {i : Nat}
    {d : RuleDeclaration} {r : PreparedRule} (declared : ds[i]? = some d)
    (found : prepared[i]? = some r)
    (applies : ∀ c ∈ d.applyIf, machine.flag c.flag = some c.value) :
    ∃ cs plan, readClauses d.failOn d.counts = .ok cs ∧ r.plan = some plan ∧
      Covers registry (d.meant machine.defaultPhase) cs plan ∧
      ∀ dumps, ∃ results, (r.report dumps).outcome = .evaluated results ∧ results ≠ [] ∧
        ((r.report dumps).isFailure = false → ∀ c ∈ cs.all, ∀ p ∈ d.meant machine.defaultPhase c,
          ∃ text pattern, dumps.text? p = some text ∧ registry.pattern c.node p = .ok pattern ∧
            c.demand.Holds (pattern.count text)) := by
  obtain ⟨r', found', follows⟩ := (prepared_of_prepareRules ready).2 i d declared
  obtain rfl : r' = r := Option.some.inj (found'.symm.trans found)
  obtain ⟨plan, planned, fits⟩ := follows.fits applies
  have accepted := follows.accepted
  refine ⟨r'.rule.clauses, plan, accepted.read, planned, fits.covers, fun dumps => ?_⟩
  have judged := fits.results registry.agrees_pattern?
    (wellRead_of_readClauses accepted.read) dumps
  have outcome := PreparedRule.outcome_of_planned planned dumps
  refine ⟨plan.results dumps, outcome, ?_, fun passed c member p aimed => ?_⟩
  · -- The rule has a clause, the clause has a phase, and the phase has a result.
    obtain ⟨c, member⟩ := accepted.exists_clause
    obtain ⟨p, aimed⟩ := List.exists_mem_of_ne_nil _ (fits.aimed c member)
    intro empty
    have among := (judged.phases p).2 ⟨c, member, aimed⟩
    rw [empty] at among
    cases among
  · have passes : ∀ r ∈ plan.results dumps, r.isPass = true := by
      simpa [RuleReport.isFailure, RuleReport.phases, outcome] using passed
    obtain ⟨text, dumped, pattern, known, holds⟩ := judged.met passes member aimed
    obtain ⟨pattern', found⟩ := fits.known c member p aimed
    cases (registry.agrees_pattern? _ _ _ found).symm.trans known
    exact ⟨text, pattern, dumped, found, holds⟩

def twoNodes : Registry :=
  ⟨[⟨{ name := "LOAD" }, .word "LOAD"⟩, ⟨{ name := "STORE", classes := [.ideal] }, .word "STORE"⟩]⟩

/-- No flags, and one default phase for all nodes. -/
def finalMachine : Machine :=
  ⟨fun _ => none, fun _ => some .finalCode⟩

def twoPhases : RuleDeclaration :=
  { phases := [.matching, .ccp1], failOn := "LOAD", counts := "CCP1: STORE 1" }

theorem prepared_covers_twoPhases :
    ∃ prepared r, (prepareRules finalMachine twoNodes.catalog [twoPhases]).value = .ok prepared ∧
      prepared[0]? = some r ∧
      ∃ cs plan, readClauses twoPhases.failOn twoPhases.counts = .ok cs ∧ r.plan = some plan ∧
        Covers twoNodes (twoPhases.meant finalMachine.defaultPhase) cs plan ∧
        ∀ dumps, ∃ results, (r.report dumps).outcome = .evaluated results ∧ results ≠ [] ∧
          ((r.report dumps).isFailure = false →
            ∀ c ∈ cs.all, ∀ p ∈ twoPhases.meant finalMachine.defaultPhase c,
              ∃ text pattern, dumps.text? p = some text ∧ twoNodes.pattern c.node p = .ok pattern ∧
                c.demand.Holds (pattern.count text)) := by
  have run : ((prepareRules finalMachine twoNodes.catalog [twoPhases]).value.map fun prepared =>
      prepared[0]?.isSome) = .ok true := by
    decide +kernel
  obtain ⟨prepared, ready, one⟩ := map_eq_ok.1 run
  obtain ⟨r, found⟩ := Option.isSome_iff_exists.1 one
  exact ⟨prepared, r, ready, found, prepared_covers ready (i := 0) rfl found (by decide)⟩

end DumpRules
