import DumpRules.Proofs.Evaluation
import DumpRules.Proofs.Independence

/-!
# In which order things happen

What is seen of a check is said here from the declarations, the dumps and the reports alone. First
come the lines of the rules that do not apply (`skipLines`). If all declarations are accepted, each
rule follows with a part of its own: its phases in ascending order, each with a warning or else with
a line and a request for its text, and then its verdict (`RuleSeen`). The main theorem is
`checkRules_inOrder`, with what follows from it about requests: none comes before all declarations
are accepted and planned, none is for a phase without text, and no rule makes one twice.
-/

namespace DumpRules

set_option autoImplicit false

/-! ## What is seen -/

/-- The flags meet all conditions of a declaration. -/
def RuleDeclaration.Applies (d : RuleDeclaration) (machine : Machine) : Prop :=
  ∀ c ∈ d.applyIf, machine.flag c.flag = some c.value

/-- Whether a declaration is accepted and does not apply. -/
def RuleDeclaration.isSkipped (d : RuleDeclaration) (machine : Machine) : Bool :=
  match IrRule.ofDeclaration 1 d machine with
  | .ok rule => !rule.isApplicable machine
  | .error _ => false

def skipLine (number : Nat) : Event :=
  .line .debug s!"IR rule {number} does not apply under the current flags"

def absentLine (p : Phase) : Event :=
  .line .warn s!"No compilation output captured for phase {p.name}"

def builtLine (p : Phase) (failOn counts : Nat) : Event :=
  .line .debug
    s!"Built rule for phase {p.name}: {failOn} failOn, {counts} counts constraint(s)"

def verdictLine (number : Nat) (verdict : String) : Event :=
  .line .info s!"IR rule {number}: {verdict}"

/-- The lines of the declarations that are accepted and do not apply, in order. -/
def skipLines (machine : Machine) (ds : List RuleDeclaration) : List Event :=
  ds.zipIdx.flatMap fun e => if e.1.isSkipped machine then [skipLine (e.2 + 1)] else []

/-- What is seen of a phase with given numbers of constraints. -/
def phaseEvents (dumps : Dumps) (failOn counts : Nat) (p : Phase) : List Event :=
  match dumps.text? p with
  | none => [absentLine p]
  | some _ => [builtLine p failOn counts, .request p]

/-- How many clauses of a list are meant for a phase. -/
def meantFor (meant : Clause → List Phase) (list : List Clause) (p : Phase) : Nat :=
  list.countP fun c => p ∈ meant c

/-- What is seen of a rule being checked, by its declaration and its report. -/
inductive RuleSeen (machine : Machine) (dumps : Dumps) (number : Nat) (d : RuleDeclaration)
    (report : RuleReport) : List Event → Prop
  | skipped (skips : ¬d.Applies machine) (outcome : report.outcome = .notApplicable) :
      RuleSeen machine dumps number d report [verdictLine number "not applicable"]
  | checked {cs : Clauses} {results : List PhaseResult} {phases : List Phase}
      (applies : d.Applies machine) (read : readClauses d.failOn d.counts = .ok cs)
      (outcome : report.outcome = .evaluated results) (reported : results.map (·.phase) = phases)
      (ascending : phases.Pairwise (· < ·))
      (meant : ∀ p, p ∈ phases ↔ ∃ c ∈ cs.all, p ∈ d.meant machine.defaultPhase c) :
      RuleSeen machine dumps number d report
        ((phases.flatMap fun p => phaseEvents dumps
            (meantFor (d.meant machine.defaultPhase) cs.failOn p)
            (meantFor (d.meant machine.defaultPhase) cs.counts p) p) ++
          [verdictLine number (if report.isFailure then "failed" else "passed")])

/-! ## Preparing -/

/-- What is seen of a declaration being prepared; nothing, if it is rejected. -/
def resultEvents : Except RuleError PreparedRule → List Event
  | .ok r => r.events
  | .error _ => []

theorem flatMap_accepted (rs : List (Except RuleError PreparedRule)) :
    (accepted rs).flatMap PreparedRule.events = rs.flatMap resultEvents := by
  induction rs with
  | nil => rfl
  | cons x rs ih =>
      cases x with
      | error e => exact ih
      | ok r => exact congrArg (r.events ++ ·) ih

theorem events_prepareRule (machine : Machine) (catalog : Catalog) (i : Nat)
    (d : RuleDeclaration) :
    resultEvents (prepareRule machine catalog (i + 1) d) =
      if d.isSkipped machine then [skipLine (i + 1)] else [] := by
  rw [Nat.add_comm i 1, prepareRule_later]
  cases made : IrRule.ofDeclaration 1 d machine with
  | error e =>
      have skipped : d.isSkipped machine = false := by rw [RuleDeclaration.isSkipped, made]
      have prepared : prepareRule machine catalog 1 d = .error ⟨1, d.name, e⟩ := by
        rw [prepareRule, made]
        rfl
      rw [skipped, prepared]
      rfl
  | ok rule =>
      have skipped : d.isSkipped machine = !rule.isApplicable machine := by
        rw [RuleDeclaration.isSkipped, made]
      rw [skipped, prepareRule, made]
      cases applies : rule.isApplicable machine with
      | true =>
          simp only [bind, Except.bind, applies, if_true]
          cases rule.plan machine catalog <;> rfl
      | false =>
          have first : rule.index = 1 := (accepted_of_ofDeclaration made).index
          simp only [bind, Except.bind, applies, ← first]
          rfl

/-- Preparing shows the rules that do not apply, and nothing else. -/
theorem events_prepareRules (machine : Machine) (catalog : Catalog) (ds : List RuleDeclaration) :
    (prepareRules machine catalog ds).events = skipLines machine ds := by
  have all : (prepareRules machine catalog ds).events =
      (accepted (preparedEach machine catalog ds)).flatMap PreparedRule.events := rfl
  rw [all, flatMap_accepted, preparedEach, List.mapIdx_eq_zipIdx_map, List.flatMap_map]
  exact congrArg (List.flatMap · ds.zipIdx)
    (funext fun e => events_prepareRule machine catalog e.2 e.1)

/-! ## Checking one rule -/

theorem length_slots {catalog : Catalog} {meant : Clause → List Phase} {p : Phase}
    {list : List Clause}
    (known : ∀ c ∈ list, p ∈ meant c → ∃ pattern, catalog.pattern c.node p = .ok pattern) :
    (slots catalog meant p list).length = meantFor meant list p := by
  have each : ∀ e ∈ list.zipIdx, (slot? catalog meant p (e.2 + 1) e.1).isSome =
      decide (p ∈ meant e.1) := by
    rintro ⟨c, i⟩ among
    have member := List.mem_of_getElem? (List.mem_zipIdx_iff_getElem?.1 among)
    by_cases aimed : p ∈ meant c
    · obtain ⟨pattern, found⟩ := known c member aimed
      simp [slot?, aimed, resolve_eq_ok_iff.2 ⟨pattern, found, rfl⟩, Except.toOption]
    · simp [slot?, aimed]
  calc
    (slots catalog meant p list).length
      = list.zipIdx.countP fun e => (slot? catalog meant p (e.2 + 1) e.1).isSome :=
        List.length_filterMap_eq_countP
    _ = list.zipIdx.countP ((fun c => decide (p ∈ meant c)) ∘ Prod.fst) :=
        List.countP_congr fun e among => by rw [each e among, Function.comp]
    _ = meantFor meant list p := by rw [← List.countP_map, List.zipIdx_map_fst, meantFor]

/-- The parts of a plan that fits are set up as the clauses demand. -/
theorem Fits.events {catalog : Catalog} {meant : Clause → List Phase} {cs : Clauses} {plan : Plan}
    (fits : Fits catalog meant cs plan) (dumps : Dumps) :
    (plan.setUp dumps).events = (plan.map Prod.fst).flatMap fun p =>
      phaseEvents dumps (meantFor meant cs.failOn p) (meantFor meant cs.counts p) p := by
  have part : ∀ e ∈ plan, (PhaseCheck.setUp dumps e).events = phaseEvents dumps
      (meantFor meant cs.failOn e.1) (meantFor meant cs.counts e.1) e.1 := by
    rintro ⟨p, b⟩ member
    have number : ∀ kind, (b.of kind).length = meantFor meant (cs.of kind) p := by
      intro kind
      rw [fits.buckets p b member kind]
      exact length_slots fun c among aimed =>
        fits.known c (Clauses.mem_all.2 ⟨kind, among⟩) p aimed
    have failOn : b.failOn.length = meantFor meant cs.failOn p := number .failOn
    have counts : b.counts.length = meantFor meant cs.counts p := number .counts
    cases dumped : dumps.text? p with
    | none => simp only [PhaseCheck.setUp, phaseEvents, dumped, absentLine]
    | some text =>
        simp only [PhaseCheck.setUp, phaseEvents, dumped, builtLine, failOn, counts,
          String.append_assoc]
  rw [Plan.setUp, Traced.events_each, fits.filled_eq, List.flatMap_map]
  exact List.flatMap_congr part

theorem ruleSeen_of_follows {machine : Machine} {catalog : Catalog} {number : Nat}
    {d : RuleDeclaration} {r : PreparedRule} (follows : r.Follows machine catalog number d)
    (dumps : Dumps) :
    RuleSeen machine dumps number d (r.report dumps) (r.check dumps).events := by
  have accepted := follows.accepted
  have index : (r.report dumps).index = number := accepted.index
  by_cases applies : d.Applies machine
  · obtain ⟨plan, planned, fits⟩ := follows.fits applies
    have outcome := PreparedRule.outcome_of_planned planned dumps
    have verdict : (r.report dumps).event =
        verdictLine number (if (r.report dumps).isFailure then "failed" else "passed") := by
      simp only [RuleReport.event, outcome, index, verdictLine]
    rw [PreparedRule.events_of_planned planned, fits.events dumps, verdict]
    exact .checked applies accepted.read outcome (fits.phases_results dumps) fits.ordered
      fits.phases
  · have skips : r.rule.isApplicable machine = false := by
      rw [← Bool.not_eq_true, isApplicable_iff accepted]
      exact applies
    have unplanned := follows.skipped skips
    have outcome := PreparedRule.outcome_of_skipped unplanned dumps
    have verdict : (r.report dumps).event = verdictLine number "not applicable" := by
      simp only [RuleReport.event, outcome, index, verdictLine]
    rw [PreparedRule.events_of_skipped unplanned, verdict]
    exact .skipped applies outcome

/-! ## Requests -/

theorem mem_requests {p : Phase} {es : List Event} :
    p ∈ Event.requests es ↔ .request p ∈ es := by
  rw [Event.requests, List.mem_filterMap]
  constructor
  · rintro ⟨_ | q, member, ⟨⟩⟩
    exact member
  · exact fun member => ⟨_, member, rfl⟩

theorem request_notMem_skipLines (machine : Machine) (ds : List RuleDeclaration) (p : Phase) :
    .request p ∉ skipLines machine ds := by
  intro member
  obtain ⟨e, -, member⟩ := List.mem_flatMap.1 member
  split at member
  · cases List.mem_singleton.1 member
  · cases member

theorem requests_phaseEvents (dumps : Dumps) (failOn counts : Phase → Nat) (phases : List Phase) :
    Event.requests (phases.flatMap fun p => phaseEvents dumps (failOn p) (counts p) p) =
      phases.filter fun p => (dumps.text? p).isSome := by
  induction phases with
  | nil => rfl
  | cons p later ih =>
      rw [List.flatMap_cons, Event.requests, List.filterMap_append]
      unfold Event.requests at ih
      rw [ih]
      cases dumped : dumps.text? p with
      | none => simp [phaseEvents, dumped, absentLine, Event.line]
      | some text => simp [phaseEvents, dumped, builtLine, Event.line]

/-- A rule asks for texts that are there, and for none of them twice. -/
theorem RuleSeen.requests {machine : Machine} {dumps : Dumps} {number : Nat} {d : RuleDeclaration}
    {report : RuleReport} {part : List Event}
    (seen : RuleSeen machine dumps number d report part) :
    (Event.requests part).Nodup ∧
      ∀ p ∈ Event.requests part, ∃ text, dumps.text? p = some text := by
  cases seen with
  | skipped skips outcome => exact ⟨List.nodup_nil, by simp [Event.requests, verdictLine, Event.line]⟩
  | @checked cs results phases applies read outcome reported ascending meant =>
      have asked : ∀ verdict, Event.requests ((phases.flatMap fun p => phaseEvents dumps
          (meantFor (d.meant machine.defaultPhase) cs.failOn p)
          (meantFor (d.meant machine.defaultPhase) cs.counts p) p) ++
            [verdictLine number verdict]) = phases.filter fun p => (dumps.text? p).isSome := by
        intro verdict
        rw [← requests_phaseEvents]
        exact List.filterMap_append.trans (List.append_nil _)
      rw [asked]
      refine ⟨(ascending.imp fun less => ?_).filter _, fun p member => ?_⟩
      · rintro rfl
        exact Nat.lt_irrefl _ less
      · exact Option.isSome_iff_exists.1 (List.mem_filter.1 member).2

/-! ## The whole check -/

/-- What is seen of a check, and when. -/
structure InOrder (machine : Machine) (catalog : Catalog) (dumps : Dumps)
    (ds : List RuleDeclaration) (run : Traced (Except RuleErrors (List RuleReport))) : Prop where
  /-- If a declaration is rejected, no text is asked for. -/
  rejected : ∀ es, run.value = .error es →
    run.events = skipLines machine ds ∧ Event.requests run.events = []
  /-- Otherwise each rule has its part, in order. -/
  checked : ∀ reports, run.value = .ok reports → ∃ parts : List (List Event),
    run.events = skipLines machine ds ++ parts.flatten ∧ parts.length = ds.length ∧
      reports.length = ds.length ∧ ∀ (i : Nat) (d : RuleDeclaration), ds[i]? = some d →
        ∃ report part, reports[i]? = some report ∧ parts[i]? = some part ∧
          RuleSeen machine dumps (i + 1) d report part ∧ (Event.requests part).Nodup
  /-- A request comes only after all declarations have been accepted and planned. -/
  validated : ∀ before p after, run.events = before ++ .request p :: after →
    (∃ prepared, (prepareRules machine catalog ds).value = .ok prepared) ∧
      skipLines machine ds <+: before
  /-- It is for a phase that was dumped. -/
  captured : ∀ p ∈ Event.requests run.events, ∃ text, dumps.text? p = some text

theorem inOrder_of_rejected {machine : Machine} {catalog : Catalog} {ds : List RuleDeclaration}
    (dumps : Dumps) (es : RuleErrors) :
    InOrder machine catalog dumps ds ⟨.error es, skipLines machine ds⟩ where
  rejected es same := by
    refine ⟨rfl, List.eq_nil_iff_forall_not_mem.2 fun p member => ?_⟩
    exact request_notMem_skipLines machine ds p (mem_requests.1 member)
  checked reports same := by cases same
  validated before p after split := by
    have member : .request p ∈ skipLines machine ds := by
      rw [show skipLines machine ds = before ++ .request p :: after from split]
      exact List.mem_append_right _ List.mem_cons_self
    exact absurd member (request_notMem_skipLines machine ds p)
  captured p member :=
    absurd (mem_requests.1 member) (request_notMem_skipLines machine ds p)

/-- Behind events without a request, a request has all of them before it. -/
theorem prefix_of_request {first second before after : List Event} {p : Phase}
    (unasked : .request p ∉ first) (split : first ++ second = before ++ .request p :: after) :
    first <+: before := by
  rcases List.append_eq_append_iff.1 split with ⟨later, rfl, -⟩ | ⟨rest, rfl, same⟩
  · exact List.prefix_append first later
  · cases rest with
    | nil => exact (List.append_nil before).symm ▸ List.prefix_refl before
    | cons e rest =>
        obtain ⟨rfl, -⟩ := List.cons.inj same
        exact absurd (List.mem_append_right _ List.mem_cons_self) unasked

theorem inOrder_of_prepared {machine : Machine} {catalog : Catalog} {ds : List RuleDeclaration}
    {rs : List PreparedRule} (ready : (prepareRules machine catalog ds).value = .ok rs)
    (dumps : Dumps) :
    InOrder machine catalog dumps ds ⟨.ok (rs.map (·.report dumps)),
      skipLines machine ds ++ (rs.map fun r => (r.check dumps).events).flatten⟩ := by
  obtain ⟨length, each⟩ := prepared_of_prepareRules ready
  constructor
  case rejected => nofun
  case checked =>
    rintro _ ⟨⟩
    refine ⟨rs.map fun r => (r.check dumps).events, rfl, by simp [length], by simp [length], ?_⟩
    intro i d declared
    obtain ⟨r, found, follows⟩ := each i d declared
    have seen := ruleSeen_of_follows follows dumps
    exact ⟨_, _, by simp [found], by simp [found], seen, seen.requests.1⟩
  case validated =>
    intro before p after split
    exact ⟨⟨rs, ready⟩, prefix_of_request (request_notMem_skipLines machine ds p) split⟩
  case captured =>
    intro p member
    rcases List.mem_append.1 (mem_requests.1 member) with early | member
    · exact absurd early (request_notMem_skipLines machine ds p)
    · obtain ⟨part, among, asked⟩ := List.mem_flatten.1 member
      obtain ⟨r, prepared, rfl⟩ := List.mem_map.1 among
      obtain ⟨i, found⟩ := List.mem_iff_getElem?.1 prepared
      obtain ⟨d, declared⟩ : ∃ d, ds[i]? = some d := by
        have bound : i < ds.length := length ▸ (List.getElem?_eq_some_iff.1 found).1
        exact ⟨_, List.getElem?_eq_getElem bound⟩
      obtain ⟨r', found', follows⟩ := each i d declared
      obtain rfl : r = r' := Option.some.inj (found.symm.trans found')
      exact (ruleSeen_of_follows follows dumps).requests.2 p (mem_requests.2 asked)

/-- **Effects come in order.** In every mode, a check shows the rules that do not apply, then rule by
rule its phases and its verdict, and asks for texts only in the second stage. -/
theorem checkRules_inOrder (mode : EvalMode) (machine : Machine) (catalog : Catalog)
    (dumps : Dumps) (ds : List RuleDeclaration) :
    InOrder machine catalog dumps ds (checkRulesIn mode machine catalog dumps ds) := by
  have prepared := events_prepareRules machine catalog ds
  rw [checkRulesIn_eq]
  cases ready : (prepareRules machine catalog ds).value with
  | error es =>
      have run : checkRules machine catalog dumps ds = ⟨.error es, skipLines machine ds⟩ := by
        rw [checkRules_of_error ready, prepared]
      rw [run]
      exact inOrder_of_rejected dumps es
  | ok rs =>
      have run : checkRules machine catalog dumps ds = ⟨.ok (rs.map (·.report dumps)),
          skipLines machine ds ++ (rs.map fun r => (r.check dumps).events).flatten⟩ := by
        rw [checkRules_of_ok ready, prepared, List.flatMap_def]
      rw [run]
      exact inOrder_of_prepared ready dumps

end DumpRules
