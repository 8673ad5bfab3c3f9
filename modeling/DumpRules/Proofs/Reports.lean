import DumpRules.Proofs.Evaluation

/-!
# What the reports of a check say

A registry that took some entries finds by each name the entry with that name and its pattern
(`Registry.Holds`). With that, the report of a rule can be read off the entries, the flags, the
declaration and the dumps alone: `Reported` says how, without a registry or a plan, and
`checkRules_reported` that every report of a check is of this kind, whichever compiler reads the
patterns of the entries.
-/

namespace DumpRules

set_option autoImplicit false

/-! ## Registries -/

/-- The pattern of a node among some entries. -/
def patternIn (compile : Regex.Compiler) (entries : List NodeEntry) (node : String) :
    Option Pattern :=
  (entries.find? (·.name == node)).bind (·.pattern? compile)

/-- The default phase of a node among some entries, given the flags. -/
def defaultIn (entries : List NodeEntry) (flags : Bindings String) (node : String) :
    Option Phase :=
  (entries.find? (·.name == node)).bind (·.defaultUnder flags.get?)

/-- A registry has taken some entries, in order, each with the pattern it gives. -/
structure Registry.Holds (compile : Regex.Compiler) (r : Registry) (entries : List NodeEntry) :
    Prop where
  taken : r.nodes.map (·.entry) = entries
  patterns : ∀ n ∈ r.nodes, n.entry.pattern? compile = some n.pattern

namespace Registry.Holds

variable {compile : Regex.Compiler} {r r' : Registry} {entries : List NodeEntry}

theorem empty : Registry.empty.Holds compile [] :=
  ⟨rfl, by simp [Registry.empty]⟩

theorem register (holds : r.Holds compile entries) {e : NodeEntry}
    (taken : r.register e compile = .ok r') : r'.Holds compile (entries ++ [e]) := by
  simp only [Registry.register] at taken
  split at taken
  case h_1 => cases taken
  rename_i pattern own
  split at taken
  case h_1 => cases taken
  split at taken
  case isTrue => cases taken
  cases taken
  refine ⟨by rw [List.map_append, holds.taken]; rfl, ?_⟩
  rw [List.forall_mem_append]
  exact ⟨holds.patterns, List.forall_mem_singleton.2 own⟩

theorem registerAll (holds : r.Holds compile entries) {later : List NodeEntry}
    (taken : r.registerAll later compile = .ok r') : r'.Holds compile (entries ++ later) := by
  induction later generalizing r entries with
  | nil =>
      cases taken
      rwa [List.append_nil]
  | cons e later ih =>
      simp only [Registry.registerAll] at taken
      split at taken
      case h_2 => cases taken
      rename_i next one
      rw [List.append_cons]
      exact ih (holds.register one) taken

theorem ofEntries (taken : Registry.ofEntries entries compile = .ok r) :
    r.Holds compile entries :=
  registerAll empty taken

theorem get?_eq (holds : r.Holds compile entries) (name : String) :
    r.get? name = entries.find? (·.name == name) := by
  rw [← holds.taken, List.find?_map]
  rfl

/-- A registry gives the patterns of its entries. -/
theorem pattern?_eq (holds : r.Holds compile entries) :
    r.pattern? = patternIn compile entries := by
  funext node
  rw [patternIn, ← holds.get?_eq, Registry.get?, Registry.pattern?]
  cases known : r.find? node with
  | none => rfl
  | some n => exact (holds.patterns n (List.mem_of_find?_eq_some known)).symm

/-- A registry gives the default phases of its entries. -/
theorem defaultPhase_eq (holds : r.Holds compile entries) (flags : Bindings String) :
    r.defaultPhase flags.get? = defaultIn entries flags := by
  funext node
  rw [Registry.defaultPhase, holds.get?_eq]
  rfl

end Registry.Holds

/-! ## Reports -/

/-- What the report of a declaration says, given the entries of the catalog with the compiler of
their patterns, the flags of the run and the dumps. -/
structure Reported (compile : Regex.Compiler) (entries : List NodeEntry) (flags : Bindings String)
    (dumps : Dumps) (number : Nat) (d : RuleDeclaration) (report : RuleReport) : Prop where
  index : report.index = number
  name : report.name = d.name
  skipped : report.outcome = .notApplicable ↔ ∃ c ∈ d.applyIf, flags.get? c.flag ≠ some c.value
  evaluated : (∀ c ∈ d.applyIf, flags.get? c.flag = some c.value) →
    ∃ cs results, readClauses d.failOn d.counts = .ok cs ∧ report.outcome = .evaluated results ∧
      Results (patternIn compile entries) (d.meant (defaultIn entries flags)) cs dumps results

theorem reported_of_follows {compile : Regex.Compiler} {registry : Registry}
    {entries : List NodeEntry} (holds : registry.Holds compile entries)
    {flags : Bindings String} {number : Nat} {d : RuleDeclaration} {r : PreparedRule}
    (follows : r.Follows (Setup.mk registry flags).machine registry.catalog number d)
    (dumps : Dumps) : Reported compile entries flags dumps number d (r.report dumps) := by
  have accepted := follows.accepted
  have evaluated : (∀ c ∈ d.applyIf, flags.get? c.flag = some c.value) →
      ∃ cs results, readClauses d.failOn d.counts = .ok cs ∧
        (r.report dumps).outcome = .evaluated results ∧
        Results (patternIn compile entries) (d.meant (defaultIn entries flags)) cs dumps
          results := by
    intro applies
    obtain ⟨p, planned, fits⟩ := follows.fits applies
    have default : (Setup.mk registry flags).machine.defaultPhase = defaultIn entries flags :=
      holds.defaultPhase_eq flags
    rw [default] at fits
    have agrees : registry.catalog.Agrees (patternIn compile entries) :=
      holds.pattern?_eq ▸ registry.agrees_pattern?
    refine ⟨r.rule.clauses, p.results dumps, accepted.read, ?_,
      fits.results agrees (wellRead_of_readClauses accepted.read) dumps⟩
    exact PreparedRule.outcome_of_planned planned dumps
  refine ⟨accepted.index, accepted.name, ⟨fun skipped => ?_, ?_⟩, evaluated⟩
  · by_contra applies
    push Not at applies
    obtain ⟨cs, results, -, outcome, -⟩ := evaluated applies
    rw [skipped] at outcome
    cases outcome
  · rintro ⟨c, member, other⟩
    have skips : r.rule.isApplicable (Setup.mk registry flags).machine = false := by
      rw [← Bool.not_eq_true, isApplicable_iff accepted]
      exact fun applies => other (applies c member)
    exact PreparedRule.outcome_of_skipped (follows.skipped skips) dumps

/-- **Reports mean what they say.** If the declarations are accepted, each of them has one report,
in order, and the report follows from the entries, the flags and the dumps. -/
theorem checkRules_reported {compile : Regex.Compiler} {entries : List NodeEntry}
    {registry : Registry} (taken : Registry.ofEntries entries compile = .ok registry)
    {flags : Bindings String} {dumps : Dumps} {ds : List RuleDeclaration}
    {reports : List RuleReport}
    (checked : (checkRules (Setup.mk registry flags).machine (Setup.mk registry flags).catalog
      dumps ds).value = .ok reports) :
    reports.length = ds.length ∧ ∀ (i : Nat) (d : RuleDeclaration), ds[i]? = some d →
      ∃ report, reports[i]? = some report ∧
        Reported compile entries flags dumps (i + 1) d report := by
  have holds := Registry.Holds.ofEntries taken
  rw [checkRules_value] at checked
  obtain ⟨prepared, ready, rfl⟩ := map_eq_ok.1 checked
  obtain ⟨length, each⟩ := prepared_of_prepareRules ready
  refine ⟨by rw [List.length_map, length], fun i d declared => ?_⟩
  obtain ⟨r, at_i, follows⟩ := each i d declared
  refine ⟨r.report dumps, ?_, reported_of_follows holds follows dumps⟩
  rw [List.getElem?_map, at_i]
  rfl

/-- Two entries: one whose default phase depends on a flag, one with a pattern of its own. -/
def loadEntries : List NodeEntry :=
  [{ name := "LOAD", defaultPhase := some .printIdeal,
     overrides := [⟨"Mach", "true", .finalCode⟩] },
   { name := "STORE", regex := some "ST+ORE", classes := [.ideal],
     defaultPhase := some .printIdeal }]

def loadFlags : Bindings String :=
  .ofList [("Mach", "true")]

def loadRules : List RuleDeclaration :=
  [{ name := some "loads", failOn := "STORE", counts := "AFTER_PARSING: LOAD >2, LOAD <9" },
   { counts := "LOAD 1", applyIf := [⟨"Mach", "false"⟩] }]

def loadDumps : Dumps :=
  Dumps.empty.insertAll
    [(.afterParsing, "LOAD STORE LOAD"), (.printIdeal, "STTORE"), (.afterParsing, "LOAD")]

def loadReports : List RuleReport :=
  [⟨1, some "loads", .evaluated
     [⟨.afterParsing, .pass⟩, ⟨.finalCode, .absent⟩,
      ⟨.printIdeal, .fail [⟨.failOn, 1, "STORE", "ST+ORE", 1, "=0"⟩]⟩]⟩,
   ⟨2, none, .notApplicable⟩]

theorem checkRules_reported_loads :
    ∃ registry, Registry.ofEntries loadEntries = .ok registry ∧
      (checkRules (Setup.mk registry loadFlags).machine (Setup.mk registry loadFlags).catalog
        loadDumps loadRules).value = .ok loadReports ∧
      ∀ (i : Nat) (d : RuleDeclaration), loadRules[i]? = some d →
        ∃ report, loadReports[i]? = some report ∧
          Reported Regex.parse? loadEntries loadFlags loadDumps (i + 1) d report := by
  have run : (Registry.ofEntries loadEntries).map (fun registry =>
      (checkRules (Setup.mk registry loadFlags).machine (Setup.mk registry loadFlags).catalog
        loadDumps loadRules).value) = .ok (.ok loadReports) := by
    decide +kernel
  obtain ⟨registry, taken, checked⟩ := map_eq_ok.1 run
  exact ⟨registry, taken, checked, (checkRules_reported taken checked).2⟩

end DumpRules
