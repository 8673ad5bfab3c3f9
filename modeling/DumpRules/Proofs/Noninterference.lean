import DumpRules.Proofs.BoundNames
import DumpRules.Proofs.Independence
import DumpRules.Proofs.Reports
import Mathlib.Data.List.Find
import Mathlib.Data.List.Nodup

/-!
# What a check does not look at

A check reads three things that are not its declarations: a registry, flags and dumps. It looks at
little of each. Of the flags it sees those that a condition or an override of a named node asks
for, of the registry the entries of the nodes that the declarations name, of the dumps the texts of
the phases that the rules come to be checked in. Which phases these are follows from the other two,
so `Alike` speaks of the phases of one side only.

The argument goes through the machine and the catalog (`Indistinct`): a declaration that cannot tell
two of them apart is prepared alike under both (`prepareRule_congr`), and a plan is checked alike
against dumps that agree on its phases (`report_congr`). The main theorem is
`checkRules_undisturbed`.
-/

namespace DumpRules

set_option autoImplicit false

/-! ## What a declaration depends on -/

/-- The nodes that a declaration names in its lists; none, if they cannot be read. -/
def RuleDeclaration.nodes (d : RuleDeclaration) : List String :=
  match readClauses d.failOn d.counts with
  | .ok cs => cs.all.map (·.node)
  | .error _ => []

theorem mem_nodes {d : RuleDeclaration} {cs : Clauses}
    (read : readClauses d.failOn d.counts = .ok cs) {c : Clause} (member : c ∈ cs.all) :
    c.node ∈ d.nodes := by
  unfold RuleDeclaration.nodes
  simp only [read]
  exact List.mem_map_of_mem member

/-- The phases that a declaration comes to be checked in; none, if it is rejected or does not
apply. -/
def RuleDeclaration.checkedIn (d : RuleDeclaration) (machine : Machine) (catalog : Catalog) :
    List Phase :=
  match prepareRule machine catalog 1 d with
  | .ok r => (r.plan.getD []).map Prod.fst
  | .error _ => []

/-- A declaration cannot tell two machines and catalogs apart. -/
structure Indistinct (d : RuleDeclaration) (machine machine' : Machine)
    (catalog catalog' : Catalog) : Prop where
  flags : ∀ c ∈ d.applyIf, machine.flag c.flag = machine'.flag c.flag
  contains : ∀ node ∈ d.nodes, catalog.contains node = catalog'.contains node
  patterns : ∀ node ∈ d.nodes, ∀ p, catalog.pattern node p = catalog'.pattern node p
  defaults : ∀ node ∈ d.nodes, machine.defaultPhase node = machine'.defaultPhase node

section Preparing

variable {d : RuleDeclaration} {machine machine' : Machine} {catalog catalog' : Catalog}

theorem ofDeclaration_congr (index : Nat)
    (flags : ∀ c ∈ d.applyIf, machine.flag c.flag = machine'.flag c.flag) :
    IrRule.ofDeclaration index d machine = IrRule.ofDeclaration index d machine' := by
  have unknown : (d.applyIf.find? fun c => (machine.flag c.flag).isNone) =
      d.applyIf.find? fun c => (machine'.flag c.flag).isNone := by
    apply List.find?_congr
    intro c member
    rw [flags c member]
  simp only [IrRule.ofDeclaration, unknown]

theorem isApplicable_congr {rule : IrRule}
    (flags : ∀ c ∈ rule.applyIf, machine.flag c.flag = machine'.flag c.flag) :
    rule.isApplicable machine = rule.isApplicable machine' := by
  unfold IrRule.isApplicable
  rw [Bool.eq_iff_iff, List.all_eq_true, List.all_eq_true]
  constructor
  · intro holds c member
    rw [← flags c member]
    exact holds c member
  · intro holds c member
    rw [flags c member]
    exact holds c member

/-- A clause is tried in the same places and with the same result. -/
theorem tries_congr (t : Target) (kind : ListKind) (index : Nat) {c : Clause}
    (contains : catalog.contains c.node = catalog'.contains c.node)
    (patterns : ∀ p, catalog.pattern c.node p = catalog'.pattern c.node p)
    (defaults : machine.defaultPhase c.node = machine'.defaultPhase c.node) :
    tries t machine catalog (kind, index, c) = tries t machine' catalog' (kind, index, c) := by
  have targets : t.of machine catalog c = t.of machine' catalog' c := by
    cases t with
    | default => simp only [Target.of, Clause.defaultTargets, contains, defaults]
    | explicit phases => rfl
  simp only [tries, targets, Constraint.resolve, patterns]

theorem plan_congr (t : Target) {cs : Clauses}
    (contains : ∀ c ∈ cs.all, catalog.contains c.node = catalog'.contains c.node)
    (patterns : ∀ c ∈ cs.all, ∀ p, catalog.pattern c.node p = catalog'.pattern c.node p)
    (defaults : ∀ c ∈ cs.all, machine.defaultPhase c.node = machine'.defaultPhase c.node) :
    plan t machine catalog cs = plan t machine' catalog' cs := by
  have all : cs.numbered.flatMap (tries t machine catalog) =
      cs.numbered.flatMap (tries t machine' catalog') := by
    apply List.flatMap_congr
    rintro ⟨kind, index, c⟩ member
    have among := mem_numbered member
    exact tries_congr t kind index (contains c among) (patterns c among) (defaults c among)
  simp only [plan, all]

theorem prepareRule_congr (index : Nat) (same : Indistinct d machine machine' catalog catalog') :
    prepareRule machine catalog index d = prepareRule machine' catalog' index d := by
  simp only [prepareRule, ← ofDeclaration_congr index same.flags]
  cases made : IrRule.ofDeclaration index d machine with
  | error e => rfl
  | ok rule =>
      have accepted := accepted_of_ofDeclaration made
      have named : ∀ c ∈ rule.clauses.all, c.node ∈ d.nodes := fun c member =>
        mem_nodes accepted.read member
      have applies : rule.isApplicable machine = rule.isApplicable machine' := by
        apply isApplicable_congr
        rw [accepted.applyIf]
        exact same.flags
      have planned : rule.plan machine catalog = rule.plan machine' catalog' := by
        unfold IrRule.plan
        rw [plan_congr rule.target (fun c member => same.contains _ (named c member))
          (fun c member => same.patterns _ (named c member))
          (fun c member => same.defaults _ (named c member))]
      simp only [bind, Except.bind, applies, planned]

theorem prepareRules_congr {ds : List RuleDeclaration}
    (same : ∀ d ∈ ds, Indistinct d machine machine' catalog catalog') :
    prepareRules machine catalog ds = prepareRules machine' catalog' ds := by
  have each : (ds.mapIdx fun i d => prepareRule machine catalog (i + 1) d) =
      ds.mapIdx fun i d => prepareRule machine' catalog' (i + 1) d := by
    simp only [List.mapIdx_eq_zipIdx_map]
    apply List.map_congr_left
    rintro ⟨d, i⟩ member
    exact prepareRule_congr (i + 1) (same d (List.fst_mem_of_mem_zipIdx member))
  simp only [prepareRules, each]

end Preparing

/-! ## What a plan depends on -/

section Checking

variable {dumps dumps' : Dumps} {plan : Plan}

theorem setUp_congr (same : ∀ p ∈ plan.map Prod.fst, dumps.text? p = dumps'.text? p) :
    plan.setUp dumps = plan.setUp dumps' := by
  apply Traced.each_congr
  rintro ⟨p, b⟩ member
  have text : dumps.text? p = dumps'.text? p :=
    same p (List.mem_map_of_mem (List.mem_of_mem_filter member))
  simp only [PhaseCheck.setUp, text]

/-- A rule is checked alike against dumps that agree on its phases. -/
theorem checkWith_congr {r : PreparedRule} (same : ∀ plan, r.plan = some plan →
      ∀ p ∈ plan.map Prod.fst, dumps.text? p = dumps'.text? p)
    (evaluate : List PhaseCheck → List PhaseResult) :
    r.checkWith evaluate dumps = r.checkWith evaluate dumps' := by
  cases planned : r.plan with
  | none => simp only [PreparedRule.checkWith, planned]
  | some plan => simp only [PreparedRule.checkWith, planned, setUp_congr (same plan planned)]

end Checking

/-! ## Two setups -/

/-- The flags that a declaration asks for: those of its conditions, and those that decide the
default phase of a node that it names. -/
def Setup.askedBy (s : Setup) (d : RuleDeclaration) : List String :=
  d.applyIf.map (·.flag) ++ d.nodes.flatMap fun node =>
    match s.registry.get? node with
    | none => []
    | some e => e.overrides.map (·.flag)

/-- Two setups with dumps agree on all that some declarations look at. -/
structure Alike (ds : List RuleDeclaration) (s s' : Setup) (dumps dumps' : Dumps) : Prop where
  flags : ∀ d ∈ ds, ∀ flag ∈ s.askedBy d, s.flags.get? flag = s'.flags.get? flag
  entries : ∀ d ∈ ds, ∀ node ∈ d.nodes, s.registry.get? node = s'.registry.get? node
  texts : ∀ d ∈ ds, ∀ p ∈ d.checkedIn s.machine s.catalog, dumps.text? p = dumps'.text? p

instance (ds : List RuleDeclaration) (s s' : Setup) (dumps dumps' : Dumps) :
    Decidable (Alike ds s s' dumps dumps') :=
  decidable_of_iff
    ((∀ d ∈ ds, ∀ flag ∈ s.askedBy d, s.flags.get? flag = s'.flags.get? flag) ∧
      (∀ d ∈ ds, ∀ node ∈ d.nodes, s.registry.get? node = s'.registry.get? node) ∧
      ∀ d ∈ ds, ∀ p ∈ d.checkedIn s.machine s.catalog, dumps.text? p = dumps'.text? p)
    ⟨fun ⟨flags, entries, texts⟩ => ⟨flags, entries, texts⟩,
      fun alike => ⟨alike.flags, alike.entries, alike.texts⟩⟩

/-- Checking some declarations shows no difference between two setups with dumps: the same reports
or the same rejected declarations, the same log and the same requests, in whatever modes. -/
def SameChecks (ds : List RuleDeclaration) (s s' : Setup) (dumps dumps' : Dumps) : Prop :=
  ∀ mode mode', checkRulesIn mode s.machine s.catalog dumps ds =
    checkRulesIn mode' s'.machine s'.catalog dumps' ds

/-- An entry has one pattern, so what is registered is known by its entry. -/
theorem Registry.Holds.find?_congr {compile : Regex.Compiler} {r r' : Registry}
    {entries entries' : List NodeEntry} (holds : r.Holds compile entries)
    (holds' : r'.Holds compile entries') {node : String}
    (same : r.get? node = r'.get? node) : r.find? node = r'.find? node := by
  unfold Registry.get? at same
  cases found : r.find? node with
  | none =>
      rw [found, Option.map_none] at same
      exact (Option.map_eq_none_iff.1 same.symm).symm
  | some n =>
      rw [found, Option.map_some] at same
      obtain ⟨n', found', entry⟩ := Option.map_eq_some_iff.1 same.symm
      have pattern := holds.patterns n (List.mem_of_find?_eq_some found)
      have pattern' := holds'.patterns n' (List.mem_of_find?_eq_some found')
      rw [entry, pattern] at pattern'
      obtain ⟨e, p⟩ := n
      obtain ⟨e', p'⟩ := n'
      cases entry
      cases pattern'
      exact found'.symm

theorem defaultUnder_congr {e : NodeEntry} {flags flags' : String → Option String}
    (same : ∀ o ∈ e.overrides, flags o.flag = flags' o.flag) :
    e.defaultUnder flags = e.defaultUnder flags' := by
  have first : (e.overrides.find? fun o => flags o.flag == some o.value) =
      e.overrides.find? fun o => flags' o.flag == some o.value := by
    apply List.find?_congr
    intro o member
    rw [same o member]
  simp only [NodeEntry.defaultUnder, first]

theorem Alike.indistinct {ds : List RuleDeclaration} {s s' : Setup} {dumps dumps' : Dumps}
    (alike : Alike ds s s' dumps dumps') {compile : Regex.Compiler}
    {entries entries' : List NodeEntry} (holds : s.registry.Holds compile entries)
    (holds' : s'.registry.Holds compile entries')
    {d : RuleDeclaration} (member : d ∈ ds) :
    Indistinct d s.machine s'.machine s.catalog s'.catalog where
  flags c condition :=
    alike.flags d member c.flag (List.mem_append_left _ (List.mem_map_of_mem condition))
  contains node named := by
    have found := holds.find?_congr holds' (alike.entries d member node named)
    show (s.registry.find? node).isSome = (s'.registry.find? node).isSome
    rw [found]
  patterns node named p := by
    have found := holds.find?_congr holds' (alike.entries d member node named)
    simp only [Setup.catalog, Registry.catalog, Registry.pattern, found]
  defaults node named := by
    have entry := alike.entries d member node named
    show s.registry.defaultPhase s.flags.get? node = s'.registry.defaultPhase s'.flags.get? node
    simp only [Registry.defaultPhase, ← entry]
    cases known : s.registry.get? node with
    | none => rfl
    | some e =>
        apply defaultUnder_congr
        intro o override
        apply alike.flags d member
        refine List.mem_append_right _ (List.mem_flatMap.2 ⟨node, named, ?_⟩)
        rw [known]
        exact List.mem_map_of_mem override

/-- A prepared rule of a list is checked in the phases that its declaration comes to. -/
theorem checkedIn_of_prepared {machine : Machine} {catalog : Catalog} {ds : List RuleDeclaration}
    {rs : List PreparedRule} (ready : (prepareRules machine catalog ds).value = .ok rs)
    {r : PreparedRule} (member : r ∈ rs) :
    ∃ d ∈ ds, d.checkedIn machine catalog = (r.plan.getD []).map Prod.fst := by
  have clean : settled (preparedEach machine catalog ds) = .ok rs := ready
  unfold settled at clean
  split at clean
  case h_2 => cases clean
  rename_i accepted
  cases clean
  have among : Except.ok r ∈ preparedEach machine catalog ds := by
    rw [← map_ok_accepted accepted]
    exact List.mem_map_of_mem member
  obtain ⟨i, bound, prepared⟩ := List.mem_mapIdx.1 among
  refine ⟨ds[i], List.getElem_mem bound, ?_⟩
  -- The number of the declaration is all that separates the two results.
  rw [Nat.add_comm, prepareRule_later] at prepared
  unfold RuleDeclaration.checkedIn
  cases first : prepareRule machine catalog 1 ds[i] with
  | error e =>
      rw [first] at prepared
      cases prepared
  | ok r' =>
      rw [first] at prepared
      cases prepared
      rfl

theorem Alike.sameChecks {ds : List RuleDeclaration} {s s' : Setup} {dumps dumps' : Dumps}
    (alike : Alike ds s s' dumps dumps') {compile : Regex.Compiler}
    {entries entries' : List NodeEntry} (holds : s.registry.Holds compile entries)
    (holds' : s'.registry.Holds compile entries') :
    SameChecks ds s s' dumps dumps' := by
  intro mode mode'
  have prepared : prepareRules s.machine s.catalog ds = prepareRules s'.machine s'.catalog ds :=
    prepareRules_congr fun d member => alike.indistinct holds holds' member
  rw [checkRulesIn_eq, checkRulesIn_eq]
  simp only [checkRules, checkRulesWith, ← prepared]
  cases ready : (prepareRules s.machine s.catalog ds).value with
  | error es => rfl
  | ok rs =>
      have each : Traced.each (fun r => r.checkWith (List.map PhaseCheck.evaluate) dumps) rs =
          Traced.each (fun r => r.checkWith (List.map PhaseCheck.evaluate) dumps') rs := by
        apply Traced.each_congr
        intro r member
        refine checkWith_congr (fun plan planned p inside => ?_) _
        obtain ⟨d, declared, checked⟩ := checkedIn_of_prepared ready member
        rw [planned] at checked
        exact alike.texts d declared p (checked ▸ inside)
      simp only [each]

/-! ## Order, and what nothing asks for -/

/-- An entry that a registry takes as long as its name is new. -/
def NodeEntry.Admissible (compile : Regex.Compiler) (e : NodeEntry) : Prop :=
  (∃ pattern, e.pattern? compile = some pattern) ∧ e.badDefault? e.defaults = none

namespace Registry.Holds

variable {compile : Regex.Compiler} {r r' : Registry} {entries entries' : List NodeEntry}

theorem contains_iff (holds : r.Holds compile entries) (name : String) :
    r.contains name = true ↔ name ∈ entries.map (·.name) := by
  have found : r.contains name = (r.get? name).isSome := by
    rw [Registry.contains, Registry.get?, Option.isSome_map]
  rw [found, holds.get?_eq, List.find?_isSome]
  simp

theorem register_iff (holds : r.Holds compile entries) (e : NodeEntry) :
    (∃ r', r.register e compile = .ok r') ↔
      e.Admissible compile ∧ e.name ∉ entries.map (·.name) := by
  rw [← holds.contains_iff, NodeEntry.Admissible, Registry.register]
  cases e.pattern? compile with
  | none => simp
  | some pattern =>
      cases e.badDefault? e.defaults with
      | some error => simp
      | none => cases r.contains e.name <;> simp

/-- Entries are taken one after the other iff each may be taken and no name comes again. -/
theorem registerAll_iff (holds : r.Holds compile entries) (later : List NodeEntry) :
    (∃ r', r.registerAll later compile = .ok r') ↔ (∀ e ∈ later, e.Admissible compile) ∧
      (later.map (·.name)).Nodup ∧ ∀ e ∈ later, e.name ∉ entries.map (·.name) := by
  induction later generalizing r entries with
  | nil => simp [Registry.registerAll]
  | cons e later ih =>
      have step := holds.register_iff e
      cases one : r.register e compile with
      | error failure =>
          have refused : ¬(e.Admissible compile ∧ e.name ∉ entries.map (·.name)) := by
            rw [← step, one]
            simp
          simp only [Registry.registerAll, one]
          constructor
          · rintro ⟨r', impossible⟩
            cases impossible
          · rintro ⟨admissible, -, fresh⟩
            exact absurd ⟨admissible e List.mem_cons_self, fresh e List.mem_cons_self⟩ refused
      | ok next =>
          obtain ⟨admissible, fresh⟩ := step.1 ⟨next, one⟩
          simp only [Registry.registerAll, one, ih (holds.register one)]
          simp only [List.forall_mem_cons, List.map_append, List.map_cons, List.map_nil,
            List.mem_append, List.mem_singleton, not_or, List.nodup_cons, List.mem_map, not_exists,
            not_and]
          constructor
          · rintro ⟨others, once, new⟩
            refine ⟨⟨admissible, others⟩, ⟨fun e' member => (new e' member).2, once⟩, ?_, ?_⟩
            · simpa using fresh
            · exact fun e' member => (new e' member).1
          · rintro ⟨⟨-, others⟩, ⟨apart, once⟩, -, new⟩
            exact ⟨others, once, fun e' member => ⟨new e' member, apart e' member⟩⟩

end Registry.Holds

/-- A registry takes entries iff each of them may be taken and their names are distinct. -/
theorem Registry.ofEntries_iff (compile : Regex.Compiler) (entries : List NodeEntry) :
    (∃ r, Registry.ofEntries entries compile = .ok r) ↔
      (∀ e ∈ entries, e.Admissible compile) ∧ (entries.map (·.name)).Nodup := by
  have start : Registry.empty.Holds compile [] := .empty
  have all := start.registerAll_iff entries
  simpa [Registry.ofEntries] using all

theorem Registry.ofEntries_perm {compile : Regex.Compiler} {entries entries' : List NodeEntry}
    {r : Registry} (taken : Registry.ofEntries entries compile = .ok r)
    (perm : entries.Perm entries') :
    ∃ r', Registry.ofEntries entries' compile = .ok r' ∧
      ∀ name, r.get? name = r'.get? name := by
  obtain ⟨admissible, once⟩ := (Registry.ofEntries_iff compile entries).1 ⟨r, taken⟩
  obtain ⟨r', taken'⟩ := (Registry.ofEntries_iff compile entries').2
    ⟨fun e member => admissible e (perm.mem_iff.2 member), (perm.map _).nodup_iff.1 once⟩
  refine ⟨r', taken', fun name => ?_⟩
  rw [(Registry.Holds.ofEntries taken).get?_eq, (Registry.Holds.ofEntries taken').get?_eq]
  apply List.find?_eq_find?_of_perm perm
  rintro e ⟨member, named⟩ e' ⟨member', named'⟩
  have same : e.name = e'.name := (beq_iff_eq.1 named).trans (beq_iff_eq.1 named').symm
  exact List.inj_on_of_nodup_map once member member' same

/-- What checks of some declarations do not depend on. -/
structure Undisturbed (compile : Regex.Compiler) (entries : List NodeEntry) (s : Setup)
    (dumps : Dumps) (ds : List RuleDeclaration) : Prop where
  /-- All that can matter is what the declarations look at. -/
  alike : ∀ entries' registry' flags' dumps', Registry.ofEntries entries' compile = .ok registry' →
    Alike ds s ⟨registry', flags'⟩ dumps dumps' →
    SameChecks ds s ⟨registry', flags'⟩ dumps dumps'
  order : ∀ (entries' : List NodeEntry) (flags' : Bindings String), entries.Perm entries' →
    s.flags.entries.Perm flags'.entries →
    ∃ registry', Registry.ofEntries entries' compile = .ok registry' ∧
      SameChecks ds s ⟨registry', flags'⟩ dumps dumps
  flag : ∀ name value, (∀ d ∈ ds, name ∉ s.askedBy d) →
    SameChecks ds s { s with flags := s.flags.insert name value } dumps dumps
  node : ∀ e registry', s.registry.register e compile = .ok registry' →
    (∀ d ∈ ds, e.name ∉ d.nodes) →
    SameChecks ds s { s with registry := registry' } dumps dumps
  dump : ∀ p text, (∀ d ∈ ds, p ∉ d.checkedIn s.machine s.catalog) →
    SameChecks ds s s dumps (dumps.insert p text)

/-- **Unrelated configuration does not interfere.** Two setups with dumps that agree on the flags,
the nodes and the phases that the declarations look at give the same check, so neither the order
of entries and flags matters nor anything that the declarations have no use for. -/
theorem checkRules_undisturbed {compile : Regex.Compiler} {entries : List NodeEntry}
    {registry : Registry} (taken : Registry.ofEntries entries compile = .ok registry)
    (flags : Bindings String) (dumps : Dumps) (ds : List RuleDeclaration) :
    Undisturbed compile entries ⟨registry, flags⟩ dumps ds := by
  have holds : (Setup.mk registry flags).registry.Holds compile entries :=
    Registry.Holds.ofEntries taken
  constructor
  case alike =>
    intro entries' registry' flags' dumps' taken' alike
    exact alike.sameChecks holds (Registry.Holds.ofEntries taken')
  case order =>
    intro entries' flags' perm flagPerm
    obtain ⟨registry', taken', same⟩ := Registry.ofEntries_perm taken perm
    have alike : Alike ds ⟨registry, flags⟩ ⟨registry', flags'⟩ dumps dumps :=
      ⟨fun d _ flag _ => Bindings.get?_perm flagPerm flag, fun d _ node _ => same node,
        fun d _ p _ => rfl⟩
    exact ⟨registry', taken', alike.sameChecks holds (Registry.Holds.ofEntries taken')⟩
  case flag =>
    intro name value unasked
    refine Alike.sameChecks ⟨fun d member flag asked => ?_, fun d _ node _ => rfl,
      fun d _ p _ => rfl⟩ holds holds
    have other : flag ≠ name := fun same => unasked d member (same ▸ asked)
    simp only [Bindings.get?_insert, if_neg other]
  case node =>
    intro e registry' registered unnamed
    refine Alike.sameChecks ⟨fun d _ flag _ => rfl, fun d member node named => ?_,
      fun d _ p _ => rfl⟩ holds (holds.register registered)
    have other : (e.name == node) = false := by
      simp only [beq_eq_false_iff_ne]
      rintro rfl
      exact unnamed d member named
    rw [holds.get?_eq, (holds.register registered).get?_eq, List.find?_append]
    simp [other]
  case dump =>
    intro p text unchecked
    refine Alike.sameChecks ⟨fun d _ flag _ => rfl, fun d _ node _ => rfl,
      fun d member q checked => ?_⟩ holds holds
    have other : q ≠ p := by
      rintro rfl
      exact unchecked d member checked
    exact (dumps.text?_insert_of_ne text other).symm

/-- The entries of `loadEntries` the other way round, behind one that no rule names. -/
def otherEntries : List NodeEntry :=
  { name := "PHI", regex := some "Phi|PHI", overrides := [⟨"Mach", "true", .matching⟩] } ::
    loadEntries.reverse

def otherFlags : Bindings String :=
  .ofList [("Trace", "on"), ("Mach", "true")]

def otherDumps : Dumps :=
  loadDumps.insert .ccp1 "LOAD PHI"

theorem checkRules_undisturbed_loads :
    ∃ registry registry', Registry.ofEntries loadEntries = .ok registry ∧
      Registry.ofEntries otherEntries = .ok registry' ∧
      Alike loadRules ⟨registry, loadFlags⟩ ⟨registry', otherFlags⟩ loadDumps otherDumps ∧
      (checkRules (Setup.mk registry' otherFlags).machine (Setup.mk registry' otherFlags).catalog
        otherDumps loadRules).value = .ok loadReports := by
  have run : (Registry.ofEntries loadEntries >>= fun registry =>
      (Registry.ofEntries otherEntries).map fun registry' =>
        (decide (Alike loadRules ⟨registry, loadFlags⟩ ⟨registry', otherFlags⟩ loadDumps
            otherDumps),
          (checkRules (Setup.mk registry loadFlags).machine (Setup.mk registry loadFlags).catalog
            loadDumps loadRules).value)) = .ok (true, .ok loadReports) := by
    decide +kernel
  obtain ⟨registry, taken, run⟩ := bind_eq_ok.1 run
  obtain ⟨registry', taken', results⟩ := map_eq_ok.1 run
  obtain ⟨agree, checked⟩ := Prod.mk.inj results
  have alike := of_decide_eq_true agree
  refine ⟨registry, registry', taken, taken', alike, ?_⟩
  have undisturbed := checkRules_undisturbed taken loadFlags loadDumps loadRules
  have same := undisturbed.alike _ _ _ _ taken' alike .sequential .sequential
  rw [checkRulesIn_eq, checkRulesIn_eq] at same
  rw [← same]
  exact checked

end DumpRules
