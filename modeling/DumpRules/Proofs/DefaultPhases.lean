import DumpRules.Proofs.Noninterference

/-!
# A default phase always resolves

A registry judges the default phases of an entry when it takes the entry; a plan asks for a pattern
in one of them much later, after the flags have chosen among them. `NodeEntry.Sound` is what the
registry asks of an entry, given a compiler of patterns, and whatever the flags are, the phase they
choose is one of those it looked at (`NodeEntry.Sound.defaultUnder`). So a clause without phases of
its own is never refused for being undefined somewhere: `Clause.Unplaced` lists all that can keep a
clause from being placed.
-/

namespace DumpRules

set_option autoImplicit false

/-! ## What a registry asks of an entry -/

namespace NodeEntry

variable {compile : Regex.Compiler} {e : NodeEntry} {p : Phase}

/-- The phase produces a kind of dump in which the node is defined; none listed means all. -/
def DefinedIn (e : NodeEntry) (p : Phase) : Prop :=
  ∃ kind, p.outputClass? = some kind ∧ (e.classes = [] ∨ kind ∈ e.classes)

/-- The pattern of an entry is well-formed, and every default phase that flags could choose is
concrete and one in which the node is defined. -/
structure Sound (compile : Regex.Compiler) (e : NodeEntry) : Prop where
  regex : ∀ source, e.regex = some source → ∃ expr, compile source = some expr
  default : ∀ p, e.defaultPhase = some p → p ≠ .placeholder ∧ e.DefinedIn p
  overrides : ∀ o ∈ e.overrides, o.phase ≠ .placeholder ∧ e.DefinedIn o.phase

theorem isDefinedIn_iff : e.isDefinedIn p = true ↔ e.DefinedIn p := by
  unfold isDefinedIn DefinedIn
  cases p.outputClass? <;> simp

theorem badDefault?_eq_none_iff {ps : List Phase} :
    e.badDefault? ps = none ↔ ∀ p ∈ ps, p ≠ .placeholder ∧ e.DefinedIn p := by
  induction ps with
  | nil => simp [badDefault?]
  | cons p later ih =>
      rw [badDefault?, List.forall_mem_cons, ← isDefinedIn_iff, ← ih]
      by_cases concrete : p = .placeholder
      · simp [concrete]
      · by_cases defined : e.isDefinedIn p = true <;> simp [concrete, defined]

theorem exists_pattern?_iff :
    (∃ pattern, e.pattern? compile = some pattern) ↔
      ∀ source, e.regex = some source → ∃ expr, compile source = some expr := by
  unfold pattern?
  cases e.regex with
  | none => simp
  | some source => simp [Pattern.ofSource?, eq_comm]

theorem admissible_iff_sound : e.Admissible compile ↔ e.Sound compile := by
  rw [Admissible, exists_pattern?_iff, badDefault?_eq_none_iff, defaults]
  simp only [List.forall_mem_append, Option.mem_toList, List.forall_mem_map]
  constructor
  · rintro ⟨regex, default, overrides⟩
    exact ⟨regex, default, overrides⟩
  · intro sound
    exact ⟨sound.regex, sound.default, sound.overrides⟩

/-- Flags choose among the phases that the registry has looked at. -/
theorem Sound.defaultUnder (sound : e.Sound compile) {flags : String → Option String}
    (chosen : e.defaultUnder flags = some p) : e.DefinedIn p := by
  unfold NodeEntry.defaultUnder at chosen
  split at chosen
  · rename_i o found
    cases chosen
    exact (sound.overrides o (List.mem_of_find?_eq_some found)).2
  · exact (sound.default p chosen).2

end NodeEntry

/-! ## Patterns of registered nodes -/

namespace Registry

variable {compile : Regex.Compiler} {entries : List NodeEntry} {r : Registry} {node : String}
  {p : Phase}

/-- A registry that has taken some entries, with what it has asked of them. -/
structure Took (compile : Regex.Compiler) (r : Registry) (entries : List NodeEntry) : Prop
    extends r.Holds compile entries where
  distinct : (entries.map (·.name)).Nodup
  sound : ∀ e ∈ entries, e.Sound compile

theorem ofEntries_iff_sound (compile : Regex.Compiler) (entries : List NodeEntry) :
    (∃ r, Registry.ofEntries entries compile = .ok r) ↔
      (entries.map (·.name)).Nodup ∧ ∀ e ∈ entries, e.Sound compile := by
  rw [ofEntries_iff, and_comm]
  simp only [NodeEntry.admissible_iff_sound]

theorem took_of_ofEntries (taken : Registry.ofEntries entries compile = .ok r) :
    r.Took compile entries := by
  obtain ⟨distinct, sound⟩ := (ofEntries_iff_sound compile entries).1 ⟨r, taken⟩
  exact { Holds.ofEntries taken with distinct, sound }

theorem Took.get?_eq_some_iff (took : r.Took compile entries) {e : NodeEntry} :
    r.get? node = some e ↔ e ∈ entries ∧ e.name = node := by
  rw [took.get?_eq]
  constructor
  · intro found
    exact ⟨List.mem_of_find?_eq_some found, by simpa using List.find?_some found⟩
  · rintro ⟨member, rfl⟩
    obtain ⟨e', found⟩ := Option.isSome_iff_exists.1
      (List.find?_isSome.2 ⟨e, member, by simp⟩ :
        (entries.find? fun x => x.name == e.name).isSome = true)
    have same : e'.name = e.name := by simpa using List.find?_some found
    rw [found, List.inj_on_of_nodup_map took.distinct (List.mem_of_find?_eq_some found) member same]

theorem contains_eq_isSome (r : Registry) (node : String) :
    r.contains node = (r.get? node).isSome := by
  rw [contains, get?, Option.isSome_map]

/-- A pattern is refused for a node that is not known, or not defined in the phase. -/
theorem pattern_eq_error_iff {error : ResolveError} :
    r.pattern node p = .error error ↔
      r.get? node = none ∧ error = .unknownNode node ∨
        ∃ e, r.get? node = some e ∧ ¬e.DefinedIn p ∧ error = .undefinedInPhase node p := by
  rw [pattern, get?]
  cases r.find? node with
  | none => simp [eq_comm]
  | some n =>
      by_cases defined : n.entry.isDefinedIn p = true
      · simp [defined, NodeEntry.isDefinedIn_iff.1 defined]
      · have undefined : ¬n.entry.DefinedIn p := mt NodeEntry.isDefinedIn_iff.2 defined
        simp [defined, undefined, eq_comm]

theorem Took.defaultPhase_defined (took : r.Took compile entries) {flags : String → Option String}
    (chosen : r.defaultPhase flags node = some p) : ∃ pattern, r.pattern node p = .ok pattern := by
  obtain ⟨e, known, chosen⟩ := Option.bind_eq_some_iff.1 chosen
  have defined : e.DefinedIn p :=
    (took.sound e (took.get?_eq_some_iff.1 known).1).defaultUnder chosen
  cases refused : r.pattern node p with
  | ok pattern => exact ⟨pattern, rfl⟩
  | error error =>
      rcases pattern_eq_error_iff.1 refused with ⟨unknown, -⟩ | ⟨e', known', undefined, -⟩
      · rw [known] at unknown
        cases unknown
      · rw [known] at known'
        cases known'
        exact absurd defined undefined

end Registry

/-! ## Clauses that cannot be placed -/

/-- What keeps a clause of a rule about default phases from being placed, by the entries and the
flags alone. -/
inductive Clause.Unplaced (entries : List NodeEntry) (flags : Bindings String) (c : Clause) :
    ResolveError → Prop
  | unknown (unregistered : ∀ e ∈ entries, e.name ≠ c.node) (somewhere : c.phases ≠ some []) :
      Unplaced entries flags c (.unknownNode c.node)
  /-- Only a phase that is written before the clause can be one where the node is undefined. -/
  | undefined {own : List Phase} {p : Phase} {e : NodeEntry} (written : c.phases = some own)
      (member : p ∈ own) (registered : e ∈ entries) (named : e.name = c.node)
      (outside : ¬e.DefinedIn p) : Unplaced entries flags c (.undefinedInPhase c.node p)
  | noDefault {e : NodeEntry} (plain : c.phases = none) (registered : e ∈ entries)
      (named : e.name = c.node) (unchosen : e.defaultUnder flags.get? = none) :
      Unplaced entries flags c (.noDefaultPhase c.node)

section

variable {compile : Regex.Compiler} {entries : List NodeEntry} {r : Registry}
  {flags : Bindings String}

theorem Registry.Took.get?_eq_none_iff (took : r.Took compile entries) {node : String} :
    r.get? node = none ↔ ∀ e ∈ entries, e.name ≠ node := by
  rw [took.get?_eq, List.find?_eq_none]
  simp

theorem error_mem_map_resolve {catalog : Catalog} {kind : ListKind} {index : Nat} {c : Clause}
    {own : List Phase} {error : ResolveError} :
    (.error error ∈ own.map fun p =>
      (Constraint.resolve catalog index c p).map fun constraint => Placement.mk kind constraint) ↔
      ∃ p ∈ own, catalog.pattern c.node p = .error error := by
  simp only [List.mem_map, Constraint.resolve]
  refine exists_congr fun p => and_congr_right fun _ => ?_
  cases catalog.pattern c.node p <;> simp [Except.map]

/-- A clause with phases of its own is refused at those phases. -/
theorem Registry.Took.refused_iff_of_own (took : r.Took compile entries) {c : Clause}
    {own : List Phase} (written : c.phases = some own) {error : ResolveError} :
    (∃ p ∈ own, r.pattern c.node p = .error error) ↔ c.Unplaced entries flags error := by
  simp only [Registry.pattern_eq_error_iff]
  constructor
  · rintro ⟨p, member, ⟨unknown, rfl⟩ | ⟨e, known, undefined, rfl⟩⟩
    · refine .unknown (took.get?_eq_none_iff.1 unknown) ?_
      rw [written]
      exact fun empty => List.ne_nil_of_mem member (Option.some.inj empty)
    · obtain ⟨registered, named⟩ := took.get?_eq_some_iff.1 known
      exact .undefined written member registered named undefined
  · intro unplaced
    cases unplaced with
    | unknown unregistered somewhere =>
        rw [written] at somewhere
        obtain ⟨p, member⟩ := List.exists_mem_of_ne_nil own fun empty => somewhere (empty ▸ rfl)
        exact ⟨p, member, .inl ⟨took.get?_eq_none_iff.2 unregistered, rfl⟩⟩
    | @undefined _ p e written' member registered named outside =>
        obtain rfl : own = _ := Option.some.inj (written.symm.trans written')
        have known := took.get?_eq_some_iff.2 ⟨registered, named⟩
        exact ⟨p, member, .inr ⟨e, known, outside, rfl⟩⟩
    | noDefault plain => simp [written] at plain

/-- A clause without phases of its own needs a registered node with a default phase. -/
theorem Registry.Took.unplaced_iff_of_plain (took : r.Took compile entries) {c : Clause}
    (plain : c.phases = none) {error : ResolveError} :
    c.Unplaced entries flags error ↔
      error = .unknownNode c.node ∧ r.get? c.node = none ∨
        error = .noDefaultPhase c.node ∧ r.get? c.node ≠ none ∧
          r.defaultPhase flags.get? c.node = none := by
  constructor
  · intro unplaced
    cases unplaced with
    | unknown unregistered => exact .inl ⟨rfl, took.get?_eq_none_iff.2 unregistered⟩
    | undefined written => simp [plain] at written
    | noDefault _ registered named unchosen =>
        have known := took.get?_eq_some_iff.2 ⟨registered, named⟩
        exact .inr ⟨rfl, by simp [known], by simp [Registry.defaultPhase, known, unchosen]⟩
  · rintro (⟨rfl, unknown⟩ | ⟨rfl, known, unchosen⟩)
    · exact .unknown (took.get?_eq_none_iff.1 unknown) (by simp [plain])
    · obtain ⟨e, known⟩ := Option.ne_none_iff_exists'.1 known
      obtain ⟨registered, named⟩ := took.get?_eq_some_iff.1 known
      refine .noDefault plain registered named ?_
      simpa [Registry.defaultPhase, known] using unchosen

/-- A clause fails where it is tried exactly for what keeps it from being placed. -/
theorem Registry.Took.error_mem_tries_iff (took : r.Took compile entries) {kind : ListKind}
    {index : Nat} {c : Clause} {error : ResolveError} :
    .error error ∈ tries .default (Setup.mk r flags).machine (Setup.mk r flags).catalog
        (kind, index, c) ↔ c.Unplaced entries flags error := by
  simp only [tries, Target.of, Clause.defaultTargets]
  cases written : c.phases with
  | some own =>
      simp only [error_mem_map_resolve]
      exact took.refused_iff_of_own written
  | none =>
      have registered : (Setup.mk r flags).catalog.contains c.node = (r.get? c.node).isSome :=
        r.contains_eq_isSome c.node
      have default : (Setup.mk r flags).machine.defaultPhase c.node =
          r.defaultPhase flags.get? c.node := rfl
      rw [took.unplaced_iff_of_plain written, registered, default]
      cases known : r.get? c.node with
      | none => simp
      | some e =>
          cases chosen : r.defaultPhase flags.get? c.node with
          | none => simp
          | some p =>
              -- The flags chose `p`, so the node has a pattern there and the one try succeeds.
              obtain ⟨pattern, found⟩ := took.defaultPhase_defined chosen
              have found : (Setup.mk r flags).catalog.pattern c.node p = .ok pattern := found
              simp only [Option.isSome_some, if_true, error_mem_map_resolve]
              simp [found]

theorem mem_failed_iff {ts : List (Except ResolveError Placement)} {error : ResolveError} :
    error ∈ failed ts ↔ .error error ∈ ts := by
  rw [failed, List.mem_filterMap]
  constructor
  · rintro ⟨result, member, found⟩
    cases result with
    | error e => cases found; exact member
    | ok placement => cases found
  · exact fun member => ⟨_, member, rfl⟩

/-- The errors of a plan are those of its clauses. -/
theorem Registry.Took.mem_errors_iff (took : r.Took compile entries) {cs : Clauses}
    {es : ResolveErrors}
    (refused : plan .default (Setup.mk r flags).machine (Setup.mk r flags).catalog cs = .error es)
    {error : ResolveError} :
    error ∈ es.errors ↔ ∃ c ∈ cs.all, c.Unplaced entries flags error := by
  simp only [plan] at refused
  split at refused
  case h_1 => cases refused
  cases refused
  rw [List.mem_eraseDups, mem_failed_iff, List.mem_flatMap]
  constructor
  · rintro ⟨⟨kind, index, c⟩, member, tried⟩
    exact ⟨c, mem_numbered member, took.error_mem_tries_iff.1 tried⟩
  · rintro ⟨c, member, unplaced⟩
    obtain ⟨kind, index, numbered⟩ := exists_numbered member
    exact ⟨_, numbered, took.error_mem_tries_iff.2 unplaced⟩

end

/-- How rules about default phases fare with a setup whose registry was made of `entries`. -/
structure Setup.Resolves (s : Setup) (entries : List NodeEntry) : Prop where
  /-- Where a node is looked for by default, it can be looked for. -/
  defined : ∀ node p, s.machine.defaultPhase node = some p →
    ∃ pattern, s.catalog.pattern node p = .ok pattern
  reported : ∀ cs es, plan .default s.machine s.catalog cs = .error es →
    ∀ error, error ∈ es.errors ↔ ∃ c ∈ cs.all, c.Unplaced entries s.flags error
  undefined : ∀ cs es node p, plan .default s.machine s.catalog cs = .error es →
    .undefinedInPhase node p ∈ es.errors →
    ∃ c ∈ cs.all, ∃ own, c.node = node ∧ c.phases = some own ∧ p ∈ own
  plain : ∀ kind index c error, c.phases = none →
    (.error error ∈ tries .default s.machine s.catalog (kind, index, c) ↔
      error = .unknownNode c.node ∧ s.catalog.contains c.node = false ∨
        error = .noDefaultPhase c.node ∧ s.catalog.contains c.node = true ∧
          s.machine.defaultPhase c.node = none)

/-- **A default phase always resolves.** Whichever patterns compile, a registry takes just the
entries that are sound and have distinct names, and then no flags can lead a rule to a default phase
in which its node is not defined. -/
theorem defaults_resolve (compile : Regex.Compiler) (entries : List NodeEntry) :
    ((∃ registry, Registry.ofEntries entries compile = .ok registry) ↔
      (entries.map (·.name)).Nodup ∧ ∀ e ∈ entries, e.Sound compile) ∧
    ∀ registry flags, Registry.ofEntries entries compile = .ok registry →
      (Setup.mk registry flags).Resolves entries := by
  refine ⟨Registry.ofEntries_iff_sound compile entries, fun registry flags taken => ?_⟩
  have took := Registry.took_of_ofEntries taken
  constructor
  case defined => exact fun node p chosen => took.defaultPhase_defined chosen
  case reported => exact fun cs es refused error => took.mem_errors_iff refused
  case undefined =>
    intro cs es node p refused reported
    obtain ⟨c, member, unplaced⟩ := (took.mem_errors_iff refused).1 reported
    cases unplaced with
    | undefined written among => exact ⟨c, member, _, rfl, written, among⟩
  case plain =>
    intro kind index c error plain
    have registered : (Setup.mk registry flags).catalog.contains c.node =
        (registry.get? c.node).isSome := registry.contains_eq_isSome c.node
    rw [took.error_mem_tries_iff, took.unplaced_iff_of_plain plain, registered]
    simp [Option.isSome_iff_ne_none, Setup.machine]

/-- A flag leads away from the default phase that the entry names, and the phase still resolves. -/
theorem defaults_resolve_loads :
    ∃ registry, Registry.ofEntries loadEntries = .ok registry ∧
      (Setup.mk registry loadFlags).machine.defaultPhase "LOAD" = some .finalCode ∧
      (Setup.mk registry loadFlags).Resolves loadEntries := by
  have run : (Registry.ofEntries loadEntries).map (fun registry =>
      (Setup.mk registry loadFlags).machine.defaultPhase "LOAD") = .ok (some .finalCode) := by
    decide +kernel
  obtain ⟨registry, taken, chosen⟩ := map_eq_ok.1 run
  exact ⟨registry, taken, chosen,
    (defaults_resolve Regex.parse? loadEntries).2 registry loadFlags taken⟩

end DumpRules
