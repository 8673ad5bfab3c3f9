import DumpRules.Proofs.Targets

/-!
# Which declarations are accepted, and what is said of the others

A declaration is judged in stages, each of which takes the ones before it for granted: its phases
make sense together (`PhasesFit`), its lists can be read (`Legible`), there is some clause
(`Filled`), the clauses can hold together (`Compatible`), they keep to the phases of the rule
(`Inside`), and the flags of its conditions are known (`WellFormed`). These are stated here without
the searches that carry them out. `FirstFault` says of each error which stage was reached and what
was found there; every declaration is well-formed or has a first fault
(`wellFormed_or_firstFault`), and the one or the other is what `IrRule.ofDeclaration` returns.
-/

namespace DumpRules

set_option autoImplicit false

/-! ## The searches -/

theorem firstRepeated_eq_none_iff {seen ps : List Phase} :
    firstRepeated seen ps = none ↔ ps.Nodup ∧ ∀ p ∈ ps, p ∉ seen := by
  induction ps generalizing seen with
  | nil => simp [firstRepeated]
  | cons p later ih =>
      by_cases known : p ∈ seen
      · simp [firstRepeated, known]
      · rw [firstRepeated, if_neg known, ih, List.nodup_cons, List.forall_mem_cons]
        simp only [List.mem_cons, not_or]
        constructor
        · rintro ⟨once, fresh⟩
          exact ⟨⟨fun again => (fresh p again).1 rfl, once⟩, known, fun q member =>
            (fresh q member).2⟩
        · rintro ⟨⟨apart, once⟩, -, fresh⟩
          exact ⟨once, fun q member => ⟨fun same => apart (same ▸ member), fresh q member⟩⟩

/-- The phase that is found comes behind one that it repeats, and nothing before it repeats. -/
theorem firstRepeated_eq_some_iff {seen ps : List Phase} {p : Phase} :
    firstRepeated seen ps = some p ↔ ∃ before after, ps = before ++ p :: after ∧
      firstRepeated seen before = none ∧ (p ∈ before ∨ p ∈ seen) := by
  induction ps generalizing seen with
  | nil => simp [firstRepeated]
  | cons q later ih =>
      by_cases known : q ∈ seen
      · simp only [firstRepeated, if_pos known, Option.some.injEq]
        constructor
        · rintro rfl
          exact ⟨[], later, rfl, rfl, .inr known⟩
        · rintro ⟨before, after, split, clean, -⟩
          cases before with
          | nil => exact (List.cons.inj split).1
          | cons b before =>
              obtain ⟨rfl, -⟩ := List.cons.inj split
              simp [firstRepeated, known] at clean
      · simp only [firstRepeated, if_neg known, ih]
        constructor
        · rintro ⟨before, after, rfl, clean, repeated⟩
          refine ⟨q :: before, after, rfl, by rw [firstRepeated, if_neg known, clean], ?_⟩
          simpa [or_assoc, or_left_comm] using repeated
        · rintro ⟨before, after, split, clean, repeated⟩
          cases before with
          | nil =>
              obtain ⟨rfl, -⟩ := List.cons.inj split
              exact absurd (repeated.resolve_left List.not_mem_nil) known
          | cons b before =>
              obtain ⟨rfl, rfl⟩ := List.cons.inj split
              rw [firstRepeated, if_neg known] at clean
              refine ⟨before, after, rfl, clean, ?_⟩
              simpa [or_assoc, or_left_comm] using repeated

theorem ascending_eq_nil_iff {ps : List Phase} : ascending ps = [] ↔ ps = [] := by
  simp only [List.eq_nil_iff_forall_not_mem, mem_ascending]

/-- The first of some phases in ascending order is the least of them. -/
theorem head?_ascending_iff {ps : List Phase} {p : Phase} :
    (ascending ps).head? = some p ↔ p ∈ ps ∧ ∀ q ∈ ps, q = p ∨ p < q := by
  have ordered := pairwise_ascending ps
  have members : ∀ q, q ∈ ascending ps ↔ q ∈ ps := fun q => mem_ascending
  cases shape : ascending ps with
  | nil => simp [ascending_eq_nil_iff.1 shape]
  | cons least others =>
      rw [shape, List.pairwise_cons] at ordered
      simp only [shape, List.mem_cons] at members
      rw [List.head?_cons, Option.some.injEq]
      constructor
      · rintro rfl
        refine ⟨(members least).1 (.inl rfl), fun q member => ?_⟩
        exact ((members q).2 member).imp_right (ordered.1 q)
      · rintro ⟨member, least_le⟩
        rcases (members p).2 member with rfl | behind
        · rfl
        · have above : least < p := ordered.1 p behind
          rcases least_le least ((members least).1 (.inl rfl)) with same | below
          · exact same
          · exact absurd (Nat.lt_trans above below) (Nat.lt_irrefl _)

/-- A clause that is meant for given phases only. -/
def Clause.KeepsTo (named : List Phase) (c : Clause) : Prop :=
  ∀ own, c.phases = some own → ∀ p ∈ own, p ∈ named

/-- The first phase before a clause that is not among those of its rule. -/
theorem find?_outside_eq_none_iff {named : List Phase} {c : Clause} :
    ((c.phases.getD []).find? fun p => !(ascending named).contains p) = none ↔
      c.KeepsTo named := by
  simp only [List.find?_eq_none, Clause.KeepsTo]
  cases c.phases <;> simp

theorem outsidePhase?_eq_none_iff {named : List Phase} {cs : Clauses} :
    outsidePhase? (.explicit (ascending named)) cs = none ↔ ∀ c ∈ cs.all, c.KeepsTo named := by
  simp only [outsidePhase?, List.findSome?_eq_none_iff, Option.map_eq_none_iff,
    find?_outside_eq_none_iff]

theorem outsidePhase?_eq_some_iff {named : List Phase} {cs : Clauses} {node : String} {p : Phase} :
    outsidePhase? (.explicit (ascending named)) cs = some (node, p) ↔
      ∃ before c after own later, cs.all = before ++ c :: after ∧
        (∀ b ∈ before, b.KeepsTo named) ∧ c.node = node ∧ c.phases = some (own ++ p :: later) ∧
        (∀ q ∈ own, q ∈ named) ∧ p ∉ named := by
  simp only [outsidePhase?, List.findSome?_eq_some_iff, Option.map_eq_none_iff,
    Option.map_eq_some_iff, find?_outside_eq_none_iff, List.find?_eq_some_iff_append]
  constructor
  · rintro ⟨before, c, after, split, ⟨q, ⟨outside, own, later, phases, inside⟩, found⟩, clean⟩
    obtain ⟨rfl, rfl⟩ := Prod.mk.inj found
    refine ⟨before, c, after, own, later, split, clean, rfl, ?_, ?_, by simpa using outside⟩
    · cases written : c.phases with
      | none => simp [written] at phases
      | some all => simpa [written] using phases
    · simpa using inside
  · rintro ⟨before, c, after, own, later, split, clean, rfl, phases, inside, outside⟩
    exact ⟨before, c, after, split, ⟨p, ⟨by simpa using outside, own, later, by simp [phases],
      by simpa using inside⟩, rfl⟩, clean⟩

/-! ## The stages -/

namespace RuleDeclaration

variable {d : RuleDeclaration} {machine : Machine} {cs : Clauses}

/-- What a rule is about: the concrete phases that it names, or default phases without any. -/
def target (d : RuleDeclaration) : Target :=
  if d.concrete = [] then .default else .explicit (ascending d.concrete)

/-- No phase is named twice, and the placeholder is not named beside a concrete phase. -/
structure PhasesFit (d : RuleDeclaration) : Prop where
  once : d.phases.Nodup
  unmixed : .placeholder ∈ d.phases → d.concrete = []

/-- Both lists can be read, as the clauses `cs`. -/
structure Legible (d : RuleDeclaration) (cs : Clauses) : Prop extends d.PhasesFit where
  failOn : readFailOn d.failOn = .ok cs.failOn
  counts : readCounts d.counts = .ok cs.counts

/-- The lists are not both empty. -/
structure Filled (d : RuleDeclaration) (cs : Clauses) : Prop extends d.Legible cs where
  nonempty : ¬(cs.failOn = [] ∧ cs.counts = [])

/-- The clauses can hold together. -/
structure Compatible (d : RuleDeclaration) (cs : Clauses) : Prop extends d.Filled cs where
  consistent : ∃ tally, consistent cs.failOn cs.counts = .ok tally

/-- If the rule names concrete phases, the phases before its clauses are among them. -/
structure Inside (d : RuleDeclaration) (cs : Clauses) : Prop extends d.Compatible cs where
  inside : d.concrete ≠ [] → ∀ c ∈ cs.all, c.KeepsTo d.concrete

/-- A declaration with nothing wrong, whose lists are read as the clauses `cs`. -/
structure WellFormed (d : RuleDeclaration) (machine : Machine) (cs : Clauses) : Prop
    extends d.Inside cs where
  known : ∀ c ∈ d.applyIf, machine.flag c.flag ≠ none

/-- The error of the first stage that a declaration does not pass, with what it names. -/
inductive FirstFault (d : RuleDeclaration) (machine : Machine) : DeclarationError → Prop
  /-- The first phase that repeats an earlier one. -/
  | repeated {before after : List Phase} {p : Phase} (split : d.phases = before ++ p :: after)
      (once : before.Nodup) (again : p ∈ before) : FirstFault d machine (.duplicatePhase p)
  /-- The least concrete phase beside the placeholder. -/
  | mixed {p : Phase} (once : d.phases.Nodup) (mixed : .placeholder ∈ d.phases)
      (member : p ∈ d.concrete) (least : ∀ q ∈ d.concrete, q = p ∨ p < q) :
      FirstFault d machine (.mixedDefault p)
  | illegible {e : ListError} (fit : d.PhasesFit)
      (unread : readClauses d.failOn d.counts = .error e) : FirstFault d machine (.clauses e)
  | empty {cs : Clauses} (legible : d.Legible cs) (noFailOn : cs.failOn = [])
      (noCounts : cs.counts = []) : FirstFault d machine .emptyRule
  | inconsistent {cs : Clauses} {e : ConsistencyError} (filled : d.Filled cs)
      (conflict : DumpRules.consistent cs.failOn cs.counts = .error e) :
      FirstFault d machine (.inconsistent e)
  /-- The first phase outside the rule, of the first clause that has one. -/
  | outside {cs : Clauses} {before after : List Clause} {c : Clause} {own later : List Phase}
      {p : Phase} (compatible : d.Compatible cs) (named : d.concrete ≠ [])
      (split : cs.all = before ++ c :: after) (clean : ∀ b ∈ before, b.KeepsTo d.concrete)
      (phases : c.phases = some (own ++ p :: later)) (inside : ∀ q ∈ own, q ∈ d.concrete)
      (outside : p ∉ d.concrete) : FirstFault d machine (.phaseOutsideRule c.node p)
  /-- The first flag that is not known. -/
  | unknown {cs : Clauses} {before after : List FlagCondition} {c : FlagCondition}
      (inside : d.Inside cs) (split : d.applyIf = before ++ c :: after)
      (known : ∀ b ∈ before, machine.flag b.flag ≠ none) (unknown : machine.flag c.flag = none) :
      FirstFault d machine (.unknownFlag c.flag)

theorem ofDeclared_of_once (once : d.phases.Nodup) :
    Target.ofDeclared d.phases =
      match ascending d.concrete with
      | [] => .ok .default
      | least :: _ =>
        if .placeholder ∈ d.phases then .error (.mixedDefault least)
        else .ok (.explicit (ascending d.concrete)) := by
  have unrepeated : firstRepeated [] d.phases = none :=
    firstRepeated_eq_none_iff.2 ⟨once, fun p _ => List.not_mem_nil⟩
  simp only [Target.ofDeclared, unrepeated]
  rfl

theorem PhasesFit.ofDeclared (fit : d.PhasesFit) : Target.ofDeclared d.phases = .ok d.target := by
  rw [ofDeclared_of_once fit.once, target]
  cases shape : ascending d.concrete with
  | nil => simp [ascending_eq_nil_iff.1 shape]
  | cons least others =>
      have named : d.concrete ≠ [] := fun empty => by simp [ascending_eq_nil_iff.2 empty] at shape
      have apart : .placeholder ∉ d.phases := fun mixed => named (fit.unmixed mixed)
      simp only [if_neg apart, if_neg named]

theorem Legible.read (legible : d.Legible cs) : readClauses d.failOn d.counts = .ok cs :=
  readClauses_eq_ok_iff.2 ⟨legible.failOn, legible.counts⟩

theorem Filled.isEmpty (filled : d.Filled cs) : cs.isEmpty = false := by
  have nonempty := filled.nonempty
  simp only [Clauses.isEmpty, Bool.and_eq_false_iff, List.isEmpty_eq_false_iff]
  tauto

theorem Inside.outsidePhase? (inside : d.Inside cs) : outsidePhase? d.target cs = none := by
  by_cases named : d.concrete = []
  · rw [target, if_pos named]
    rfl
  · rw [target, if_neg named, outsidePhase?_eq_none_iff]
    exact inside.inside named

/-- Once the clauses can hold together, two searches are left. -/
theorem Compatible.ofDeclaration_eq (compatible : d.Compatible cs) (machine : Machine)
    (index : Nat) :
    IrRule.ofDeclaration index d machine =
      match outsidePhase? d.target cs with
      | some (node, p) => .error (.phaseOutsideRule node p)
      | none =>
        match d.applyIf.find? fun c => (machine.flag c.flag).isNone with
        | some c => .error (.unknownFlag c.flag)
        | none => .ok
          { index, name := d.name, target := d.target, clauses := cs, applyIf := d.applyIf } := by
  obtain ⟨tally, consistent⟩ := compatible.consistent
  simp only [IrRule.ofDeclaration, compatible.ofDeclared, compatible.read, compatible.isEmpty,
    consistent, Except.mapError, bind, Except.bind, Bool.false_eq_true, if_false]
  cases outsidePhase? d.target cs with
  | some found => rfl
  | none => cases d.applyIf.find? fun c => (machine.flag c.flag).isNone <;> rfl

/-- A well-formed declaration is accepted as a rule with its own phases, clauses and conditions. -/
theorem WellFormed.accepted (well : d.WellFormed machine cs) (index : Nat) :
    IrRule.ofDeclaration index d machine =
      .ok { index, name := d.name, target := d.target, clauses := cs, applyIf := d.applyIf } := by
  have known : (d.applyIf.find? fun c => (machine.flag c.flag).isNone) = none := by
    rw [List.find?_eq_none]
    intro c member
    simpa using well.known c member
  rw [well.ofDeclaration_eq, well.outsidePhase?, known]

/-- A declaration with a fault is rejected for the first one. -/
theorem FirstFault.rejected {e : DeclarationError} (fault : d.FirstFault machine e) (index : Nat) :
    IrRule.ofDeclaration index d machine = .error e := by
  cases fault with
  | repeated split once again =>
      have found := firstRepeated_eq_some_iff.2 ⟨_, _, split,
        firstRepeated_eq_none_iff.2 ⟨once, fun p _ => List.not_mem_nil⟩, .inl again⟩
      simp only [IrRule.ofDeclaration, Target.ofDeclared, found]
      rfl
  | mixed once mixed member least =>
      obtain ⟨others, shape⟩ := List.head?_eq_some_iff.1 (head?_ascending_iff.2 ⟨member, least⟩)
      simp only [IrRule.ofDeclaration, ofDeclared_of_once once, shape, if_pos mixed]
      rfl
  | illegible fit unread =>
      simp only [IrRule.ofDeclaration, fit.ofDeclared, unread]
      rfl
  | @empty cs legible noFailOn noCounts =>
      have empty : cs.isEmpty = true := by simp [Clauses.isEmpty, noFailOn, noCounts]
      simp only [IrRule.ofDeclaration, legible.ofDeclared, legible.read, Except.mapError, bind,
        Except.bind, empty, if_true]
      rfl
  | inconsistent filled conflict =>
      simp only [IrRule.ofDeclaration, filled.ofDeclared, filled.read, Except.mapError, bind,
        Except.bind, filled.isEmpty, Bool.false_eq_true, if_false, conflict]
  | outside compatible named split clean phases inside outside =>
      have found := outsidePhase?_eq_some_iff.2
        ⟨_, _, _, _, _, split, clean, rfl, phases, inside, outside⟩
      have target : d.target = .explicit (ascending d.concrete) := if_neg named
      rw [compatible.ofDeclaration_eq, target, found]
  | @unknown cs before after c inside split known unknown =>
      have found : (d.applyIf.find? fun c => (machine.flag c.flag).isNone) = some c := by
        refine List.find?_eq_some_iff_append.2 ⟨by simp [unknown], before, after, split, ?_⟩
        intro b member
        simpa [Option.isSome_iff_ne_none] using known b member
      rw [inside.ofDeclaration_eq, inside.outsidePhase?, found]

/-- Stage by stage, a declaration passes or has its first fault. -/
theorem wellFormed_or_firstFault (d : RuleDeclaration) (machine : Machine) :
    (∃ cs, d.WellFormed machine cs) ∨ ∃ e, d.FirstFault machine e := by
  cases repeated : firstRepeated [] d.phases with
  | some p =>
      obtain ⟨before, after, split, clean, again⟩ := firstRepeated_eq_some_iff.1 repeated
      exact .inr ⟨_, .repeated split (firstRepeated_eq_none_iff.1 clean).1
        (again.resolve_right List.not_mem_nil)⟩
  | none =>
  have once := (firstRepeated_eq_none_iff.1 repeated).1
  by_cases unmixed : .placeholder ∈ d.phases → d.concrete = []
  case neg =>
    obtain ⟨mixed, named⟩ := Classical.not_imp.1 unmixed
    obtain ⟨p, others, shape⟩ := List.exists_cons_of_ne_nil (mt ascending_eq_nil_iff.1 named)
    obtain ⟨member, least⟩ := head?_ascending_iff.1 (by rw [shape]; rfl)
    exact .inr ⟨_, .mixed once mixed member least⟩
  have fit : d.PhasesFit := ⟨once, unmixed⟩
  cases read : readClauses d.failOn d.counts with
  | error e => exact .inr ⟨_, .illegible fit read⟩
  | ok cs =>
  obtain ⟨failOn, counts⟩ := readClauses_eq_ok_iff.1 read
  have legible : d.Legible cs := { fit with failOn, counts }
  by_cases empty : cs.failOn = [] ∧ cs.counts = []
  case pos => exact .inr ⟨_, .empty legible empty.1 empty.2⟩
  have filled : d.Filled cs := { legible with nonempty := empty }
  cases merged : consistent cs.failOn cs.counts with
  | error e => exact .inr ⟨_, .inconsistent filled merged⟩
  | ok tally =>
  have compatible : d.Compatible cs := { filled with consistent := ⟨tally, merged⟩ }
  by_cases within : d.concrete ≠ [] → ∀ c ∈ cs.all, c.KeepsTo d.concrete
  case neg =>
    obtain ⟨named, outside⟩ := Classical.not_imp.1 within
    rw [← outsidePhase?_eq_none_iff] at outside
    obtain ⟨⟨node, p⟩, found⟩ := Option.ne_none_iff_exists'.1 outside
    obtain ⟨before, c, after, own, later, split, clean, rfl, phases, kept, outside⟩ :=
      outsidePhase?_eq_some_iff.1 found
    exact .inr ⟨_, .outside compatible named split clean phases kept outside⟩
  have inside : d.Inside cs := { compatible with inside := within }
  cases unknown : d.applyIf.find? fun c => (machine.flag c.flag).isNone with
  | some c =>
      obtain ⟨missing, before, after, split, known⟩ := List.find?_eq_some_iff_append.1 unknown
      refine .inr ⟨_, .unknown inside split (fun b member => ?_) (by simpa using missing)⟩
      simpa [Option.isSome_iff_ne_none] using known b member
  | none =>
      refine .inl ⟨cs, { inside with known := fun c member => ?_ }⟩
      simpa using List.find?_eq_none.1 unknown c member

/-- What is said of a declaration that is judged under the number `index`. -/
structure Judged (d : RuleDeclaration) (machine : Machine) (index : Nat) : Prop where
  accepted : (∃ rule, IrRule.ofDeclaration index d machine = .ok rule) ↔
    ∃ cs, d.WellFormed machine cs
  rule : ∀ rule, IrRule.ofDeclaration index d machine = .ok rule →
    rule.index = index ∧ rule.name = d.name ∧ rule.applyIf = d.applyIf ∧
      d.WellFormed machine rule.clauses
  default : ∀ rule, IrRule.ofDeclaration index d machine = .ok rule →
    (rule.target = .default ↔ d.phases = [] ∨ d.phases = [.placeholder])
  explicit : ∀ rule named, IrRule.ofDeclaration index d machine = .ok rule →
    rule.target = .explicit named →
    named ≠ [] ∧ .placeholder ∉ named ∧ named.Nodup ∧ ∀ p, p ∈ named ↔ p ∈ d.phases
  rejected : ∀ e, IrRule.ofDeclaration index d machine = .error e ↔ d.FirstFault machine e

theorem PhasesFit.concrete_eq_nil_iff (fit : d.PhasesFit) :
    d.concrete = [] ↔ d.phases = [] ∨ d.phases = [.placeholder] := by
  constructor
  · intro unnamed
    have only : ∀ p ∈ d.phases, p = .placeholder := by simpa [concrete] using unnamed
    have once := fit.once
    cases shape : d.phases with
    | nil => exact .inl rfl
    | cons p later =>
        rw [shape, List.forall_mem_cons] at only
        rw [shape, only.1, List.nodup_cons] at once
        have alone : later = [] :=
          List.eq_nil_iff_forall_not_mem.2 fun q member => once.1 (only.2 q member ▸ member)
        exact .inr (by rw [only.1, alone])
  · rintro (empty | alone)
    · simp [concrete, empty]
    · simp [concrete, alone]

/-- A rule that names some concrete phase names nothing else. -/
theorem PhasesFit.concrete_eq (fit : d.PhasesFit) (named : d.concrete ≠ []) :
    d.concrete = d.phases := by
  have apart : .placeholder ∉ d.phases := fun mixed => named (fit.unmixed mixed)
  refine List.filter_eq_self.2 fun p member => ?_
  simpa using fun same : p = .placeholder => apart (same ▸ member)

end RuleDeclaration

/-- **Exactly the well-formed declarations are accepted.** The rule is about the phases that the
declaration names, and any other declaration is rejected for the first thing that is wrong. -/
theorem declaration_judged (d : RuleDeclaration) (machine : Machine) (index : Nat) :
    d.Judged machine index := by
  -- Judging is a function, so what it returns tells which of the two cases it was.
  have well_of_ok : ∀ rule, IrRule.ofDeclaration index d machine = .ok rule →
      ∃ cs, d.WellFormed machine cs ∧ rule =
        { index, name := d.name, target := d.target, clauses := cs, applyIf := d.applyIf } := by
    intro rule ok
    rcases d.wellFormed_or_firstFault machine with ⟨cs, well⟩ | ⟨e, fault⟩
    · exact ⟨cs, well, Except.ok.inj (ok.symm.trans (well.accepted index))⟩
    · cases ok.symm.trans (fault.rejected index)
  constructor
  case accepted =>
    constructor
    · rintro ⟨rule, ok⟩
      obtain ⟨cs, well, -⟩ := well_of_ok rule ok
      exact ⟨cs, well⟩
    · rintro ⟨cs, well⟩
      exact ⟨_, well.accepted index⟩
  case rule =>
    intro rule ok
    obtain ⟨cs, well, rfl⟩ := well_of_ok rule ok
    exact ⟨rfl, rfl, rfl, well⟩
  case default =>
    intro rule ok
    obtain ⟨cs, well, rfl⟩ := well_of_ok rule ok
    rw [← well.concrete_eq_nil_iff, RuleDeclaration.target]
    split <;> simp_all
  case explicit =>
    intro rule named ok explicit
    obtain ⟨cs, well, rfl⟩ := well_of_ok rule ok
    by_cases unnamed : d.concrete = []
    · simp [RuleDeclaration.target, unnamed] at explicit
    · simp only [RuleDeclaration.target, if_neg unnamed, Target.explicit.injEq] at explicit
      subst explicit
      refine ⟨mt ascending_eq_nil_iff.1 unnamed, ?_,
        Phase.nodup_of_pairwise (pairwise_ascending _), fun p => ?_⟩
      · simp [RuleDeclaration.concrete]
      · rw [mem_ascending, well.concrete_eq unnamed]
  case rejected =>
    intro e
    constructor
    · intro error
      rcases d.wellFormed_or_firstFault machine with ⟨cs, well⟩ | ⟨e', fault⟩
      · cases (well.accepted index).symm.trans error
      · exact Except.error.inj ((fault.rejected index).symm.trans error) ▸ fault
    · exact fun fault => fault.rejected index

/-- Two things are wrong here, and the second phase before the clause is found first. -/
example :
    (IrRule.ofDeclaration 1
      { phases := [.ccp1, .matching], counts := "CCP1|ITER_GVN1: LOAD 1",
        applyIf := [⟨"Mach", "true"⟩] }
      { flag := fun _ => none, defaultPhase := fun _ => none }).map (·.target) =
      .error (.phaseOutsideRule "LOAD" .iterGvn1) := by
  decide +kernel

end DumpRules
