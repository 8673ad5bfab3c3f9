import DumpRules.Proofs.Coverage
import DumpRules.Proofs.RoundTrip

/-!
# A rule with all its phases written out

A constraint is printed as a clause with its one phase before it. So the constraints of a plan,
phase by phase, are again the lists of a rule, and one that no longer leaves anything to the rule's
phases or to default phases: every entry names where it goes. `WrittenOut` says that this rule can be
read and that its plan is the plan it was printed from, up to the numbers of the clauses.

Two facts carry this. Reading gives back what was printed (`readBack_of_writable`), so that each
constraint becomes a clause with a single try, in its own phase (`flatMap_tries`). And sorting by
phase undoes the joining of the buckets (`filter_flatMap_own`), since their phases are distinct. The
placeholder is the only obstacle: it cannot be written before a clause. No registry has a pattern
there, but a catalog might.
-/

namespace DumpRules

set_option autoImplicit false

open Grammar

/-! ## Plans as lists of clauses -/

/-- The constraints of a plan that come from one of the lists, phase by phase. -/
def Plan.of (plan : Plan) (kind : ListKind) : List Constraint :=
  plan.flatMap fun e => e.2.of kind

/-- The constraints of a plan that come from one of the lists, as such a list. -/
def Plan.written (plan : Plan) (kind : ListKind) : String :=
  ", ".intercalate ((plan.of kind).map Constraint.text)

/-- A constraint with another number. -/
def Constraint.numbered (n : Nat) (x : Constraint) : Constraint :=
  { x with index := n }

/-- The constraints of a bucket without regard to their numbers. -/
def Bucket.unnumbered (b : Bucket) : Bucket :=
  { failOn := b.failOn.map (.numbered 0), counts := b.counts.map (.numbered 0) }

def Plan.unnumbered (plan : Plan) : Plan :=
  plan.map fun e => (e.1, e.2.unnumbered)

/-- A plan has the phases and constraints of another, in the same order, each with its place among
all constraints of its list as its number. -/
structure Renumbered (made again : Plan) : Prop where
  same : again.unnumbered = made.unnumbered
  numbers : ∀ p b, (p, b) ∈ again → ∀ kind, ∀ x ∈ b.of kind,
    ∃ (i : Nat) (y : Constraint), (made.of kind)[i]? = some y ∧ x = y.numbered (i + 1)

/-- The constraints of a plan, written out, are a rule that has this plan on every machine. -/
def WrittenOut (catalog : Catalog) (made : Plan) : Prop :=
  ∃ cs, readClauses (made.written .failOn) (made.written .counts) = .ok cs ∧
    ∀ machine, ∃ again, plan .default machine catalog cs = .ok again ∧ Renumbered made again

/-- The clause that a constraint is printed as. -/
def Constraint.clause (kind : ListKind) (x : Constraint) : Clause where
  node := x.node
  demand :=
    match kind with
    | .failOn => .failOn
    | .counts => .counts x.relations
  phases := some [x.phase]
  span := ⟨0, 0⟩

theorem text_clause {kind : ListKind} {x : Constraint}
    (bare : kind = .failOn → x.relations = []) : (x.clause kind).text = x.text := by
  have relations : (x.clause kind).relations = x.relations := by
    cases kind with
    | failOn => exact (bare rfl).symm
    | counts => rfl
  unfold Clause.text Constraint.text
  rw [relations]
  simp [Constraint.clause]

/-! ## Where constraints come from -/

section Sources

variable {t : Target} {machine : Machine} {catalog : Catalog} {cs : Clauses}

theorem mem_of_numbered {kind : ListKind} {index : Nat} {c : Clause}
    (member : (kind, index, c) ∈ cs.numbered) : c ∈ cs.of kind := by
  simp only [Clauses.numbered, List.mem_append, List.mem_mapIdx, Prod.mk.injEq] at member
  rcases member with ⟨i, bound, rfl, -, rfl⟩ | ⟨i, bound, rfl, -, rfl⟩
  · exact List.getElem_mem bound
  · exact List.getElem_mem bound

/-- A placement is a clause of its list at one of its targets. -/
theorem source_of_placed {q : Placement}
    (member : q ∈ placed (cs.numbered.flatMap (tries t machine catalog))) :
    ∃ c ∈ cs.of q.kind, ∃ targets, t.of machine catalog c = .ok targets ∧
      q.constraint.phase ∈ targets ∧
      ∃ index, Constraint.resolve catalog index c q.constraint.phase = .ok q.constraint := by
  have split : placed (cs.numbered.flatMap (tries t machine catalog)) =
      cs.numbered.flatMap fun e => placed (tries t machine catalog e) :=
    List.filterMap_flatMap
  rw [split, List.mem_flatMap] at member
  obtain ⟨⟨kind, index, c⟩, numbered, member⟩ := member
  cases tried : t.of machine catalog c with
  | error e => simp [tries, tried, placed] at member
  | ok targets =>
      rw [placed_tries tried, List.mem_filterMap] at member
      obtain ⟨p, among, made⟩ := member
      obtain ⟨x, resolved, rfl⟩ := Option.map_eq_some_iff.1 made
      have ok : Constraint.resolve catalog index c p = .ok x := by
        cases result : Constraint.resolve catalog index c p with
        | error e => simp [result, Except.toOption] at resolved
        | ok y =>
            rw [result] at resolved
            cases resolved
            rfl
      have phase : x.phase = p := by
        obtain ⟨pattern, -, rfl⟩ := resolve_eq_ok_iff.1 ok
        rfl
      subst phase
      exact ⟨c, mem_of_numbered numbered, targets, tried, among, index, ok⟩

/-- What is known of a constraint that was made for a clause of a list. -/
structure Constraint.Made (catalog : Catalog) (kind : ListKind) (x : Constraint) : Prop where
  pattern : catalog.pattern x.node x.phase = .ok x.pattern
  bare : kind = .failOn → x.relations = []
  related : kind = .counts → x.relations ≠ []
  ident : IsIdent x.node

theorem made_of_resolve {kind : ListKind} {c : Clause} (writable : c.Writable kind) {index : Nat}
    {p : Phase} {x : Constraint} (resolved : Constraint.resolve catalog index c p = .ok x) :
    x.Made catalog kind := by
  obtain ⟨pattern, found, rfl⟩ := resolve_eq_ok_iff.1 resolved
  refine ⟨found, fun failOn => ?_, writable.related, writable.ident⟩
  have kinds := writable.kind
  subst failOn
  show c.relations = []
  unfold Clause.kind at kinds
  unfold Clause.relations
  split at kinds
  · rfl
  · cases kinds

theorem Constraint.Made.writable {kind : ListKind} {x : Constraint} (made : x.Made catalog kind)
    (concrete : x.phase ≠ .placeholder) : (x.clause kind).Writable kind := by
  refine ⟨⟨?_, ?_, ?_⟩, made.ident⟩
  · cases kind <;> rfl
  · rintro rfl
    exact made.related rfl
  · rintro ps ⟨⟩
    simp [concrete.symm]

end Sources

/-! ## Joining the buckets and sorting again -/

/-- Lists for distinct phases, joined, fall apart into the lists that they were. -/
theorem filter_flatMap_own {phases : List Phase} (once : phases.Nodup)
    {own : Phase → List Constraint} (placed : ∀ p, ∀ x ∈ own p, x.phase = p) (p : Phase) :
    (phases.flatMap own).filter (·.phase = p) = if p ∈ phases then own p else [] := by
  have here : ∀ q, (own q).filter (·.phase = p) = if q = p then own p else [] := by
    intro q
    by_cases same : q = p
    · subst same
      rw [if_pos rfl]
      apply List.filter_eq_self.2
      intro x member
      simp [placed q x member]
    · rw [if_neg same]
      apply List.filter_eq_nil_iff.2
      intro x member
      simp [placed q x member, same]
  induction phases with
  | nil => rfl
  | cons q phases ih =>
      obtain ⟨new, once⟩ := List.nodup_cons.1 once
      rw [List.flatMap_cons, List.filter_append, here, ih once]
      by_cases same : q = p
      · subst same
        simp [new]
      · simp [same, Ne.symm same]

theorem phase_of_mem_bucketOf {ps : List Placement} {p : Phase} {kind : ListKind} {x : Constraint}
    (member : x ∈ (bucketOf ps p).of kind) : x.phase = p ∧ ⟨kind, x⟩ ∈ ps := by
  rw [of_bucketOf, List.mem_filterMap] at member
  obtain ⟨q, among, taken⟩ := member
  unfold Placement.at? at taken
  split at taken
  · rename_i here
    cases taken
    obtain ⟨rfl, phase⟩ := here
    exact ⟨phase, among⟩
  · cases taken

theorem of_gather (ps : List Placement) (kind : ListKind) :
    (gather ps).of kind = ((gather ps).map Prod.fst).flatMap fun p => (bucketOf ps p).of kind := by
  rw [Plan.of, List.flatMap_map]
  apply List.flatMap_congr
  intro e member
  rw [bucket_of_mem_gather member]

/-- The part of a gathered list that is for one phase is the bucket of that phase. -/
theorem filter_of_gather (ps : List Placement) (kind : ListKind) (p : Phase) :
    ((gather ps).of kind).filter (·.phase = p) = (bucketOf ps p).of kind := by
  have once : ((gather ps).map Prod.fst).Nodup := by
    rw [keys_gather]
    exact Phase.nodup_of_pairwise (Phase.pairwise_all.filter _)
  rw [of_gather, filter_flatMap_own once fun q x member => (phase_of_mem_bucketOf member).1]
  split
  · rfl
  · rename_i absent
    by_contra some
    apply absent
    rw [keys_gather, List.mem_filter, any_phase_iff]
    refine ⟨Phase.mem_all p, kind, ?_⟩
    rw [← of_bucketOf]
    exact Ne.symm some

theorem unnumbered_of (b : Bucket) (kind : ListKind) :
    b.unnumbered.of kind = (b.of kind).map (.numbered 0) := by
  cases kind <;> rfl

theorem Bucket.ext_of {b b' : Bucket} (same : ∀ kind, b.of kind = b'.of kind) : b = b' := by
  obtain ⟨failOn, counts⟩ := b
  obtain ⟨failOn', counts'⟩ := b'
  obtain rfl : failOn = failOn' := same .failOn
  obtain rfl : counts = counts' := same .counts
  rfl

/-- Placements whose buckets agree up to numbers are gathered to plans that do. -/
theorem unnumbered_gather {ps qs : List Placement}
    (same : ∀ p, (bucketOf ps p).unnumbered = (bucketOf qs p).unnumbered) :
    (gather ps).unnumbered = (gather qs).unnumbered := by
  have filled : ∀ p, (ps.any fun q => q.constraint.phase = p) =
      qs.any fun q => q.constraint.phase = p := by
    intro p
    rw [Bool.eq_iff_iff, any_phase_iff, any_phase_iff]
    apply exists_congr
    intro kind
    rw [← of_bucketOf, ← of_bucketOf, not_iff_not,
      ← List.map_eq_nil_iff (f := Constraint.numbered 0), ← unnumbered_of, same, unnumbered_of,
      List.map_eq_nil_iff]
  simp only [gather, Plan.unnumbered, filled, List.map_map]
  apply List.map_congr_left
  intro p _
  exact congrArg (Prod.mk p) (same p)

/-! ## Reading what was written out -/

/-- Constraints numbered by their places. -/
def renumbered (xs : List Constraint) : List Constraint :=
  xs.zipIdx.map fun e => e.1.numbered (e.2 + 1)

theorem map_renumbered (xs : List Constraint) :
    (renumbered xs).map (Constraint.numbered 0) = xs.map (Constraint.numbered 0) := by
  have first : (Constraint.numbered 0 ∘ fun e : Constraint × Nat => e.1.numbered (e.2 + 1)) =
      Constraint.numbered 0 ∘ Prod.fst := rfl
  rw [renumbered, List.map_map, first, ← List.map_map, List.zipIdx_map_fst]

theorem mem_renumbered {xs : List Constraint} {x : Constraint} (member : x ∈ renumbered xs) :
    ∃ (i : Nat) (y : Constraint), xs[i]? = some y ∧ x = y.numbered (i + 1) := by
  obtain ⟨⟨y, i⟩, among, rfl⟩ := List.mem_map.1 member
  exact ⟨i, y, List.mem_zipIdx_iff_getElem?.1 among, rfl⟩

/-- The placements of the constraints of a plan, numbered by their places. -/
def Plan.placements (plan : Plan) : List Placement :=
  (renumbered (plan.of .failOn)).map (Placement.mk .failOn) ++
    (renumbered (plan.of .counts)).map (Placement.mk .counts)

theorem of_bucketOf_placements (plan : Plan) (p : Phase) (kind : ListKind) :
    (bucketOf plan.placements p).of kind = (renumbered (plan.of kind)).filter (·.phase = p) := by
  have part : ∀ (list : ListKind) (xs : List Constraint),
      (xs.map (Placement.mk list)).filterMap (Placement.at? kind p) =
        if list = kind then xs.filter (·.phase = p) else [] := by
    intro list xs
    rw [List.filterMap_map, ← List.filterMap_eq_filter]
    by_cases own : list = kind
    · rw [if_pos own]
      apply List.filterMap_congr
      intro x _
      simp [Placement.at?, own, Option.guard]
    · rw [if_neg own, List.filterMap_eq_nil_iff]
      intro x _
      simp [Placement.at?, own]
  rw [of_bucketOf, Plan.placements, List.filterMap_append, part, part]
  cases kind <;> simp

section Reading

variable {catalog : Catalog} {kind : ListKind}

/-- A constraint that was read back has a single try, which places it where it was. -/
theorem tries_clause (machine : Machine) {x : Constraint} (made : x.Made catalog kind) {c : Clause}
    (content : c.content = (x.clause kind).content) (index : Nat) :
    tries .default machine catalog (kind, index, c) = [.ok ⟨kind, x.numbered index⟩] := by
  obtain ⟨phases, node, demand⟩ := Content.mk.inj content
  have relations : c.relations = x.relations := by
    unfold Clause.relations
    rw [demand]
    cases kind with
    | failOn => exact (made.bare rfl).symm
    | counts => rfl
  have targets : Target.of .default machine catalog c = .ok [x.phase] := by
    simp only [Target.of, Clause.defaultTargets, phases, Constraint.clause]
  have resolved : Constraint.resolve catalog index c x.phase = .ok (x.numbered index) := by
    refine resolve_eq_ok_iff.2 ⟨x.pattern, ?_, ?_⟩
    · rw [node]
      exact made.pattern
    · rw [node, relations]
      rfl
  simp only [tries, targets, List.map_cons, List.map_nil, resolved, Except.map]

theorem flatMap_tries (machine : Machine) {xs : List Constraint} {cs : List Clause}
    (made : ∀ x ∈ xs, x.Made catalog kind)
    (back : List.Forall₂ (fun x c => c.content = (x.clause kind).content) xs cs) (n : Nat) :
    ((cs.zipIdx n).flatMap fun e => tries .default machine catalog (kind, e.2 + 1, e.1)) =
      (xs.zipIdx n).map fun e => .ok ⟨kind, e.1.numbered (e.2 + 1)⟩ := by
  induction back generalizing n with
  | nil => rfl
  | @cons x c xs cs content back ih =>
      obtain ⟨madeX, made⟩ := List.forall_mem_cons.1 made
      rw [List.zipIdx_cons, List.zipIdx_cons, List.flatMap_cons, List.map_cons, ih made,
        tries_clause machine madeX content, List.singleton_append]

end Reading

/-- The plan of clauses that each have a single try which succeeds. -/
theorem plan_of_tries {t : Target} {machine : Machine} {catalog : Catalog} {cs : Clauses}
    {qs : List Placement} (tried : cs.numbered.flatMap (tries t machine catalog) = qs.map .ok) :
    plan t machine catalog cs = .ok (gather qs) := by
  have clean : failed (qs.map .ok) = [] := by
    simp [failed]
  have all : placed (qs.map .ok) = qs := by
    simp [placed]
  simp only [plan, tried, clean, all]

theorem readBack_written {catalog : Catalog} {made : Plan} {kind : ListKind}
    (constraints : ∀ x ∈ made.of kind, x.Made catalog kind)
    (concrete : ∀ x ∈ made.of kind, x.phase ≠ .placeholder) :
    ∃ back, kind.read (made.written kind) = .ok back ∧
      List.Forall₂ (fun x c => c.content = (x.clause kind).content) (made.of kind) back := by
  have text : made.written kind = printed ((made.of kind).map (Constraint.clause kind)) := by
    rw [Plan.written, printed, List.map_map]
    congr 1
    apply List.map_congr_left
    intro x member
    exact (text_clause (constraints x member).bare).symm
  have writable : ∀ c ∈ (made.of kind).map (Constraint.clause kind), c.Writable kind := by
    intro c member
    obtain ⟨x, among, rfl⟩ := List.mem_map.1 member
    exact (constraints x among).writable (concrete x among)
  obtain ⟨back, read, same⟩ := readBack_of_writable writable
  refine ⟨back, text ▸ read, ?_⟩
  rw [List.forall₂_map_left_iff] at same
  exact same.imp fun x c both => both.1

/-! ## The fixed point -/

theorem writtenOut_of_concrete {catalog : Catalog} {ps : List Placement}
    (constraints : ∀ kind, ∀ x ∈ (gather ps).of kind, x.Made catalog kind)
    (concrete : .placeholder ∉ (gather ps).map Prod.fst) : WrittenOut catalog (gather ps) := by
  have phases : ∀ kind, ∀ x ∈ (gather ps).of kind, x.phase ≠ .placeholder := by
    intro kind x member placeholder
    rw [of_gather, List.mem_flatMap] at member
    obtain ⟨p, among, inside⟩ := member
    obtain rfl : p = .placeholder := (phase_of_mem_bucketOf inside).1.symm.trans placeholder
    exact concrete among
  obtain ⟨failOn, readFailOn, backFailOn⟩ :=
    readBack_written (constraints .failOn) (phases .failOn)
  obtain ⟨counts, readCounts, backCounts⟩ :=
    readBack_written (constraints .counts) (phases .counts)
  refine ⟨⟨failOn, counts⟩, readClauses_eq_ok_iff.2 ⟨readFailOn, readCounts⟩, fun machine => ?_⟩
  refine ⟨gather (gather ps).placements, plan_of_tries ?_, ?_, ?_⟩
  · have numbered := flatMap_numbered ⟨failOn, counts⟩ fun kind index c =>
      tries .default machine catalog (kind, index, c)
    refine numbered.trans ?_
    rw [flatMap_tries machine (constraints .failOn) backFailOn,
      flatMap_tries machine (constraints .counts) backCounts, Plan.placements, List.map_append]
    simp only [renumbered, List.map_map]
    rfl
  · apply unnumbered_gather
    intro p
    apply Bucket.ext_of
    intro kind
    rw [unnumbered_of, unnumbered_of, of_bucketOf_placements, ← filter_of_gather]
    have kept : (fun x : Constraint => decide (x.phase = p)) =
        (fun x => decide (x.phase = p)) ∘ Constraint.numbered 0 := rfl
    rw [kept, ← List.filter_map, ← List.filter_map, map_renumbered]
  · intro p b member kind x among
    rw [bucket_of_mem_gather member, of_bucketOf_placements] at among
    exact mem_renumbered (List.mem_of_mem_filter among)

/-- A rule that has a plan on every machine leaves nothing to default phases, and no clause can name
the placeholder. -/
theorem concrete_of_writtenOut {catalog : Catalog} {made : Plan} (out : WrittenOut catalog made) :
    .placeholder ∉ made.map Prod.fst := by
  obtain ⟨cs, read, each⟩ := out
  obtain ⟨again, planned, renumbered⟩ := each ⟨fun _ => none, fun _ => none⟩
  have keys : made.map Prod.fst = again.map Prod.fst := by
    have same := congrArg (List.map Prod.fst) renumbered.same
    simpa [Plan.unnumbered, Function.comp_def] using same.symm
  obtain ⟨rfl, -⟩ := tried_of_plan planned
  rw [keys, keys_gather, List.mem_filter, List.any_eq_true]
  rintro ⟨-, q, member, here⟩
  obtain ⟨c, among, targets, tried, inside, -⟩ := source_of_placed member
  have well := wellRead_of_readClauses read q.kind c among
  rw [of_decide_eq_true here] at inside
  simp only [Target.of, Clause.defaultTargets] at tried
  split at tried
  · rename_i written
    cases tried
    exact (well.own targets written).2.2 inside
  · split at tried <;> cases tried

/-- **Writing out the phases of a rule does not change it.** Take any lists that can be read, with
any target, machine and registry for which there is a plan. Its constraints, printed with their
phases before them and read again, have the same plan on every machine, only renumbered. With a
catalog that is no registry this is so just when the plan has no bucket for the placeholder. -/
theorem plan_writtenOut {failOn counts : String} {cs : Clauses}
    (read : readClauses failOn counts = .ok cs) (t : Target) (machine : Machine) :
    (∀ (registry : Registry) (made : Plan), plan t machine registry.catalog cs = .ok made →
      WrittenOut registry.catalog made) ∧
    ∀ (catalog : Catalog) (made : Plan), plan t machine catalog cs = .ok made →
      (WrittenOut catalog made ↔ .placeholder ∉ made.map Prod.fst) := by
  have writable : ∀ kind, ∀ c ∈ cs.of kind, c.Writable kind := by
    obtain ⟨forbidden, bounded⟩ := readClauses_eq_ok_iff.1 read
    intro kind
    cases kind with
    | failOn => exact writable_of_read forbidden
    | counts => exact writable_of_read bounded
  have general : ∀ (catalog : Catalog) (made : Plan), plan t machine catalog cs = .ok made →
      (WrittenOut catalog made ↔ .placeholder ∉ made.map Prod.fst) := by
    intro catalog made planned
    refine ⟨concrete_of_writtenOut, fun concrete => ?_⟩
    obtain ⟨rfl, -⟩ := tried_of_plan planned
    refine writtenOut_of_concrete ?_ concrete
    intro kind x member
    rw [of_gather, List.mem_flatMap] at member
    obtain ⟨p, -, inside⟩ := member
    obtain ⟨c, among, -, -, -, index, resolved⟩ :=
      source_of_placed (phase_of_mem_bucketOf inside).2
    exact made_of_resolve (writable kind c among) resolved
  refine ⟨fun registry made planned => ?_, general⟩
  apply (general registry.catalog made planned).2
  obtain ⟨rfl, -⟩ := tried_of_plan planned
  rw [keys_gather, List.mem_filter, List.any_eq_true]
  rintro ⟨-, q, member, here⟩
  obtain ⟨c, -, -, -, -, index, resolved⟩ := source_of_placed member
  obtain ⟨pattern, found, -⟩ := resolve_eq_ok_iff.1 resolved
  rw [of_decide_eq_true here] at found
  exact pattern_placeholder_ne_ok registry c.node pattern found

theorem plan_writtenOut_twoNodes :
    ∃ cs made, readClauses "CCP1: STORE" "MATCHING|CCP1: LOAD >2, LOAD < 9" = .ok cs ∧
      plan .default finalMachine twoNodes.catalog cs = .ok made ∧
      made.written .failOn = "CCP1:STORE" ∧
      made.written .counts = "CCP1:LOAD >2, MATCHING:LOAD >2, FINAL_CODE:LOAD <9" ∧
      WrittenOut twoNodes.catalog made := by
  have run : ((readClauses "CCP1: STORE" "MATCHING|CCP1: LOAD >2, LOAD < 9").mapError (fun _ => ())
      >>= fun cs => ((plan .default finalMachine twoNodes.catalog cs).mapError fun _ => ()).map
        fun made => (made.written .failOn, made.written .counts)) =
      .ok ("CCP1:STORE", "CCP1:LOAD >2, MATCHING:LOAD >2, FINAL_CODE:LOAD <9") := by
    decide +kernel
  obtain ⟨cs, read, run⟩ := bind_eq_ok.1 run
  obtain ⟨made, planned, texts⟩ := map_eq_ok.1 run
  obtain ⟨failOn, counts⟩ := Prod.mk.inj texts
  have read := mapError_eq_ok.1 read
  have planned := mapError_eq_ok.1 planned
  have out := (plan_writtenOut read .default finalMachine).1 twoNodes made planned
  exact ⟨cs, made, read, planned, failOn, counts, out⟩

end DumpRules
