import DumpRules.Consistency
import DumpRules.Proofs.CountSets

/-!
# Which clauses can hold together

The check of a rule's clauses keeps one count set for each node. As clauses are added, the set of
a node permits a count iff each relation on the node so far permits it (`Tally.Tracks`), and the
check goes on only while no set is empty and the sets of forbidden nodes permit zero. So a
conflict is never reported where some count would do, and clauses are accepted wrongly only if the
relations on a node can each be met, though not together, by counts of 63 or more.
-/

namespace DumpRules

set_option autoImplicit false

/-- All relations that clauses put on a node. -/
def relationsOn (node : String) (cs : List Clause) : List Relation :=
  (cs.filter (·.node == node)).flatMap Clause.relations

theorem mem_relationsOn {node : String} {cs : List Clause} {r : Relation} :
    r ∈ relationsOn node cs ↔ ∃ c ∈ cs, c.node = node ∧ r ∈ c.relations := by
  simp [relationsOn, and_assoc]

theorem relationsOn_append (node : String) (cs later : List Clause) :
    relationsOn node (cs ++ later) = relationsOn node cs ++ relationsOn node later := by
  simp [relationsOn]

theorem relationsOn_singleton (node : String) (c : Clause) :
    relationsOn node [c] = if c.node = node then c.relations else [] := by
  by_cases same : c.node = node <;> simp [relationsOn, same]

theorem relationsOn_eq_nil {node : String} {cs : List Clause} (other : ∀ c ∈ cs, c.node ≠ node) :
    relationsOn node cs = [] :=
  List.eq_nil_iff_forall_not_mem.2 fun r member => by
    obtain ⟨c, among, same, -⟩ := mem_relationsOn.1 member
    exact other c among same

/-! ## Tallies -/

theorem get?_cons (n other : String) (k : NodeCounts) (t : Tally) :
    Tally.get? ((n, k) :: t) other = if other = n then some k else t.get? other := by
  by_cases same : other = n
  · subst same
    simp [Tally.get?]
  · have differ : (other == n) = false := beq_false_of_ne same
    simp [Tally.get?, List.lookup_cons, differ, same]

/-- Setting what is known of a node changes nothing about the others. -/
theorem get?_put (node other : String) (k : NodeCounts) (t : Tally) :
    (t.put node k).get? other = if other = node then some k else t.get? other := by
  induction t with
  | nil => exact get?_cons node other k []
  | cons e later ih =>
      obtain ⟨n, old⟩ := e
      unfold Tally.put
      split
      · rw [get?_cons]
      · split
        · rename_i here
          subst here
          rw [get?_cons, get?_cons]
          split <;> rfl
        · rename_i elsewhere
          rw [get?_cons, get?_cons, ih]
          by_cases same : other = n
          · rw [if_pos same, if_pos same, if_neg (same ▸ elsewhere)]
          · rw [if_neg same, if_neg same]

/-- What clauses leave of the counts of each node is what a tally has for it. -/
structure Tally.Tracks (failOn cs : List Clause) (t : Tally) : Prop where
  listed : ∀ c ∈ cs, ∃ k, t.get? c.node = some k
  permits : ∀ node k, t.get? node = some k → ∀ n, k.permitted.permits n =
    (relationsOn node cs).all fun r => (CountSet.ofRelation r).permits n
  left : ∀ node k, t.get? node = some k → k.permitted.isEmpty = false
  zero : ∀ node k, t.get? node = some k → (∃ f ∈ failOn, f.node = node) →
    k.permitted.permits 0 = true

theorem tracks_nil (failOn : List Clause) : Tally.Tracks failOn [] [] :=
  ⟨by simp, by simp [Tally.get?], by simp [Tally.get?], by simp [Tally.get?]⟩

/-! ## One clause -/

variable {failOn cs : List Clause} {t t' : Tally} {c : Clause}

/-- With one more clause a node keeps the counts that the clause permits. -/
theorem permits_of_mergeClause {known : Option NodeCounts} {k : NodeCounts}
    (merged : mergeClause known c = .ok k) (n : Nat) :
    k.permitted.permits n = (known.all (·.permitted.permits n) &&
      c.relations.all fun r => (CountSet.ofRelation r).permits n) := by
  simp only [mergeClause] at merged
  split at merged
  case isTrue => cases merged
  split at merged
  · cases merged
    rw [CountSet.permits_ofRelations]
    rfl
  · split at merged
    case isTrue => cases merged
    cases merged
    rw [CountSet.permits_inter, CountSet.permits_ofRelations]
    rfl

theorem redundant_of_mergeClause {known : Option NodeCounts} {conflict : Conflict}
    (refused : mergeClause known c = .error conflict) : conflict = .redundant := by
  simp only [mergeClause] at refused
  split at refused
  · cases refused
    rfl
  · split at refused
    case h_1 => cases refused
    split at refused
    · cases refused
      rfl
    · cases refused

/-- What a clause comes to together with those before it on its node. -/
theorem permits_merged (tracks : t.Tracks failOn cs) {k : NodeCounts}
    (merged : mergeClause (t.get? c.node) c = .ok k) (n : Nat) :
    k.permitted.permits n =
      (relationsOn c.node (cs ++ [c])).all fun r => (CountSet.ofRelation r).permits n := by
  rw [permits_of_mergeClause merged, relationsOn_append, relationsOn_singleton, if_pos rfl,
    List.all_append]
  congr 1
  cases known : t.get? c.node with
  | some old => exact tracks.permits _ _ known n
  | none =>
      -- A node that the tally does not know has had no clause yet.
      have new : relationsOn c.node cs = [] := relationsOn_eq_nil fun other member same => by
        obtain ⟨k, listed⟩ := tracks.listed other member
        rw [same, known] at listed
        cases listed
      rw [new]
      rfl

/-- A clause is added if the clauses still leave its node a count, and zero if it is forbidden. -/
theorem addClause_eq_ok {t' : Tally} (added : addClause failOn t c = .ok t') :
    ∃ k, mergeClause (t.get? c.node) c = .ok k ∧ t' = t.put c.node k ∧
      k.permitted.isEmpty = false ∧
      ((∃ f ∈ failOn, f.node = c.node) → k.permitted.permits 0 = true) := by
  simp only [addClause] at added
  cases merged : mergeClause (t.get? c.node) c with
  | error conflict => simp [merged, Except.bind] at added
  | ok k =>
      simp only [merged, Except.bind, checkLeft] at added
      split at added
      case h_2 => cases added
      rename_i kept checked
      cases added
      split at checked
      case isTrue => cases checked
      rename_i filled
      split at checked
      case isTrue => cases checked
      rename_i allowed
      cases checked
      refine ⟨k, rfl, rfl, by simpa using filled, fun forbidden => ?_⟩
      rw [← CountSet.permitsZero_eq]
      simpa [forbidden] using allowed

/-- Why a clause is not added. -/
theorem addClause_eq_error {e : ConsistencyError} (refused : addClause failOn t c = .error e) :
    e.node = c.node ∧ e.clause = c.text ∧
      (e.conflict = .redundant ∧ mergeClause (t.get? c.node) c = .error .redundant ∨
        ∃ k, mergeClause (t.get? c.node) c = .ok k ∧
          (e.conflict = .incompatible ∧ k.permitted.isEmpty = true ∨
            e.conflict = .failOnContradiction ∧ k.permitted.isEmpty = false ∧
              (∃ f ∈ failOn, f.node = c.node) ∧ k.permitted.permits 0 = false)) := by
  simp only [addClause] at refused
  cases merged : mergeClause (t.get? c.node) c with
  | error conflict =>
      obtain rfl := redundant_of_mergeClause merged
      simp only [merged, Except.bind] at refused
      cases refused
      exact ⟨rfl, rfl, .inl ⟨rfl, rfl⟩⟩
  | ok k =>
      simp only [merged, Except.bind, checkLeft] at refused
      split at refused
      case h_1 => cases refused
      rename_i conflict checked
      cases refused
      refine ⟨rfl, rfl, .inr ⟨k, rfl, ?_⟩⟩
      split at checked
      · rename_i empty
        cases checked
        exact .inl ⟨rfl, empty⟩
      · rename_i filled
        split at checked
        case isFalse => cases checked
        rename_i contradicted
        cases checked
        rw [← CountSet.permitsZero_eq]
        exact .inr ⟨rfl, by simpa using filled, by simpa using contradicted⟩

/-- A node other than that of a clause keeps its set, and no relation on it is new. -/
theorem known_of_put (cs : List Clause) {k k' : NodeCounts} {node : String}
    (found : (t.put c.node k).get? node = some k') :
    node = c.node ∧ k' = k ∨
      t.get? node = some k' ∧ relationsOn node (cs ++ [c]) = relationsOn node cs := by
  rw [get?_put] at found
  by_cases same : node = c.node
  · rw [if_pos same] at found
    exact .inl ⟨same, (Option.some.inj found).symm⟩
  · rw [if_neg same] at found
    refine .inr ⟨found, ?_⟩
    rw [relationsOn_append, relationsOn_singleton, if_neg (Ne.symm same), List.append_nil]

/-- The tally still tracks the clauses when one more is added. -/
theorem Tally.Tracks.addClause (tracks : t.Tracks failOn cs)
    (added : addClause failOn t c = .ok t') : t'.Tracks failOn (cs ++ [c]) := by
  obtain ⟨k, merged, rfl, filled, zero⟩ := addClause_eq_ok added
  constructor
  case listed =>
    intro other member
    rw [get?_put]
    split
    · exact ⟨k, rfl⟩
    · rename_i differ
      rcases List.mem_append.1 member with before | here
      · exact tracks.listed other before
      · rw [List.mem_singleton.1 here] at differ
        exact absurd rfl differ
  case permits =>
    intro node k' found n
    rcases known_of_put cs found with ⟨rfl, rfl⟩ | ⟨before, same⟩
    · exact permits_merged tracks merged n
    · rw [same]
      exact tracks.permits node k' before n
  case left =>
    intro node k' found
    rcases known_of_put cs found with ⟨rfl, rfl⟩ | ⟨before, -⟩
    · exact filled
    · exact tracks.left node k' before
  case zero =>
    intro node k' found forbidden
    rcases known_of_put cs found with ⟨rfl, rfl⟩ | ⟨before, -⟩
    · exact zero forbidden
    · exact tracks.zero node k' before forbidden

/-! ## All clauses -/

theorem Tally.Tracks.addClauses {later : List Clause} (tracks : t.Tracks failOn cs)
    (added : addClauses failOn t later = .ok t') : t'.Tracks failOn (cs ++ later) := by
  induction later generalizing t cs with
  | nil =>
      cases added
      rwa [List.append_nil]
  | cons c later ih =>
      simp only [DumpRules.addClauses] at added
      split at added
      case h_2 => cases added
      rename_i next one
      rw [List.append_cons]
      exact ih (tracks.addClause one) added

/-- If clauses are refused, one of them is refused after those before it were added. -/
theorem addClauses_eq_error {later : List Clause} {e : ConsistencyError}
    (refused : addClauses failOn t later = .error e) :
    ∃ seen c rest t', later = seen ++ c :: rest ∧ addClauses failOn t seen = .ok t' ∧
      addClause failOn t' c = .error e := by
  induction later generalizing t with
  | nil => cases refused
  | cons c later ih =>
      simp only [addClauses] at refused
      split at refused
      · rename_i next one
        obtain ⟨seen, c', rest, t', rfl, before, last⟩ := ih refused
        refine ⟨c :: seen, c', rest, t', rfl, ?_, last⟩
        simp only [addClauses, one, before]
      · rename_i error one
        cases refused
        exact ⟨[], c, later, t, rfl, rfl, one⟩

/-! ## Satisfiability -/

theorem exists_not_holds {rs : List Relation} (count : UInt64)
    (refused : (rs.all fun r => (CountSet.ofRelation r).permits count.toNat) = false) :
    ∃ r ∈ rs, r.holds count.toNat = false := by
  obtain ⟨r, member, broken⟩ := List.all_eq_false.1 refused
  refine ⟨r, member, ?_⟩
  rw [← Bool.not_eq_true]
  exact fun holds => broken (CountSet.permits_ofRelation_of_holds holds)

/-- A conflict is real: the relations on the node leave it no count, or not the count zero. -/
theorem conflict_of_refused {counts : List Clause} {e : ConsistencyError}
    (refused : consistent failOn counts = .error e) :
    (e.conflict = .incompatible →
      ∀ count : UInt64, ∃ r ∈ relationsOn e.node counts, r.holds count.toNat = false) ∧
    (e.conflict = .failOnContradiction →
      (∃ f ∈ failOn, f.node = e.node) ∧
        ∃ r ∈ relationsOn e.node counts, r.holds 0 = false) := by
  obtain ⟨seen, c, rest, t', rfl, added, last⟩ := addClauses_eq_error refused
  have tracks : t'.Tracks failOn seen := (tracks_nil failOn).addClauses added
  obtain ⟨same, -, why⟩ := addClause_eq_error last
  -- The relations up to the refused clause are among those of the whole list.
  have among : ∀ r ∈ relationsOn c.node (seen ++ [c]),
      r ∈ relationsOn e.node (seen ++ c :: rest) := by
    intro r member
    rw [same, List.append_cons, relationsOn_append]
    exact List.mem_append_left _ member
  rcases why with ⟨redundant, -⟩ | ⟨k, merged, ⟨kind, empty⟩ | ⟨kind, -, forbidden, noZero⟩⟩
  · exact ⟨by simp [redundant], by simp [redundant]⟩
  · refine ⟨fun _ count => ?_, by simp [kind]⟩
    have nothing := (CountSet.isEmpty_iff _).1 empty count.toNat
    rw [permits_merged tracks merged] at nothing
    obtain ⟨r, member, broken⟩ := exists_not_holds count nothing
    exact ⟨r, among r member, broken⟩
  · refine ⟨by simp [kind], fun _ => ⟨same ▸ forbidden, ?_⟩⟩
    rw [permits_merged tracks merged] at noZero
    obtain ⟨r, member, broken⟩ := exists_not_holds 0 noZero
    exact ⟨r, among r member, broken⟩

/-- What is accepted can be met node by node, as far as the sets can tell. -/
theorem Tally.Tracks.satisfiable {counts : List Clause} (tracks : t.Tracks failOn counts)
    (member : c ∈ counts) :
    ((∃ n ≤ 62, ∀ r ∈ relationsOn c.node counts, r.holds n = true) ∨
      ∀ r ∈ relationsOn c.node counts,
        ∃ count : UInt64, 63 ≤ count.toNat ∧ r.holds count.toNat = true) ∧
    ((∃ f ∈ failOn, f.node = c.node) → ∀ r ∈ relationsOn c.node counts, r.holds 0 = true) := by
  obtain ⟨k, known⟩ := tracks.listed c member
  have permits := tracks.permits c.node k known
  constructor
  · obtain ⟨n, left⟩ := (CountSet.isEmpty_eq_false_iff k.permitted).1 (tracks.left c.node k known)
    rw [permits, List.all_eq_true] at left
    by_cases small : n < CountSet.top
    · refine .inl ⟨n, Nat.le_of_lt_succ small, fun r among => ?_⟩
      rw [← CountSet.permits_ofRelation_of_lt r small]
      exact left r among
    · refine .inr fun r among => ?_
      exact (CountSet.permits_ofRelation_of_ge r (Nat.le_of_not_lt small)).1 (left r among)
  · intro forbidden r among
    have zero := tracks.zero c.node k known forbidden
    rw [permits, List.all_eq_true] at zero
    rw [← CountSet.permits_ofRelation_of_lt r (by decide : 0 < CountSet.top)]
    exact zero r among

/-- A relation with a small bound does not tell large counts apart. -/
theorem holds_of_large {r : Relation} {m n : Nat} (small : r.bound.toNat ≤ 62) (from63 : 63 ≤ m)
    (large : 63 ≤ n) (holds : r.holds m = true) : r.holds n = true := by
  obtain ⟨comparator, bound⟩ := r
  cases comparator <;> simp [Relation.holds, Comparator.holds] at holds small ⊢ <;> omega

/-- With small bounds, what is accepted can be met for each node by one count. -/
theorem Tally.Tracks.exists_count {counts : List Clause} (tracks : t.Tracks failOn counts)
    (small : ∀ c ∈ counts, ∀ r ∈ c.relations, r.bound.toNat ≤ 62) (node : String) :
    ∃ count : UInt64, ((∃ f ∈ failOn, f.node = node) → count = 0) ∧
      ∀ r ∈ relationsOn node counts, r.holds count.toNat = true := by
  by_cases forbidden : ∃ f ∈ failOn, f.node = node
  · refine ⟨0, fun _ => rfl, fun r among => ?_⟩
    obtain ⟨c, member, rfl, -⟩ := mem_relationsOn.1 among
    exact (tracks.satisfiable member).2 forbidden r among
  · by_cases listed : ∃ c ∈ counts, c.node = node
    · obtain ⟨c, member, rfl⟩ := listed
      rcases (tracks.satisfiable member).1 with ⟨n, bounded, holds⟩ | apart
      · have fits : (UInt64.ofNat n).toNat = n :=
          UInt64.toNat_ofNat_of_lt' (bounded.trans_lt (by decide))
        exact ⟨.ofNat n, fun yes => absurd yes forbidden, fun r among => fits.symm ▸ holds r among⟩
      · -- Each relation holds of some large count, so with small bounds all of them hold of 63.
        refine ⟨63, fun yes => absurd yes forbidden, fun r among => ?_⟩
        obtain ⟨count, large, holds⟩ := apart r among
        obtain ⟨c', member', -, own⟩ := mem_relationsOn.1 among
        exact holds_of_large (small c' member' r own) large (le_refl 63) holds
    · refine ⟨0, fun _ => rfl, fun r among => ?_⟩
      obtain ⟨c, member, same, -⟩ := mem_relationsOn.1 among
      exact absurd ⟨c, member, same⟩ listed

/-- **The check of clauses decides whether they can hold together.** What it refuses as impossible
is impossible, whatever the bounds; what it accepts is possible unless that takes counts of 63 or
more, and if all bounds are below 63 it is possible for all nodes at once. -/
theorem consistent_decides (failOn counts : List Clause) :
    (∀ e, consistent failOn counts = .error e →
      (e.conflict = .incompatible →
        ∀ count : UInt64, ∃ r ∈ relationsOn e.node counts, r.holds count.toNat = false) ∧
      (e.conflict = .failOnContradiction →
        (∃ f ∈ failOn, f.node = e.node) ∧
          ∃ r ∈ relationsOn e.node counts, r.holds 0 = false)) ∧
    (∀ t, consistent failOn counts = .ok t →
      (∀ c ∈ counts,
        ((∃ n ≤ 62, ∀ r ∈ relationsOn c.node counts, r.holds n = true) ∨
          ∀ r ∈ relationsOn c.node counts,
            ∃ count : UInt64, 63 ≤ count.toNat ∧ r.holds count.toNat = true) ∧
        ((∃ f ∈ failOn, f.node = c.node) →
          ∀ r ∈ relationsOn c.node counts, r.holds 0 = true)) ∧
      ((∀ c ∈ counts, ∀ r ∈ c.relations, r.bound.toNat ≤ 62) →
        ∃ assignment : String → UInt64, (∀ f ∈ failOn, assignment f.node = 0) ∧
          ∀ c ∈ counts, ∀ r ∈ c.relations, r.holds (assignment c.node).toNat = true)) := by
  refine ⟨fun e refused => conflict_of_refused refused, fun t accepted => ?_⟩
  have tracks : t.Tracks failOn counts := (tracks_nil failOn).addClauses accepted
  refine ⟨fun c member => tracks.satisfiable member, fun small => ?_⟩
  obtain ⟨assignment, meets⟩ := Classical.skolem.1 (tracks.exists_count small)
  refine ⟨assignment, fun f member => (meets f.node).1 ⟨f, member, rfl⟩, ?_⟩
  intro c member r own
  exact (meets c.node).2 r (mem_relationsOn.2 ⟨c, member, rfl, own⟩)

/-- A clause without phases, as if it stood alone. -/
def plainClause (node : String) (demand : Demand) : Clause :=
  { node, demand, phases := none, span := ⟨0, 0⟩ }

def noLoads : List Clause :=
  [plainClause "LOAD" .failOn]

/-- More than three and less than three. -/
def overdrawn : List Clause :=
  [plainClause "LOAD" (.counts [⟨.gt, 3⟩]), plainClause "LOAD" (.counts [⟨.lt, 3⟩])]

/-- One node that may be missing, and one whose count has no bit of its own. -/
def generous : List Clause :=
  [plainClause "LOAD" (.counts [⟨.le, 1⟩]), plainClause "STORE" (.counts [⟨.gt, 62⟩, ⟨.ne, 7⟩])]

theorem consistent_decides_loads :
    (∃ e, consistent [] overdrawn = .error e ∧ e.conflict = .incompatible ∧
      ∀ count : UInt64, ∃ r ∈ relationsOn e.node overdrawn, r.holds count.toNat = false) ∧
    (∃ e, consistent noLoads overdrawn = .error e ∧ e.conflict = .failOnContradiction ∧
      (∃ f ∈ noLoads, f.node = e.node) ∧ ∃ r ∈ relationsOn e.node overdrawn, r.holds 0 = false) ∧
    ∃ t, consistent noLoads generous = .ok t ∧
      ∃ assignment : String → UInt64, (∀ f ∈ noLoads, assignment f.node = 0) ∧
        ∀ c ∈ generous, ∀ r ∈ c.relations, r.holds (assignment c.node).toNat = true := by
  have apart : consistent [] overdrawn = .error ⟨.incompatible, "LOAD", "LOAD <3"⟩ := by
    decide +kernel
  have contrary : consistent noLoads overdrawn =
      .error ⟨.failOnContradiction, "LOAD", "LOAD >3"⟩ := by
    decide +kernel
  have accepted : consistent noLoads generous =
      .ok [("LOAD", ⟨false, ⟨0x3⟩⟩), ("STORE", ⟨false, ⟨0x8000000000000000⟩⟩)] := by
    decide +kernel
  exact ⟨⟨_, apart, rfl, ((consistent_decides [] overdrawn).1 _ apart).1 rfl⟩,
    ⟨_, contrary, rfl, ((consistent_decides noLoads overdrawn).1 _ contrary).2 rfl⟩,
    ⟨_, accepted, ((consistent_decides noLoads generous).2 _ accepted).2 (by decide)⟩⟩

-- The one kind of clauses that are accepted though no count meets them.
example : (consistent []
    [⟨"LOAD", .counts [⟨.gt, 70⟩, ⟨.lt, 66⟩], none, ⟨0, 13⟩⟩]).isOk = true := by
  decide +kernel

end DumpRules
