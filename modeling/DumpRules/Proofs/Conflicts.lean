import DumpRules.Proofs.Satisfiability
import Mathlib.Data.List.Perm.Basic
import Mathlib.Order.Bounds.Defs

/-!
# Clauses in conflict

The clauses of a rule are checked one by one, against a tally of those before. Whether they are all
accepted has nothing to do with their order, though: the clauses on each node have to be coherent
(`Coherent`), and then the tally is determined by them (`Tally.Totals`). If they are not, the first
clause that is one too many is blamed, and the kind of its conflict depends only on the clauses
before it on its own node (`Blames`).

`Tally.Sums` carries both. It says of a tally what the clauses so far come to, and it holds after
every clause that is added, so that a clause which is not added can be judged by them.
-/

namespace DumpRules

set_option autoImplicit false

/-! ## Clauses on a node -/

def clausesOn (node : String) (cs : List Clause) : List Clause :=
  cs.filter (·.node == node)

@[simp] theorem mem_clausesOn {node : String} {cs : List Clause} {c : Clause} :
    c ∈ clausesOn node cs ↔ c ∈ cs ∧ c.node = node := by
  simp [clausesOn]

/-- Every relation on a node permits a count, as far as count sets can tell. -/
def Leaves (cs : List Clause) (node : String) (n : Nat) : Prop :=
  ∀ r ∈ relationsOn node cs, (CountSet.ofRelation r).permits n = true

theorem leaves_iff {cs : List Clause} {node : String} {n : Nat} :
    Leaves cs node n ↔
      ((relationsOn node cs).all fun r => (CountSet.ofRelation r).permits n) = true :=
  List.all_eq_true.symm

/-- What more clauses leave to a node, fewer clauses leave to it as well. -/
theorem Leaves.of_append {cs later : List Clause} {node : String} {n : Nat}
    (leaves : Leaves (cs ++ later) node n) : Leaves cs node n := by
  intro r member
  apply leaves r
  rw [relationsOn_append]
  exact List.mem_append_left _ member

/-- Clauses that can hold together, as far as one node goes. -/
structure Coherent (failOn counts : List Clause) (node : String) : Prop where
  /-- An equality is the only relation of its clause. -/
  alone : ∀ c ∈ clausesOn node counts, c.isEquality = true → c.relations.length = 1
  /-- A clause with an equality is the only one. -/
  single : 2 ≤ (clausesOn node counts).length →
    ∀ c ∈ clausesOn node counts, c.isEquality = false
  left : ∃ n, Leaves counts node n
  zero : (∃ f ∈ failOn, f.node = node) → Leaves counts node 0

/-- A tally of clauses: their nodes in ascending order, and what the clauses on each come to. -/
structure Tally.Totals (cs : List Clause) (t : Tally) : Prop where
  ordered : (t.map Prod.fst).Pairwise (· < ·)
  keys : ∀ node, (∃ k, t.get? node = some k) ↔ ∃ c ∈ cs, c.node = node
  hasEquality : ∀ node k, t.get? node = some k →
    (k.hasEquality = true ↔ ∃ c ∈ cs, c.node = node ∧ c.isEquality = true)
  permitted : ∀ node k, t.get? node = some k →
    k.permitted = CountSet.ofRelations (relationsOn node cs)

/-! ## Tallies in order -/

theorem mem_keys_put {node other : String} {k : NodeCounts} {t : Tally} :
    other ∈ (t.put node k).map Prod.fst ↔ other = node ∨ other ∈ t.map Prod.fst := by
  induction t with
  | nil => simp [Tally.put]
  | cons e later ih =>
      obtain ⟨n, old⟩ := e
      unfold Tally.put
      split
      · simp
      · split
        · rename_i here
          subst here
          simp
        · rw [List.map_cons, List.mem_cons, ih, List.map_cons, List.mem_cons]
          exact or_left_comm

theorem pairwise_put {node : String} {k : NodeCounts} {t : Tally}
    (ordered : (t.map Prod.fst).Pairwise (· < ·)) :
    ((t.put node k).map Prod.fst).Pairwise (· < ·) := by
  induction t with
  | nil => simp [Tally.put]
  | cons e later ih =>
      obtain ⟨n, old⟩ := e
      obtain ⟨least, ordered'⟩ := List.pairwise_cons.1 ordered
      unfold Tally.put
      split
      · rename_i before
        refine List.pairwise_cons.2 ⟨fun other member => ?_, ordered⟩
        rcases List.mem_cons.1 member with rfl | among
        · exact before
        · exact String.lt_trans before (least other among)
      · rename_i notBefore
        split
        · rename_i here
          subst here
          exact ordered
        · rename_i elsewhere
          have behind : n < node := Std.lt_of_le_of_ne (String.not_lt.1 notBefore) elsewhere
          refine List.pairwise_cons.2 ⟨fun other member => ?_, ih ordered'⟩
          rcases mem_keys_put.1 member with rfl | among
          · exact behind
          · exact least other among

theorem get?_eq_some_iff_mem {t : Tally} (ordered : (t.map Prod.fst).Pairwise (· < ·))
    {node : String} {k : NodeCounts} : t.get? node = some k ↔ (node, k) ∈ t := by
  induction t with
  | nil => simp [Tally.get?]
  | cons e later ih =>
      obtain ⟨n, old⟩ := e
      obtain ⟨least, ordered'⟩ := List.pairwise_cons.1 ordered
      rw [get?_cons]
      by_cases same : node = n
      · subst same
        have once : (node, k) ∉ later := fun again =>
          String.lt_irrefl node (least node (List.mem_map_of_mem again))
        simp [once, eq_comm]
      · simp [same, ih ordered']

/-- A tally is known by what it has for each node. -/
theorem Tally.eq_of_get? {t t' : Tally} (ordered : (t.map Prod.fst).Pairwise (· < ·))
    (ordered' : (t'.map Prod.fst).Pairwise (· < ·)) (same : ∀ node, t.get? node = t'.get? node) :
    t = t' := by
  rw [List.pairwise_map] at ordered ordered'
  have asymm : ∀ a b : String × NodeCounts, a ∈ t → b ∈ t' → a.1 < b.1 → b.1 < a.1 → a = b :=
    fun a b _ _ less more => absurd (String.lt_trans less more) (String.lt_irrefl _)
  have nodup : ∀ {u : Tally}, u.Pairwise (fun a b => a.1 < b.1) → u.Nodup := by
    intro u ordered
    refine List.nodup_iff_pairwise_ne.2 (ordered.imp ?_)
    rintro a b less rfl
    exact String.lt_irrefl _ less
  refine List.Perm.eq_of_pairwise asymm ordered ordered' ?_
  rw [List.perm_ext_iff_of_nodup (nodup ordered) (nodup ordered')]
  rintro ⟨node, k⟩
  rw [← List.pairwise_map] at ordered ordered'
  rw [← get?_eq_some_iff_mem ordered, ← get?_eq_some_iff_mem ordered', same]

/-! ## The invariant -/

/-- What holds of a tally as long as clauses are accepted: it has the totals of the clauses so far,
and none of them was one too many. -/
structure Tally.Sums (failOn cs : List Clause) (t : Tally) : Prop
    extends Tally.Tracks failOn cs t where
  ordered : (t.map Prod.fst).Pairwise (· < ·)
  named : ∀ node k, t.get? node = some k → ∃ c ∈ cs, c.node = node
  pinned : ∀ node k, t.get? node = some k →
    (k.hasEquality = true ↔ ∃ c ∈ cs, c.node = node ∧ c.isEquality = true)
  alone : ∀ c ∈ cs, c.isEquality = true → c.relations.length ≤ 1
  apart : cs.Pairwise fun b c => b.node = c.node → b.isEquality = false ∧ c.isEquality = false

theorem sums_nil (failOn : List Clause) : Tally.Sums failOn [] [] where
  toTracks := tracks_nil failOn
  ordered := .nil
  named := by simp [Tally.get?]
  pinned := by simp [Tally.get?]
  alone := by simp
  apart := .nil

/-- A clause that adds to an equality: it has one beside another relation, or there are clauses on
its node before it, and it or one of them has one. -/
def Overdetermined (before : List Clause) (c : Clause) : Prop :=
  c.isEquality = true ∧ 1 < c.relations.length ∨
    (∃ b ∈ before, b.node = c.node) ∧
      (c.isEquality = true ∨ ∃ b ∈ before, b.node = c.node ∧ b.isEquality = true)

section Step

variable {failOn cs : List Clause} {t t' : Tally} {c : Clause} (sums : t.Sums failOn cs)

include sums

theorem Tally.Sums.exists_get?_iff {node : String} :
    (∃ k, t.get? node = some k) ↔ ∃ b ∈ cs, b.node = node := by
  constructor
  · rintro ⟨k, known⟩
    exact sums.named node k known
  · rintro ⟨b, member, rfl⟩
    exact sums.listed b member

/-- Clauses on a node are merged unless there is an equality among more than one relation. -/
theorem Tally.Sums.mergeClause_iff :
    (mergeClause (t.get? c.node) c = .error .redundant ↔ Overdetermined cs c) ∧
    ∀ k, mergeClause (t.get? c.node) c = .ok k →
      (k.hasEquality = true ↔ ∃ b ∈ cs ++ [c], b.node = c.node ∧ b.isEquality = true) := by
  have earlier : (∃ k, t.get? c.node = some k) ↔ ∃ b ∈ cs, b.node = c.node :=
    sums.exists_get?_iff
  unfold mergeClause Overdetermined
  by_cases crowded : c.isEquality = true ∧ 1 < c.relations.length
  · simp [crowded]
  rw [if_neg (by simpa using crowded)]
  cases known : t.get? c.node with
  | none =>
      have new : ¬∃ b ∈ cs, b.node = c.node := fun before => by
        obtain ⟨k, listed⟩ := earlier.2 before
        simp [known] at listed
      refine ⟨by simp [crowded, new], fun k merged => ?_⟩
      cases merged
      constructor
      · exact fun equality => ⟨c, by simp, rfl, equality⟩
      · rintro ⟨b, member, same, equality⟩
        rcases List.mem_append.1 member with before | here
        · exact absurd ⟨b, before, same⟩ new
        · exact List.mem_singleton.1 here ▸ equality
  | some old =>
      have before : ∃ b ∈ cs, b.node = c.node := earlier.1 ⟨old, known⟩
      have pinned := sums.pinned c.node old known
      by_cases equality : old.hasEquality = true ∨ c.isEquality = true
      · simp only [Bool.or_eq_true, if_pos equality]
        refine ⟨iff_of_true trivial (.inr ⟨before, ?_⟩), fun k merged => by cases merged⟩
        rw [← pinned]
        exact equality.symm
      · simp only [Bool.or_eq_true, if_neg equality]
        obtain ⟨noneBefore, notHere⟩ := not_or.1 equality
        rw [pinned] at noneBefore
        refine ⟨iff_of_false (by simp) ?_, fun k merged => ?_⟩
        · rintro (both | ⟨-, here | earlier⟩)
          · exact crowded both
          · exact notHere here
          · exact noneBefore earlier
        · cases merged
          refine iff_of_false (by simp) ?_
          rintro ⟨b, member, same, equality⟩
          rcases List.mem_append.1 member with among | here
          · exact noneBefore ⟨b, among, same, equality⟩
          · exact notHere (List.mem_singleton.1 here ▸ equality)

theorem Tally.Sums.not_overdetermined {k : NodeCounts}
    (merged : mergeClause (t.get? c.node) c = .ok k) : ¬Overdetermined cs c := by
  rw [← sums.mergeClause_iff.1, merged]
  simp

/-- A tally keeps its totals when a clause is added. -/
theorem Tally.Sums.addClause (added : addClause failOn t c = .ok t') :
    t'.Sums failOn (cs ++ [c]) := by
  have tracks := sums.toTracks.addClause added
  obtain ⟨k, merged, rfl, -, -⟩ := addClause_eq_ok added
  have plain := sums.not_overdetermined merged
  constructor
  case toTracks => exact tracks
  case ordered => exact pairwise_put sums.ordered
  case named =>
    intro node k' found
    rcases known_of_put cs found with ⟨rfl, -⟩ | ⟨before, -⟩
    · exact ⟨c, by simp, rfl⟩
    · obtain ⟨b, member, same⟩ := sums.named node k' before
      exact ⟨b, List.mem_append_left _ member, same⟩
  case pinned =>
    intro node k' found
    by_cases same : node = c.node
    · subst same
      rw [get?_put, if_pos rfl] at found
      cases found
      exact sums.mergeClause_iff.2 k merged
    · rw [get?_put, if_neg same] at found
      rw [sums.pinned node k' found]
      have other : c.node ≠ node := Ne.symm same
      simp [or_and_right, exists_or, other]
  case alone =>
    intro b member equality
    rcases List.mem_append.1 member with before | here
    · exact sums.alone b before equality
    · rw [List.mem_singleton.1 here] at equality ⊢
      exact Nat.le_of_not_lt fun more => plain (.inl ⟨equality, more⟩)
  case apart =>
    refine List.pairwise_append.2 ⟨sums.apart, List.pairwise_singleton _ _, ?_⟩
    intro b member c' here same
    rw [List.mem_singleton.1 here] at same ⊢
    rw [← Bool.not_eq_true, ← Bool.not_eq_true]
    exact ⟨fun equality => plain (.inr ⟨⟨b, member, same⟩, .inr ⟨b, member, same, equality⟩⟩),
      fun equality => plain (.inr ⟨⟨b, member, same⟩, .inl equality⟩)⟩

theorem Tally.Sums.addClauses {later : List Clause}
    (added : addClauses failOn t later = .ok t') : t'.Sums failOn (cs ++ later) := by
  induction later generalizing t cs with
  | nil =>
      cases added
      rwa [List.append_nil]
  | cons c later ih =>
      simp only [DumpRules.addClauses] at added
      split at added
      case h_2 => cases added
      rename_i next one
      rw [List.append_cons]
      exact ih (sums.addClause one) added

end Step

/-! ## Blame -/

/-- What is said of a clause that is one too many behind others. -/
structure Blames (failOn before : List Clause) (c : Clause) (e : ConsistencyError) : Prop where
  node : e.node = c.node
  text : e.clause = c.text
  redundant : e.conflict = .redundant ↔ Overdetermined before c
  incompatible : e.conflict = .incompatible ↔
    ¬Overdetermined before c ∧ ∀ n, ¬Leaves (before ++ [c]) c.node n
  contradiction : e.conflict = .failOnContradiction ↔
    ¬Overdetermined before c ∧ ∃ n, Leaves (before ++ [c]) c.node n
  forbidden : e.conflict = .failOnContradiction →
    (∃ f ∈ failOn, f.node = c.node) ∧ ¬Leaves (before ++ [c]) c.node 0

section Blame

variable {failOn cs : List Clause} {t t' : Tally} {c : Clause} {e : ConsistencyError}

theorem Tally.Sums.leaves_merged_iff (sums : t.Sums failOn cs) {k : NodeCounts}
    (merged : mergeClause (t.get? c.node) c = .ok k) (n : Nat) :
    Leaves (cs ++ [c]) c.node n ↔ k.permitted.permits n = true := by
  rw [leaves_iff, permits_merged sums.toTracks merged]

/-- A clause that is not added is blamed for what it does to those before it. -/
theorem Tally.Sums.blames (sums : t.Sums failOn cs)
    (refused : DumpRules.addClause failOn t c = .error e) : Blames failOn cs c e := by
  obtain ⟨node, text, why⟩ := addClause_eq_error refused
  rcases why with ⟨kind, merged⟩ | ⟨k, merged, ⟨kind, empty⟩ | ⟨kind, filled, forbidden, noZero⟩⟩
  · have crowded := sums.mergeClause_iff.1.1 merged
    exact ⟨node, text, by simp [kind, crowded], by simp [kind, crowded], by simp [kind, crowded],
      by simp [kind]⟩
  · have plain := sums.not_overdetermined merged
    have nothing : ∀ n, ¬Leaves (cs ++ [c]) c.node n := fun n => by
      rw [sums.leaves_merged_iff merged, (CountSet.isEmpty_iff _).1 empty n]
      exact Bool.false_ne_true
    exact ⟨node, text, by simp [kind, plain], by simpa [kind, plain] using nothing,
      by simpa [kind, plain] using nothing, by simp [kind]⟩
  · have plain := sums.not_overdetermined merged
    have something : ∃ n, Leaves (cs ++ [c]) c.node n := by
      obtain ⟨n, permits⟩ := (CountSet.isEmpty_eq_false_iff _).1 filled
      exact ⟨n, (sums.leaves_merged_iff merged n).2 permits⟩
    refine ⟨node, text, by simp [kind, plain], by simpa [kind, plain] using something,
      by simpa [kind, plain] using something, fun _ => ⟨forbidden, ?_⟩⟩
    rw [sums.leaves_merged_iff merged, noZero]
    exact Bool.false_ne_true

theorem addClauses_append (failOn : List Clause) (t : Tally) (cs later : List Clause) :
    addClauses failOn t (cs ++ later) =
      (addClauses failOn t cs).bind fun t' => addClauses failOn t' later := by
  induction cs generalizing t with
  | nil => rfl
  | cons c cs ih =>
      simp only [List.cons_append, addClauses]
      cases addClause failOn t c with
      | error e => rfl
      | ok t' => exact ih t'

/-- An error stays when more clauses follow. -/
theorem consistent_append_of_error (refused : consistent failOn cs = .error e)
    (later : List Clause) : consistent failOn (cs ++ later) = .error e := by
  unfold consistent at refused ⊢
  rw [addClauses_append, refused]
  rfl

theorem consistent_of_append {later : List Clause}
    (accepted : consistent failOn (cs ++ later) = .ok t) :
    ∃ t', consistent failOn cs = .ok t' := by
  cases first : consistent failOn cs with
  | ok t' => exact ⟨t', rfl⟩
  | error e =>
      rw [consistent_append_of_error first] at accepted
      cases accepted

theorem sums_of_consistent (accepted : consistent failOn cs = .ok t) : t.Sums failOn cs :=
  (sums_nil failOn).addClauses accepted

/-- If clauses are refused, one of them is to blame, and those before it are accepted. -/
theorem blames_of_consistent {counts : List Clause}
    (refused : consistent failOn counts = .error e) :
    ∃ before c later, counts = before ++ c :: later ∧
      (∃ t, consistent failOn before = .ok t) ∧ consistent failOn (before ++ [c]) = .error e ∧
      Blames failOn before c e := by
  obtain ⟨before, c, later, t, rfl, accepted, last⟩ := addClauses_eq_error refused
  refine ⟨before, c, later, rfl, ⟨t, accepted⟩, ?_, (sums_of_consistent accepted).blames last⟩
  unfold consistent
  rw [addClauses_append, accepted]
  simp only [Except.bind, addClauses, last]

end Blame

/-- **The first clause that is one too many is blamed.** There is a least number of clauses that are
accepted where one more is not. The error names the node and the text of that one, and its kind
follows from the clauses up to it on its node. Whatever comes behind it changes nothing. -/
theorem consistent_blames_first {failOn counts : List Clause} {e : ConsistencyError}
    (refused : consistent failOn counts = .error e) :
    (∃ k c, IsLeast {k | (∃ t, consistent failOn (counts.take k) = .ok t) ∧
        ¬∃ t, consistent failOn (counts.take (k + 1)) = .ok t} k ∧
      counts[k]? = some c ∧ Blames failOn (counts.take k) c e) ∧
    ∀ later, consistent failOn (counts ++ later) = .error e := by
  refine ⟨?_, consistent_append_of_error refused⟩
  obtain ⟨before, c, later, rfl, ⟨t, accepted⟩, last, blames⟩ := blames_of_consistent refused
  have here : (before ++ c :: later).take before.length = before := List.take_left
  have next : (before ++ c :: later).take (before.length + 1) = before ++ [c] := by
    rw [List.take_length_add_append]
    rfl
  refine ⟨before.length, c, ⟨⟨⟨t, ?_⟩, ?_⟩, ?_⟩, by simp, by rwa [here]⟩
  · rwa [here]
  · rw [next, last]
    simp
  · -- Up to `before` every number of clauses is accepted.
    rintro j ⟨-, stops⟩
    by_contra less
    apply stops
    rw [List.take_append_of_le_length (by omega)]
    rw [← List.take_append_drop (j + 1) before] at accepted
    exact consistent_of_append accepted

/-- One count twice. -/
def pinnedTwice : List Clause :=
  [plainClause "LOAD" (.counts [⟨.eq, 0⟩]), plainClause "LOAD" (.counts [⟨.eq, 0⟩])]

theorem consistent_blames_first_loads :
    (consistent [] overdrawn = .error ⟨.incompatible, "LOAD", "LOAD <3"⟩ ∧
      ∀ later, consistent [] (overdrawn ++ later) = .error ⟨.incompatible, "LOAD", "LOAD <3"⟩) ∧
    consistent noLoads pinnedTwice = .error ⟨.redundant, "LOAD", "LOAD =0"⟩ ∧
      ∃ k c, pinnedTwice[k]? = some c ∧
        Blames noLoads (pinnedTwice.take k) c ⟨.redundant, "LOAD", "LOAD =0"⟩ := by
  have apart : consistent [] overdrawn = .error ⟨.incompatible, "LOAD", "LOAD <3"⟩ := by
    decide +kernel
  have redundant : consistent noLoads pinnedTwice = .error ⟨.redundant, "LOAD", "LOAD =0"⟩ := by
    decide +kernel
  obtain ⟨k, c, -, here, blames⟩ := (consistent_blames_first redundant).1
  exact ⟨⟨apart, (consistent_blames_first apart).2⟩, redundant, k, c, here, blames⟩

/-! ## Coherence -/

section Coherence

variable {failOn counts before later cs cs' : List Clause} {t t' : Tally} {c : Clause}
  {e : ConsistencyError} {node : String}

theorem length_relations_pos (equality : c.isEquality = true) : 1 ≤ c.relations.length := by
  obtain ⟨r, member, -⟩ := List.any_eq_true.1 equality
  exact List.length_pos_of_mem member

theorem Tally.Sums.totals (sums : t.Sums failOn cs) : t.Totals cs where
  ordered := sums.ordered
  keys _ := sums.exists_get?_iff
  hasEquality := sums.pinned
  permitted node k known := CountSet.eq_of_permits fun n => by
    rw [sums.permits node k known, CountSet.permits_ofRelations]

/-- Of clauses that stand apart, one that is not alone on its node has no equality. -/
theorem isEquality_eq_false_of_pairwise
    (apart : cs.Pairwise fun b c => b.node = c.node → b.isEquality = false ∧ c.isEquality = false)
    (two : 2 ≤ (clausesOn node cs).length) (member : c ∈ clausesOn node cs) :
    c.isEquality = false := by
  have onNode : ∀ b ∈ clausesOn node cs, b.node = node := fun b among => (mem_clausesOn.1 among).2
  have apart' : (clausesOn node cs).Pairwise fun b c =>
      b.node = c.node → b.isEquality = false ∧ c.isEquality = false := apart.filter _
  obtain ⟨first, rest, split⟩ := List.append_of_mem member
  rw [split] at apart' two onNode
  obtain ⟨-, tail, cross⟩ := List.pairwise_append.1 apart'
  cases first with
  | cons b first => exact (cross b (by simp) c (by simp) (by simp [onNode])).2
  | nil =>
      cases rest with
      | nil => simp at two
      | cons b rest => exact ((List.pairwise_cons.1 tail).1 b (by simp) (by simp [onNode])).1

theorem Tally.Sums.coherent (sums : t.Sums failOn cs) (member : c ∈ cs) :
    Coherent failOn cs c.node := by
  obtain ⟨k, known⟩ := sums.listed c member
  have leaves : ∀ n, Leaves cs c.node n ↔ k.permitted.permits n = true := fun n => by
    rw [leaves_iff, sums.permits c.node k known]
  constructor
  case alone =>
    intro b among equality
    exact Nat.le_antisymm (sums.alone b (mem_clausesOn.1 among).1 equality)
      (length_relations_pos equality)
  case single => exact fun two b among => isEquality_eq_false_of_pairwise sums.apart two among
  case left =>
    obtain ⟨n, permits⟩ := (CountSet.isEmpty_eq_false_iff _).1 (sums.left c.node k known)
    exact ⟨n, (leaves n).2 permits⟩
  case zero => exact fun forbidden => (leaves 0).2 (sums.zero c.node k known forbidden)

theorem Coherent.not_overdetermined (coherent : Coherent failOn (before ++ c :: later) c.node) :
    ¬Overdetermined before c := by
  have here : c ∈ clausesOn c.node (before ++ c :: later) := by simp
  rintro (⟨equality, more⟩ | ⟨⟨b, member, same⟩, equality⟩)
  · rw [coherent.alone c here equality] at more
    exact Nat.lt_irrefl 1 more
  · have two : 2 ≤ (clausesOn c.node (before ++ c :: later)).length := by
      have earlier : b ∈ clausesOn c.node before := mem_clausesOn.2 ⟨member, same⟩
      have positive := List.length_pos_of_mem earlier
      unfold clausesOn at positive ⊢
      rw [List.filter_append, List.length_append, List.filter_cons_of_pos (by simp),
        List.length_cons]
      omega
    rcases equality with equality | ⟨b, member, same, equality⟩
    · rw [coherent.single two c here] at equality
      cases equality
    · rw [coherent.single two b (by simp [member, same])] at equality
      cases equality

/-- Where a clause is blamed, the clauses on its node are not coherent. -/
theorem Blames.not_coherent (blames : Blames failOn before c e) :
    ¬Coherent failOn (before ++ c :: later) c.node := by
  intro coherent
  have leaves : ∀ n, Leaves (before ++ c :: later) c.node n → Leaves (before ++ [c]) c.node n := by
    intro n all
    rw [List.append_cons] at all
    exact all.of_append
  cases kind : e.conflict with
  | redundant => exact coherent.not_overdetermined (blames.redundant.1 kind)
  | incompatible =>
      obtain ⟨n, left⟩ := coherent.left
      exact (blames.incompatible.1 kind).2 n (leaves n left)
  | failOnContradiction =>
      obtain ⟨forbidden, noZero⟩ := blames.forbidden kind
      exact noZero (leaves 0 (coherent.zero forbidden))

theorem exists_consistent_iff :
    (∃ t, consistent failOn counts = .ok t) ↔ ∀ c ∈ counts, Coherent failOn counts c.node := by
  constructor
  · rintro ⟨t, accepted⟩ c member
    exact (sums_of_consistent accepted).coherent member
  · intro coherent
    cases answer : consistent failOn counts with
    | ok t => exact ⟨t, rfl⟩
    | error e =>
        obtain ⟨before, c, later, rfl, -, -, blames⟩ := blames_of_consistent answer
        exact absurd (coherent c (by simp)) blames.not_coherent

end Coherence

/-! ## Order -/

/-- What a clause asks of which node, wherever it stands and whatever its phases. -/
def Clause.gist (c : Clause) : String × Demand :=
  (c.node, c.demand)

/-- Two lists of clauses that ask the same, in any order. -/
def SameGist (cs cs' : List Clause) : Prop :=
  (cs.map Clause.gist).Perm (cs'.map Clause.gist)

section Order

variable {failOn failOn' counts counts' cs cs' : List Clause} {t t' : Tally} {node : String}

theorem SameGist.symm (alike : SameGist cs cs') : SameGist cs' cs :=
  List.Perm.symm alike

theorem Clause.gist_eq {c c' : Clause} (same : c.gist = c'.gist) :
    c.node = c'.node ∧ c.relations = c'.relations ∧ c.isEquality = c'.isEquality := by
  obtain ⟨node, demand⟩ := Prod.mk.injEq .. ▸ same
  have relations : c.relations = c'.relations := by
    rw [Clause.relations, Clause.relations, demand]
  exact ⟨node, relations, by rw [Clause.isEquality, Clause.isEquality, relations]⟩

theorem SameGist.exists_mem (alike : SameGist cs cs') {c : Clause} (member : c ∈ cs) :
    ∃ c' ∈ cs', c.node = c'.node ∧ c.relations = c'.relations ∧ c.isEquality = c'.isEquality := by
  have among : c.gist ∈ cs'.map Clause.gist := alike.subset (List.mem_map_of_mem member)
  obtain ⟨c', member', same⟩ := List.mem_map.1 among
  exact ⟨c', member', Clause.gist_eq same.symm⟩

theorem SameGist.exists_iff (alike : SameGist cs cs') (P : String → List Relation → Prop) :
    (∃ c ∈ cs, P c.node c.relations) ↔ ∃ c ∈ cs', P c.node c.relations := by
  have one : ∀ {cs cs' : List Clause}, SameGist cs cs' →
      (∃ c ∈ cs, P c.node c.relations) → ∃ c ∈ cs', P c.node c.relations := by
    rintro cs cs' alike ⟨c, member, holds⟩
    obtain ⟨c', member', node, relations, -⟩ := alike.exists_mem member
    exact ⟨c', member', node ▸ relations ▸ holds⟩
  exact ⟨one alike, one alike.symm⟩

theorem SameGist.exists_node_iff (alike : SameGist cs cs') :
    (∃ c ∈ cs, c.node = node) ↔ ∃ c ∈ cs', c.node = node :=
  alike.exists_iff fun n _ => n = node

theorem SameGist.exists_equality_iff (alike : SameGist cs cs') :
    (∃ c ∈ cs, c.node = node ∧ c.isEquality = true) ↔
      ∃ c ∈ cs', c.node = node ∧ c.isEquality = true :=
  alike.exists_iff fun n rs => n = node ∧ (rs.any fun r => r.comparator == .eq) = true

theorem SameGist.subset_relationsOn (alike : SameGist cs cs') :
    relationsOn node cs ⊆ relationsOn node cs' := by
  intro r among
  obtain ⟨c, member, rfl, own⟩ := mem_relationsOn.1 among
  obtain ⟨c', member', same, relations, -⟩ := alike.exists_mem member
  exact mem_relationsOn.2 ⟨c', member', same.symm, relations ▸ own⟩

theorem SameGist.leaves (alike : SameGist cs cs') {n : Nat} (leaves : Leaves cs node n) :
    Leaves cs' node n :=
  fun r among => leaves r (alike.symm.subset_relationsOn among)

theorem SameGist.length_clausesOn (alike : SameGist cs cs') :
    (clausesOn node cs).length = (clausesOn node cs').length := by
  have count : ∀ cs : List Clause, (clausesOn node cs).length =
      ((cs.map Clause.gist).filter (·.1 == node)).length := fun cs => by
    rw [List.filter_map, List.length_map]
    rfl
  rw [count, count, (List.Perm.filter _ alike).length_eq]

theorem Coherent.of_sameGist (sameFailOn : SameGist failOn failOn') (sameCounts : SameGist counts counts')
    (coherent : Coherent failOn counts node) : Coherent failOn' counts' node := by
  have origin : ∀ c' ∈ clausesOn node counts', ∃ c ∈ clausesOn node counts,
      c'.relations = c.relations ∧ c'.isEquality = c.isEquality := by
    intro c' among
    obtain ⟨member, here⟩ := mem_clausesOn.1 among
    obtain ⟨c, member', same, relations, equality⟩ := sameCounts.symm.exists_mem member
    exact ⟨c, mem_clausesOn.2 ⟨member', same.symm.trans here⟩, relations, equality⟩
  constructor
  case alone =>
    intro c' among equality
    obtain ⟨c, among', relations, same⟩ := origin c' among
    rw [relations]
    exact coherent.alone c among' (same ▸ equality)
  case single =>
    intro two c' among
    obtain ⟨c, among', -, same⟩ := origin c' among
    rw [same]
    exact coherent.single (sameCounts.length_clausesOn ▸ two) c among'
  case left =>
    obtain ⟨n, left⟩ := coherent.left
    exact ⟨n, sameCounts.leaves left⟩
  case zero =>
    exact fun forbidden =>
      sameCounts.leaves (coherent.zero (sameFailOn.exists_node_iff.2 forbidden))

/-- Clauses that ask the same have one tally. -/
theorem Tally.Totals.eq_of_sameGist (alike : SameGist cs cs') (totals : t.Totals cs)
    (totals' : t'.Totals cs') : t = t' := by
  refine Tally.eq_of_get? totals.ordered totals'.ordered fun node => ?_
  have keys : (∃ k, t.get? node = some k) ↔ ∃ k, t'.get? node = some k := by
    rw [totals.keys, totals'.keys, alike.exists_node_iff]
  cases known : t.get? node with
  | none =>
      cases known' : t'.get? node with
      | none => rfl
      | some k' => simp [known, known'] at keys
  | some k =>
      obtain ⟨k', known'⟩ := keys.1 ⟨k, known⟩
      have permitted : k.permitted = k'.permitted := by
        rw [totals.permitted node k known, totals'.permitted node k' known']
        refine CountSet.eq_of_permits fun n => ?_
        rw [CountSet.permits_ofRelations, CountSet.permits_ofRelations, Bool.eq_iff_iff,
          ← leaves_iff, ← leaves_iff]
        exact ⟨alike.leaves, alike.symm.leaves⟩
      have hasEquality : k.hasEquality = k'.hasEquality := by
        rw [Bool.eq_iff_iff, totals.hasEquality node k known, totals'.hasEquality node k' known']
        exact alike.exists_equality_iff
      obtain ⟨_, _⟩ := k
      rw [known', show k' = _ from congrArg₂ NodeCounts.mk hasEquality.symm permitted.symm]

theorem consistent_of_sameGist (sameFailOn : SameGist failOn failOn') (sameCounts : SameGist counts counts')
    (accepted : consistent failOn counts = .ok t) : consistent failOn' counts' = .ok t := by
  have coherent : ∀ c' ∈ counts', Coherent failOn' counts' c'.node := by
    intro c' member'
    obtain ⟨c, member, same⟩ := sameCounts.exists_node_iff.2 ⟨c', member', rfl⟩
    rw [← same]
    exact (exists_consistent_iff.1 ⟨t, accepted⟩ c member).of_sameGist sameFailOn sameCounts
  obtain ⟨t', accepted'⟩ := exists_consistent_iff.2 coherent
  rw [accepted', (sums_of_consistent accepted).totals.eq_of_sameGist sameCounts
    (sums_of_consistent accepted').totals]

end Order

/-- **Acceptance is a condition on each node, whatever the order of the clauses.** Clauses are
accepted iff those on each node are coherent. The tally then has the nodes of the clauses and their
totals, and neither the order of the clauses nor their phases or places change it. -/
theorem consistent_iff_coherent (failOn counts : List Clause) :
    ((∃ t, consistent failOn counts = .ok t) ↔ ∀ c ∈ counts, Coherent failOn counts c.node) ∧
    (∀ t, consistent failOn counts = .ok t → t.Totals counts) ∧
    ∀ failOn' counts', SameGist failOn failOn' → SameGist counts counts' →
      ∀ t, consistent failOn counts = .ok t ↔ consistent failOn' counts' = .ok t :=
  ⟨exists_consistent_iff, fun _ accepted => (sums_of_consistent accepted).totals,
    fun _ _ sameFailOn sameCounts _ => ⟨consistent_of_sameGist sameFailOn sameCounts,
      consistent_of_sameGist sameFailOn.symm sameCounts.symm⟩⟩

/-- The clauses of `generous` the other way round, at other places and in a phase. -/
def generousAround : List Clause :=
  [⟨"STORE", .counts [⟨.gt, 62⟩, ⟨.ne, 7⟩], none, ⟨3, 17⟩⟩,
    ⟨"LOAD", .counts [⟨.le, 1⟩], some [.afterParsing], ⟨19, 27⟩⟩]

theorem consistent_iff_coherent_loads :
    (∃ t, consistent noLoads generous = .ok t ∧ t.Totals generous ∧
      consistent noLoads generousAround = .ok t) ∧
    Coherent noLoads generous "LOAD" ∧ ¬∀ c ∈ overdrawn, Coherent noLoads overdrawn c.node := by
  have accepted : consistent noLoads generous =
      .ok [("LOAD", ⟨false, ⟨0x3⟩⟩), ("STORE", ⟨false, ⟨0x8000000000000000⟩⟩)] := by
    decide +kernel
  have refused : consistent noLoads overdrawn =
      .error ⟨.failOnContradiction, "LOAD", "LOAD >3"⟩ := by
    decide +kernel
  obtain ⟨coherent, totals, around⟩ := consistent_iff_coherent noLoads generous
  refine ⟨⟨_, accepted, totals _ accepted,
    (around noLoads generousAround (.refl _) (.swap _ _ _) _).1 accepted⟩,
    coherent.1 ⟨_, accepted⟩ (plainClause "LOAD" (.counts [⟨.le, 1⟩])) (by simp [generous]), ?_⟩
  rw [← (consistent_iff_coherent noLoads overdrawn).1, refused]
  simp

end DumpRules
