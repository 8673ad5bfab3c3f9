import DumpRules.Proofs.Independence
import DumpRules.Proofs.Reports
import DumpRules.Proofs.RoundTrip

/-!
# Failure records are truthful

A record of a failure names a clause by its list and its number, and says in words what was expected
of the count. `Truthful` holds it to both: the words, read again as a clause of their own, make the
demand of the clause that is named, and the count that was observed does not meet it. The words come
from the constraint and not from the clause; the two agree since no clause that bounds a count is
read without relations (`expected_of_resolve`). `failures_truthful` says this of every record of
every check.
-/

namespace DumpRules

set_option autoImplicit false

open Grammar

/-! ## What is expected, as a clause -/

/-- A text with blanks in place of its commas. -/
def spaced (text : String) : String :=
  String.ofList (text.toList.map fun c => if c = ',' then ' ' else c)

/-- What a list asks of the counts of a clause's node: that there is none, or the relations of the
clause. -/
def ListKind.asks : ListKind → Clause → List Relation
  | .failOn, _ => [⟨.eq, 0⟩]
  | .counts, c => c.relations

theorem Clause.WellRead.asks_ne_nil {kind : ListKind} {c : Clause} (well : c.WellRead kind) :
    kind.asks c ≠ [] := by
  cases kind with
  | failOn => exact List.cons_ne_nil _ _
  | counts => exact well.related rfl

theorem Clause.WellRead.expected_eq {kind : ListKind} {c : Clause} (well : c.WellRead kind) :
    c.expected = expectedText (kind.asks c) := by
  cases kind with
  | failOn =>
      rw [Clause.expected, well.demand_failOn]
      show "=0" = expectedText [⟨.eq, 0⟩]
      decide +kernel
  | counts =>
      rw [Clause.expected, well.demand_counts]
      rfl

/-- A count is not as a clause demands iff it breaks a relation that is asked of it. -/
theorem Clause.WellRead.not_holds_iff {kind : ListKind} {c : Clause} (well : c.WellRead kind)
    (count : Nat) : ¬c.demand.Holds count ↔ ∃ r ∈ kind.asks c, r.holds count = false := by
  cases kind with
  | failOn =>
      simp [well.demand_failOn, Demand.Holds, ListKind.asks, Relation.holds, Comparator.holds]
  | counts =>
      rw [well.demand_counts]
      simp [Demand.Holds, ListKind.asks]

/-- A constraint expects what its clause does. -/
theorem expected_of_resolve {catalog : Catalog} {kind : ListKind} {c : Clause}
    (well : c.WellRead kind) {index : Nat} {p : Phase} {x : Constraint}
    (resolved : Constraint.resolve catalog index c p = .ok x) : x.expected = c.expected := by
  obtain ⟨pattern, -, rfl⟩ := resolve_eq_ok_iff.1 resolved
  cases kind with
  | failOn =>
      simp [Constraint.expected, Clause.expected, Clause.relations, well.demand_failOn]
  | counts =>
      have related := well.related rfl
      rw [Clause.expected, well.demand_counts]
      simp [Constraint.expected, related]

theorem comma_notMem_text (r : Relation) : ',' ∉ r.text.toList := by
  rw [Relation.text, String.toList_append, List.mem_append, not_or]
  constructor
  · cases r.comparator <;> decide
  · intro member
    cases isDigit_of_mem_toString member

/-- Relations as they are expected are written as those of a clause, once the commas are gone. -/
theorem toList_spaced_expectedText {rs : List Relation} (filled : rs ≠ []) :
    ' ' :: (spaced (expectedText rs)).toList = rs.flatMap fun r => ' ' :: r.text.toList := by
  have kept : ∀ r : Relation, (r.text.toList.map fun c => if c = ',' then ' ' else c) =
      r.text.toList := by
    intro r
    refine (List.map_congr_left fun c member => if_neg ?_).trans (List.map_id _)
    rintro rfl
    exact comma_notMem_text r member
  obtain ⟨r, rs, rfl⟩ := List.exists_cons_of_ne_nil filled
  rw [spaced, String.toList_ofList, expectedText, List.map_cons, toList_intercalate_cons,
    List.map_append, kept, List.map_flatMap, List.flatMap_map, List.flatMap_cons, List.cons_append]
  simp [kept]

/-! ## Truthful records -/

/-- The clause that is named by a record makes the demand that the record puts into words, and what
was observed does not meet it. -/
structure Failure.Truthful (cs : Clauses) (f : Failure) (c back : Clause) : Prop where
  named : ∃ i, f.index = i + 1 ∧ (cs.of f.kind)[i]? = some c
  node : f.node = c.node
  read : readCounts (f.node ++ " " ++ spaced f.expected) = .ok [back]
  unprefixed : back.phases = none
  again : back.node = f.node
  relations : back.demand = .counts (f.kind.asks c)
  broken : ∃ r ∈ f.kind.asks c, r.holds f.observed = false

/-- The words of a record can be read as a clause. -/
theorem exists_read_expected {node : String} (ident : IsIdent node) {rs : List Relation}
    (filled : rs ≠ []) :
    ∃ back, readCounts (node ++ " " ++ spaced (expectedText rs)) = .ok [back] ∧
      back.phases = none ∧ back.node = node ∧ back.demand = .counts rs := by
  have text : printed [⟨node, .counts rs, none, ⟨0, 0⟩⟩] =
      node ++ " " ++ spaced (expectedText rs) := by
    rw [← String.toList_inj, toList_printed_cons, Clause.toList_text, printedTail,
      List.flatMap_nil, List.append_nil, String.toList_append, String.toList_append,
      List.append_assoc]
    exact congrArg (node.toList ++ ·) (toList_spaced_expectedText filled).symm
  have writable : Clause.Writable .counts ⟨node, .counts rs, none, ⟨0, 0⟩⟩ :=
    ⟨⟨rfl, fun _ => filled, by simp⟩, ident⟩
  obtain ⟨list, read, alike⟩ := readBack_of_writable (List.forall_mem_singleton.2 writable)
  cases alike with
  | @cons _ back _ _ same rest =>
      cases rest
      obtain ⟨phases, node, demand⟩ := Content.mk.inj same.1
      exact ⟨back, text ▸ read, phases, node, demand⟩

/-- What fails in a bucket is what fails of its lists. -/
theorem mem_failures {b : Bucket} {text : String} {f : Failure} :
    f ∈ b.failures text ↔ ∃ kind, ∃ x ∈ b.of kind, Constraint.check kind text x = some f := by
  rw [Bucket.failures, List.mem_append, List.mem_filterMap, List.mem_filterMap]
  constructor
  · rintro (found | found)
    · exact ⟨.failOn, found⟩
    · exact ⟨.counts, found⟩
  · rintro ⟨kind, found⟩
    cases kind with
    | failOn => exact .inl found
    | counts => exact .inr found

/-- A failure in the results of a plan is one of a bucket of it, in some text. -/
theorem exists_bucket_of_mem_results {plan : Plan} {dumps : Dumps} {r : PhaseResult} {f : Failure}
    (result : r ∈ plan.results dumps) (failure : f ∈ r.failures) :
    ∃ b text, (r.phase, b) ∈ plan ∧ f ∈ b.failures text := by
  rw [Plan.results_eq, List.mem_map] at result
  obtain ⟨⟨p, b⟩, filled, rfl⟩ := result
  have among := List.mem_of_mem_filter filled
  cases dumped : dumps.text? p with
  | none =>
      rw [evaluate_of_absent dumped] at failure
      cases failure
  | some text =>
      by_cases clean : b.failures text = []
      · rw [evaluate_of_clean dumped clean] at failure
        cases failure
      · rw [evaluate_of_failures dumped clean] at failure ⊢
        exact ⟨b, text, among, failure⟩

/-- The records of the constraints that a clause has in some phase. -/
theorem truthful_of_check {catalog : Catalog} {cs : Clauses} {kind : ListKind} {i : Nat}
    {c : Clause} {p : Phase} {x : Constraint} {text : String} {f : Failure}
    (writable : c.Writable kind) (place : (cs.of kind)[i]? = some c)
    (resolved : Constraint.resolve catalog (i + 1) c p = .ok x)
    (failed : Constraint.check kind text x = some f) : ∃ c back, f.Truthful cs c back := by
  have well := writable.toWellRead
  obtain ⟨pattern, -, rfl⟩ := resolve_eq_ok_iff.1 resolved
  rw [check_constraint well, ite_eq_iff] at failed
  obtain ⟨-, ⟨⟩⟩ | ⟨broken, ⟨⟩⟩ := failed
  obtain ⟨back, read, phases, node, demand⟩ :=
    exists_read_expected writable.ident well.asks_ne_nil
  obtain rfl := well.kind
  refine ⟨c, back, ⟨i, rfl, place⟩, rfl, ?_, phases, node, demand, ?_⟩
  · show readCounts (c.node ++ " " ++ spaced c.expected) = .ok [back]
    rw [well.expected_eq, read]
  · exact (well.not_holds_iff _).1 broken

theorem writable_of_readClauses {failOn counts : String} {cs : Clauses}
    (read : readClauses failOn counts = .ok cs) (kind : ListKind) :
    ∀ c ∈ cs.of kind, c.Writable kind := by
  obtain ⟨forbidden, bounded⟩ := readClauses_eq_ok_iff.1 read
  cases kind with
  | failOn => exact writable_of_read (show ListKind.failOn.read failOn = _ from forbidden)
  | counts => exact writable_of_read (show ListKind.counts.read counts = _ from bounded)

theorem truthful_of_follows {machine : Machine} {catalog : Catalog} {number : Nat}
    {d : RuleDeclaration} {rule : PreparedRule} (follows : rule.Follows machine catalog number d)
    (dumps : Dumps) :
    ∀ r ∈ (rule.report dumps).phases, ∀ f ∈ r.failures,
      ∃ c back, f.Truthful rule.rule.clauses c back := by
  intro r result f failure
  have accepted := follows.accepted
  cases applies : rule.rule.isApplicable machine with
  | false =>
      rw [RuleReport.phases, PreparedRule.outcome_of_skipped (follows.skipped applies)] at result
      cases result
  | true =>
      obtain ⟨plan, planned, fits⟩ := follows.fits ((isApplicable_iff accepted).1 applies)
      rw [RuleReport.phases, PreparedRule.outcome_of_planned planned] at result
      obtain ⟨b, text, bucket, failed⟩ := exists_bucket_of_mem_results result failure
      obtain ⟨kind, x, member, failed⟩ := mem_failures.1 failed
      rw [fits.buckets r.phase b bucket kind] at member
      obtain ⟨i, c, place, -, resolved⟩ := mem_slots.1 member
      have writable := writable_of_readClauses accepted.read kind c (List.mem_of_getElem? place)
      exact truthful_of_check writable place resolved failed

/-- **Failure records are truthful.** Each names a clause of the declaration that it reports on,
puts the demand of that clause into words, and tells of a count that does not meet it. A constraint
and its clause use the same words. -/
theorem failures_truthful :
    (∀ mode machine catalog dumps ds reports,
      (checkRulesIn mode machine catalog dumps ds).value = .ok reports →
      ∀ (n : Nat) (report : RuleReport), reports[n]? = some report →
        ∃ d cs, ds[n]? = some d ∧ readClauses d.failOn d.counts = .ok cs ∧
          ∀ r ∈ report.phases, ∀ f ∈ r.failures, ∃ c back, f.Truthful cs c back) ∧
    ∀ failOn counts cs, readClauses failOn counts = .ok cs → ∀ c ∈ cs.all,
      ∀ catalog index p x, Constraint.resolve catalog index c p = .ok x →
        x.expected = c.expected := by
  constructor
  · intro mode machine catalog dumps ds reports checked n report found
    rw [checkRulesIn_eq, checkRules_value] at checked
    obtain ⟨prepared, ready, rfl⟩ := map_eq_ok.1 checked
    obtain ⟨length, each⟩ := prepared_of_prepareRules ready
    rw [List.getElem?_map, Option.map_eq_some_iff] at found
    obtain ⟨rule, at_n, rfl⟩ := found
    obtain ⟨inside, -⟩ := List.getElem?_eq_some_iff.1 at_n
    obtain ⟨d, declared⟩ : ∃ d, ds[n]? = some d :=
      ⟨_, List.getElem?_eq_getElem (length ▸ inside)⟩
    obtain ⟨rule', at_n', follows⟩ := each n d declared
    cases at_n.symm.trans at_n'
    exact ⟨d, rule.rule.clauses, declared, follows.accepted.read, truthful_of_follows follows dumps⟩
  · intro failOn counts cs read c member catalog index p x resolved
    obtain ⟨kind, among⟩ := Clauses.mem_all.1 member
    exact expected_of_resolve (wellRead_of_readClauses read kind c among) resolved

/-- A rule of which both lists fail. -/
def crowdedRule : RuleDeclaration where
  failOn := "STORE"
  counts := "LOAD >0, AFTER_PARSING: LOAD >=1 <3"

def crowdedReports : List RuleReport :=
  [⟨1, none, .evaluated
     [⟨.afterParsing, .fail [⟨.counts, 2, "LOAD", "\\bLOAD\\b", 3, ">=1,<3"⟩]⟩,
      ⟨.finalCode, .absent⟩,
      ⟨.printIdeal, .fail [⟨.failOn, 1, "STORE", "ST+ORE", 1, "=0"⟩]⟩]⟩]

theorem failures_truthful_crowded :
    ∃ registry, Registry.ofEntries loadEntries = .ok registry ∧
      (checkRulesIn .parallel (Setup.mk registry loadFlags).machine
        (Setup.mk registry loadFlags).catalog loadDumps [crowdedRule]).value =
        .ok crowdedReports ∧
      ∃ cs, readClauses crowdedRule.failOn crowdedRule.counts = .ok cs ∧
        (∃ c back, Failure.Truthful cs ⟨.failOn, 1, "STORE", "ST+ORE", 1, "=0"⟩ c back) ∧
        ∃ c back, Failure.Truthful cs ⟨.counts, 2, "LOAD", "\\bLOAD\\b", 3, ">=1,<3"⟩ c back := by
  have run : (Registry.ofEntries loadEntries).map (fun registry =>
      (checkRulesIn .parallel (Setup.mk registry loadFlags).machine
        (Setup.mk registry loadFlags).catalog loadDumps [crowdedRule]).value) =
      .ok (.ok crowdedReports) := by
    decide +kernel
  obtain ⟨registry, taken, checked⟩ := map_eq_ok.1 run
  obtain ⟨d, cs, declared, read, truthful⟩ :=
    failures_truthful.1 _ _ _ _ _ _ checked 0 _ rfl
  cases declared
  refine ⟨registry, taken, checked, cs, read, ?_, ?_⟩
  · exact truthful ⟨.printIdeal, .fail [_]⟩ (by decide) _ List.mem_cons_self
  · exact truthful ⟨.afterParsing, .fail [_]⟩ (by decide) _ List.mem_cons_self

end DumpRules
