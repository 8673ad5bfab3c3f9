import DumpRules.Proofs.Acceptance
import DumpRules.Proofs.Grammar.Entries

/-!
# Lists that are put together

One bad entry hides or alters no other. Entries are judged one by one and wherever they stand
(`EntryLaws`), and two lists with a comma between them are one list, so reading the one list gives
what reading the two gives, with the places of the second moved on: `ListKind.read_compose`. The
last section is about results as such: what the faults of both lists of a rule are, and that
several faults are never reported for one. All of it together is `reading_composes`.
-/

namespace DumpRules

set_option autoImplicit false

open Grammar

/-! ## Results -/

/-- Reads one of the two lists. -/
def ListKind.read : ListKind → String → Except ListError (List Clause)
  | .failOn => readFailOn
  | .counts => readCounts

/-- The text is no list at all. -/
def Fault.IsSyntax (f : Fault) : Prop :=
  ∃ expected, f = .unexpected expected

/-- A text is a list by its grammar, whatever its entries are. -/
def Grammatical (result : Except ListError (List Clause)) : Prop :=
  ∀ e, result = .error (.one e) → ¬e.fault.IsSyntax

/-- The faults of a result, in order. -/
def faultsOf {α : Type} : Except ListError α → List ClauseError
  | .ok _ => []
  | .error e => e.leaves

def Clause.moved (n : Nat) (c : Clause) : Clause :=
  { c with span := c.span.moved n }

def ClauseError.moved (n : Nat) (e : ClauseError) : ClauseError :=
  { e with span := e.span.moved n }

/-- What two lists give together if the second stands `n` bytes further on: the clauses of both, or
else the faults of both. -/
def joined (n : Nat) :
    Except ListError (List Clause) → Except ListError (List Clause) → Except ListError (List Clause)
  | .ok xs, .ok ys => .ok (xs ++ ys.map (.moved n))
  | x, y => .error (.ofLeaves (faultsOf x ++ (faultsOf y).map (.moved n)))

theorem joined_of_some {n : Nat} {x y : Except ListError (List Clause)}
    (faulty : faultsOf x ++ (faultsOf y).map (.moved n) ≠ []) :
    joined n x y = .error (.ofLeaves (faultsOf x ++ (faultsOf y).map (.moved n))) := by
  cases x <;> cases y
  case ok.ok => exact absurd rfl faulty
  all_goals rfl

/-! ## Entries are judged wherever they stand -/

/-- A fault that stands `n` bytes further on. -/
def movedFault (n : Nat) (f : Span × Fault) : Span × Fault :=
  (f.1.moved n, f.2)

/-- What is known of a kind of entries: places only move with them, and none of their faults says
that the text is no list. -/
structure EntryLaws {α : Type} (item : Scanner α) (move : Nat → α → α)
    (faults : α → List (Span × Fault)) (clause : α → Clause) : Prop extends Placed item move where
  faults_move : ∀ n a, faults (move n a) = (faults a).map (movedFault n)
  clause_move : ∀ n a, clause (move n a) = (clause a).moved n
  listed : ∀ a, ∀ f ∈ faults a, ¬f.2.IsSyntax

theorem phaseFaults_moved (n : Nat) (node : String) (seen : List Phase) (names : List Token) :
    phaseFaults node seen (names.map (Token.moved n)) =
      (phaseFaults node seen names).map (movedFault n) := by
  induction names generalizing seen with
  | nil => rfl
  | cons t later ih =>
      simp only [List.map_cons, phaseFaults, Token.moved]
      split
      · rw [ih]; rfl
      · rw [ih]; rfl
      · split
        · rw [ih]; rfl
        · rw [ih]

theorem not_syntax_of_mem_phaseFaults {node : String} {seen : List Phase} {names : List Token} :
    ∀ f ∈ phaseFaults node seen names, ¬f.2.IsSyntax := by
  fun_induction phaseFaults node seen names with
  | case1 => simp
  | case2 seen t later unknown ih | case3 seen t later placeholder ih
  | case4 seen t later p known other repeated ih =>
      exact List.forall_mem_cons.2 ⟨by simp [Fault.IsSyntax], ih⟩
  | case5 seen t later p known other fresh ih => exact ih

theorem entryLaws_nodeRef : EntryLaws nodeRef NodeRef.moved NodeRef.faults NodeRef.clause where
  toPlaced := placed_nodeRef
  faults_move n r := by
    obtain ⟨_ | names, node, span⟩ := r
    · rfl
    · exact phaseFaults_moved n node.text [] names
  clause_move n r := by
    obtain ⟨_ | names, node, span⟩ := r
    · rfl
    · simp only [NodeRef.clause, NodeRef.phaseList, NodeRef.moved, Clause.moved, Option.map_some,
        List.filterMap_map]
      rfl
  listed r := by
    obtain ⟨_ | names, node, span⟩ := r
    · simp [NodeRef.faults]
    · exact not_syntax_of_mem_phaseFaults

theorem relationFaults_moved (n : Nat) (node : String) (t : RelationTerm) :
    (t.moved n).faults node = (t.faults node).map (movedFault n) := by
  obtain ⟨_ | c, _ | b, span⟩ := t <;>
    simp only [RelationTerm.faults, RelationTerm.comparatorFaults, RelationTerm.boundFaults,
      RelationTerm.moved, Token.moved, Option.map_some, Option.map_none] <;>
    repeat' split
  all_goals rfl

theorem relation?_moved (n : Nat) (t : RelationTerm) : (t.moved n).relation? = t.relation? := by
  obtain ⟨_ | c, _ | b, span⟩ := t <;> rfl

theorem not_syntax_of_mem_relationFaults {node : String} {t : RelationTerm} :
    ∀ f ∈ t.faults node, ¬f.2.IsSyntax := by
  obtain ⟨_ | c, _ | b, span⟩ := t <;>
    simp only [RelationTerm.faults, RelationTerm.comparatorFaults, RelationTerm.boundFaults] <;>
    repeat' split
  all_goals simp [Fault.IsSyntax]

theorem entryLaws_countsEntry : EntryLaws countsEntry Entry.moved Entry.faults Entry.clause where
  toPlaced := placed_countsEntry
  faults_move n e := by
    have ref := entryLaws_nodeRef.faults_move n e.ref
    have lacking : (e.moved n).relations.isEmpty = e.relations.isEmpty := List.isEmpty_map
    have related : (e.moved n).relations.flatMap (RelationTerm.faults e.ref.node.text) =
        (e.relations.flatMap (RelationTerm.faults e.ref.node.text)).map (movedFault n) := by
      rw [Entry.moved, List.flatMap_map, List.map_flatMap]
      exact congrArg (List.flatMap · e.relations) (funext (relationFaults_moved n _))
    rw [Entry.faults, Entry.faults, lacking, List.map_append, List.map_append, ← related, ← ref]
    split <;> rfl
  clause_move n e := by
    have phases : (e.moved n).ref.phaseList = e.ref.phaseList :=
      congrArg Clause.phases (entryLaws_nodeRef.clause_move n e.ref)
    have related : (e.moved n).relations.filterMap RelationTerm.relation? =
        e.relations.filterMap RelationTerm.relation? := by
      rw [Entry.moved, List.filterMap_map]
      exact congrArg (List.filterMap · e.relations) (funext fun t => relation?_moved n t)
    rw [Entry.clause, related, phases]
    rfl
  listed e := by
    have related : ∀ f ∈ e.relations.flatMap (RelationTerm.faults e.ref.node.text), ¬f.2.IsSyntax := by
      intro f member
      obtain ⟨t, -, member⟩ := List.mem_flatMap.1 member
      exact not_syntax_of_mem_relationFaults f member
    have lacking : ∀ f ∈ (if e.relations.isEmpty then
        [(e.span, Fault.missingRelation e.ref.node.text)] else []), ¬f.2.IsSyntax := by
      split <;> simp [Fault.IsSyntax]
    exact List.forall_mem_append.2
      ⟨List.forall_mem_append.2 ⟨entryLaws_nodeRef.listed e.ref, lacking⟩, related⟩

/-! ## Reading a list -/

section Lists

variable {α : Type} {item : Scanner α} {move : Nat → α → α} {faults : α → List (Span × Fault)}
  {clause : α → Clause} {list : ListKind} {rule : Rule} {consumes : item.Consumes}

theorem readList_of_listed {source : String} {as : List α}
    (listed : Listed item ⟨0, source.toList⟩ as) :
    readList list (wholeList rule item consumes) faults clause source =
      judge list faults clause as := by
  obtain ⟨stop, read⟩ := (wholeList_iff_listed consumes).2 listed
  rw [readList, scanAll, read]

theorem faultsOf_judge (as : List α) :
    faultsOf (judge list faults clause as) =
      (as.flatMap faults).map fun f => ⟨list, f.1, f.2⟩ := by
  unfold judge
  split
  · rename_i clean
    rw [clean]
    rfl
  · exact ListError.leaves_ofLeaves _

theorem judge_of_none {as : List α} (clean : as.flatMap faults = []) :
    judge list faults clause as = .ok (as.map clause) := by
  rw [judge, clean]

theorem judge_of_some {as : List α} (faulty : as.flatMap faults ≠ []) :
    judge list faults clause as =
      .error (.ofLeaves (faultsOf (judge list faults clause as))) := by
  rw [faultsOf_judge]
  unfold judge
  split
  · contradiction
  · rfl

variable (laws : EntryLaws item move faults clause)

include laws

theorem grammatical_iff {source : String} :
    Grammatical (readList list (wholeList rule item consumes) faults clause source) ↔
      ∃ as, Listed item ⟨0, source.toList⟩ as := by
  constructor
  · intro grammatical
    cases read : (wholeList rule item consumes ⟨0, source.toList⟩).result with
    | some x => exact ⟨x.1, (wholeList_iff_listed consumes).1 ⟨x.2, read⟩⟩
    | none =>
        obtain ⟨u, failed⟩ :
            ∃ u, scanAll (wholeList rule item consumes) source.toList = .error u := by
          rw [scanAll, read]
          exact ⟨_, rfl⟩
        refine absurd ⟨u.expected, rfl⟩ (grammatical ⟨list, u.span, .unexpected u.expected⟩ ?_)
        rw [readList, failed]
  · rintro ⟨as, listed⟩ e single
    rw [readList_of_listed listed] at single
    have member : e ∈ faultsOf (judge list faults clause as) := by
      rw [single]
      exact List.mem_singleton_self e
    rw [faultsOf_judge] at member
    obtain ⟨f, found, rfl⟩ := List.mem_map.1 member
    obtain ⟨a, -, found⟩ := List.mem_flatMap.1 found
    exact laws.listed a f found

theorem judge_append (n : Nat) (as bs : List α) :
    judge list faults clause (as ++ bs.map (move n)) =
      joined n (judge list faults clause as) (judge list faults clause bs) := by
  have moved : (bs.map (move n)).flatMap faults = (bs.flatMap faults).map (movedFault n) := by
    rw [List.flatMap_map, List.map_flatMap]
    exact congrArg (List.flatMap · bs) (funext (laws.faults_move n))
  have all : (as ++ bs.map (move n)).flatMap faults =
      as.flatMap faults ++ (bs.flatMap faults).map (movedFault n) := by
    rw [List.flatMap_append, moved]
  have reported : faultsOf (judge list faults clause (as ++ bs.map (move n))) =
      faultsOf (judge list faults clause as) ++
        (faultsOf (judge list faults clause bs)).map (.moved n) := by
    simp only [faultsOf_judge, all, List.map_append, List.map_map]
    rfl
  by_cases clean : as.flatMap faults = [] ∧ bs.flatMap faults = []
  · obtain ⟨first, second⟩ := clean
    rw [judge_of_none first, judge_of_none second, joined, judge_of_none (by simp [all, first, second])]
    have each : clause ∘ move n = Clause.moved n ∘ clause := funext (laws.clause_move n)
    rw [List.map_append, List.map_map, List.map_map, each]
  · have faulty : (as ++ bs.map (move n)).flatMap faults ≠ [] := by
      simpa [all] using clean
    rw [judge_of_some faulty, reported, joined_of_some]
    rw [← reported, faultsOf_judge]
    simpa using faulty

theorem listed_compose {a b : String} {cs : List α} :
    Listed item ⟨0, (a ++ "," ++ b).toList⟩ cs ↔
      Unclosed a.toList ∧ ∃ as bs, cs = as ++ bs.map (move (byteLength a.toList + 1)) ∧
        Listed item ⟨0, a.toList⟩ as ∧ Listed item ⟨0, b.toList⟩ bs := by
  have split : (a ++ "," ++ b).toList = a.toList ++ ',' :: b.toList := by simp
  have place : (⟨0 + byteLength a.toList + 1, b.toList⟩ : Cursor) =
      Cursor.moved (byteLength a.toList + 1) [] ⟨0, b.toList⟩ := by
    simp [Cursor.moved]
  rw [split, listed_append_comma laws.toPlaced, place]
  refine and_congr_right fun _ => ⟨?_, ?_⟩
  · rintro ⟨as, moved, rfl, first, second⟩
    obtain ⟨bs, here, rfl⟩ := (listed_moved laws.toPlaced).1 second
    exact ⟨as, bs, rfl, first, here⟩
  · rintro ⟨as, bs, rfl, first, second⟩
    exact ⟨as, _, rfl, first, (listed_moved laws.toPlaced).2 ⟨bs, second, rfl⟩⟩

/-- Reading two lists with a comma between them. -/
theorem readList_compose (a b : String) {read : String → Except ListError (List Clause)}
    (reads : read = readList list (wholeList rule item consumes) faults clause) :
    (Grammatical (read (a ++ "," ++ b)) ↔
      Grammatical (read a) ∧ Grammatical (read b) ∧ Unclosed a.toList) ∧
    (Grammatical (read (a ++ "," ++ b)) →
      read (a ++ "," ++ b) = joined (byteLength a.toList + 1) (read a) (read b)) := by
  subst reads
  simp only [grammatical_iff laws, listed_compose laws]
  constructor
  · constructor
    · rintro ⟨_, unclosed, as, bs, -, first, second⟩
      exact ⟨⟨as, first⟩, ⟨bs, second⟩, unclosed⟩
    · rintro ⟨⟨as, first⟩, ⟨bs, second⟩, unclosed⟩
      exact ⟨_, unclosed, as, bs, rfl, first, second⟩
  · rintro ⟨cs, unclosed, as, bs, rfl, first, second⟩
    have whole := (listed_compose laws).2 ⟨unclosed, as, bs, rfl, first, second⟩
    rw [readList_of_listed whole, readList_of_listed first, readList_of_listed second,
      judge_append laws]

end Lists

theorem ListKind.read_compose (kind : ListKind) (a b : String) :
    (Grammatical (kind.read (a ++ "," ++ b)) ↔
      Grammatical (kind.read a) ∧ Grammatical (kind.read b) ∧ Unclosed a.toList) ∧
    (Grammatical (kind.read (a ++ "," ++ b)) →
      kind.read (a ++ "," ++ b) = joined (byteLength a.toList + 1) (kind.read a) (kind.read b)) := by
  cases kind with
  | failOn => exact readList_compose entryLaws_nodeRef a b rfl
  | counts => exact readList_compose entryLaws_countsEntry a b rfl

/-! ## One fault or several -/

/-- A report of several faults has at least two. -/
def ListError.Fits : ListError → Prop
  | .one _ => True
  | .many es => 2 ≤ es.length

theorem ListError.fits_ofLeaves {es : List ClauseError} (nonempty : es ≠ []) :
    (ListError.ofLeaves es).Fits := by
  match es with
  | [] => contradiction
  | [e] => trivial
  | e :: e' :: later => exact Nat.le_add_left 2 later.length

theorem ListError.Fits.leaves_ne_nil {e : ListError} (fits : e.Fits) : e.leaves ≠ [] := by
  cases e with
  | one e => exact List.cons_ne_nil _ _
  | many es =>
      have two : 2 ≤ es.length := fits
      rintro rfl
      exact absurd two (by decide)

theorem fits_of_readList {α : Type} {list : ListKind} {scanner : Scanner (List α)}
    {faults : α → List (Span × Fault)} {clause : α → Clause} {source : String} {e : ListError}
    (failed : readList list scanner faults clause source = .error e) : e.Fits := by
  unfold readList at failed
  split at failed
  · cases failed
    trivial
  · unfold judge at failed
    split at failed
    · cases failed
    · rename_i faulty
      cases failed
      exact ListError.fits_ofLeaves (by simpa using faulty)

theorem ListKind.fits_of_read (kind : ListKind) {source : String} {e : ListError}
    (failed : kind.read source = .error e) : e.Fits := by
  cases kind <;> exact fits_of_readList failed

theorem fits_of_readClauses {failOn counts : String} {e : ListError}
    (failed : readClauses failOn counts = .error e) : e.Fits := by
  unfold readClauses at failed
  split at failed
  · cases failed
  · rename_i forbidden bounded
    cases failed
    exact ListKind.failOn.fits_of_read forbidden
  · rename_i forbidden bounded
    cases failed
    exact ListKind.counts.fits_of_read bounded
  · rename_i forbidden bounded
    cases failed
    have filled := (ListKind.failOn.fits_of_read forbidden).leaves_ne_nil
    exact ListError.fits_ofLeaves (List.append_ne_nil_of_left_ne_nil filled _)

theorem faultsOf_readClauses (failOn counts : String) :
    faultsOf (readClauses failOn counts) =
      faultsOf (readFailOn failOn) ++ faultsOf (readCounts counts) := by
  unfold readClauses
  cases readFailOn failOn <;> cases readCounts counts <;> simp [faultsOf]

theorem unclosed_iff {text : List Char} :
    Unclosed text ↔ (∃ c ∈ text, ¬White c) ∧ (solid text).getLast? ≠ some ',' := by
  unfold Unclosed
  cases last : (solid text).getLast? with
  | none =>
      have white : ∀ c ∈ text, White c := by
        simpa [solid] using List.getLast?_eq_none_iff.1 last
      simpa using white
  | some c =>
      have member := List.mem_filter.1 (List.mem_of_getLast? last)
      have solid : ∃ c ∈ text, ¬White c := ⟨c, member.1, by simpa using member.2⟩
      simp [solid]

/-- **One bad entry hides or alters no other.** A text put together from two with a comma between
them is a list iff both are and there is something for the comma to end, and then it gives the clauses
or else the faults of the first followed by those of the second, which stand as many bytes further
on. The two lists of a rule are read each on its own, and several faults are at least two. -/
theorem reading_composes (kind : ListKind) (a b failOn counts : String) :
    (Grammatical (kind.read (a ++ "," ++ b)) ↔
      Grammatical (kind.read a) ∧ Grammatical (kind.read b) ∧
        (∃ c ∈ a.toList, ¬White c) ∧ (solid a.toList).getLast? ≠ some ',') ∧
    (Grammatical (kind.read (a ++ "," ++ b)) →
      kind.read (a ++ "," ++ b) =
        joined (a.utf8ByteSize + 1) (kind.read a) (kind.read b)) ∧
    (∀ cs, readClauses failOn counts = .ok cs ↔
      readFailOn failOn = .ok cs.failOn ∧ readCounts counts = .ok cs.counts) ∧
    faultsOf (readClauses failOn counts) =
      faultsOf (readFailOn failOn) ++ faultsOf (readCounts counts) ∧
    (∀ es, kind.read a = .error (.many es) → 2 ≤ es.length) ∧
    ∀ es, readClauses failOn counts = .error (.many es) → 2 ≤ es.length := by
  obtain ⟨grammatical, together⟩ := kind.read_compose a b
  rw [unclosed_iff] at grammatical
  rw [byteLength_toList] at together
  exact ⟨grammatical, together, fun _ => readClauses_eq_ok_iff, faultsOf_readClauses failOn counts,
    fun _ failed => kind.fits_of_read failed, fun _ failed => fits_of_readClauses failed⟩

/-- Two texts with a good and a bad entry each. -/
theorem reading_composes_bounds :
    ListKind.counts.read ("LOAD >= 1, X:ADD 2x" ++ "," ++ " DEFAULT:MUL, SUB = 3") =
      .error (.many [⟨.counts, ⟨11, 12⟩, .unknownPhase "X"⟩,
        ⟨.counts, ⟨17, 19⟩, .invalidBound "2x" "ADD"⟩,
        ⟨.counts, ⟨21, 28⟩, .placeholderPhase "MUL"⟩,
        ⟨.counts, ⟨21, 32⟩, .missingRelation "MUL"⟩]) := by
  have first : ListKind.counts.read "LOAD >= 1, X:ADD 2x" =
      .error (.many [⟨.counts, ⟨11, 12⟩, .unknownPhase "X"⟩,
        ⟨.counts, ⟨17, 19⟩, .invalidBound "2x" "ADD"⟩]) := by decide +kernel
  have second : ListKind.counts.read " DEFAULT:MUL, SUB = 3" =
      .error (.many [⟨.counts, ⟨1, 8⟩, .placeholderPhase "MUL"⟩,
        ⟨.counts, ⟨1, 12⟩, .missingRelation "MUL"⟩]) := by decide +kernel
  have several : ∀ {es : List ClauseError}, Grammatical (.error (.many es)) :=
    fun _ single => nomatch single
  obtain ⟨grammatical, together, -⟩ :=
    reading_composes .counts "LOAD >= 1, X:ADD 2x" " DEFAULT:MUL, SUB = 3" "" ""
  have unclosed : (∃ c ∈ "LOAD >= 1, X:ADD 2x".toList, ¬White c) ∧
      (solid "LOAD >= 1, X:ADD 2x".toList).getLast? ≠ some ',' :=
    ⟨⟨'L', by decide, by decide⟩, by decide +kernel⟩
  rw [together (grammatical.2 ⟨first ▸ several, second ▸ several, unclosed⟩), first, second]
  decide +kernel

end DumpRules
