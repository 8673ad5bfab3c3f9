import DumpRules.Proofs.Concatenation
import Mathlib.Data.String.Basic

/-!
# Printed lists are read back

A clause is printed in one of its written forms (`countsWritten_text`, `failOnWritten_text`), with
any text behind it that starts with a comma. The entry scanners read it there and stand where it
ends, so a printed list is read clause by clause and each stretch that is put down is the text of
its clause. What is read from any text can be printed again (`writable_of_read`), which makes
printing and reading back a closed circle: `read_printed`.
-/

namespace DumpRules

set_option autoImplicit false

open Grammar

/-! ## What can be printed -/

/-- The identifiers of nodes. -/
def IsIdent (node : String) : Prop :=
  ∃ c cs, node.toList = c :: cs ∧ NodeFirst c ∧ ∀ x ∈ cs, NodeLater x

/-- A clause that could be written in a list. -/
structure Clause.Writable (list : ListKind) (c : Clause) : Prop extends c.WellRead list where
  ident : IsIdent c.node

/-- A list of clauses as it is printed. -/
def printed (cs : List Clause) : String :=
  ", ".intercalate (cs.map Clause.text)

theorem toList_intercalate_cons (sep s : String) (ss : List String) :
    (sep.intercalate (s :: ss)).toList =
      s.toList ++ ss.flatMap fun t => sep.toList ++ t.toList := by
  induction ss generalizing s with
  | nil => simp
  | cons t ss ih =>
      have later := ih t
      rw [String.toList_intercalate, List.map_cons] at later
      rw [String.toList_intercalate, List.map_cons, List.map_cons, List.intercalate_cons_cons,
        later, List.flatMap_cons, List.append_assoc, List.append_assoc]

/-! ## The parts of a clause -/

theorem nodeWritten_of_isIdent {node : String} (ident : IsIdent node) {rest : List Char}
    (ends : Ends NodeLater rest) : NodeWritten node (node.toList ++ rest) rest := by
  obtain ⟨c, cs, text, first, later⟩ := ident
  obtain rfl : node = String.ofList (c :: cs) := by rw [← text, String.ofList_toList]
  rw [String.toList_ofList]
  exact .mk first later ends

theorem furtherPhases_written {ps : List Phase} (concrete : .placeholder ∉ ps) (rest : List Char) :
    Further (Behind '|' PhaseWritten) ps
      ((ps.flatMap fun p => '|' :: p.name.toList) ++ rest) rest := by
  induction ps with
  | nil => exact .done rest
  | cons p ps ih =>
      obtain ⟨other, concrete⟩ := not_or.1 (mt List.mem_cons.2 concrete)
      rw [List.flatMap_cons, List.cons_append, List.cons_append, List.append_assoc]
      exact .next (.refl _) (.mk (.refl _) (.mk (Ne.symm other))) (ih concrete)

theorem prefixWritten_text {ps : List Phase} (filled : ps ≠ []) (distinct : ps.Nodup)
    (concrete : .placeholder ∉ ps) (rest : List Char) :
    PrefixWritten ps (("|".intercalate (ps.map Phase.name) ++ ":").toList ++ rest) rest := by
  obtain ⟨p, ps, rfl⟩ := List.exists_cons_of_ne_nil filled
  obtain ⟨other, concrete⟩ := not_or.1 (mt List.mem_cons.2 concrete)
  have text : ("|".intercalate ((p :: ps).map Phase.name) ++ ":").toList ++ rest =
      p.name.toList ++ ((ps.flatMap fun p => '|' :: p.name.toList) ++ ':' :: rest) := by
    rw [String.toList_append, List.map_cons, toList_intercalate_cons, List.flatMap_map]
    simp
  rw [text]
  exact .mk (.mk (.mk (Ne.symm other)) (furtherPhases_written concrete _)) distinct (.refl _)
    (.refl _)

/-- A count is printed as digits that denote it. -/
theorem boundWritten_text (b : UInt64) {rest : List Char} (ends : Ends BoundLater rest) :
    BoundWritten b ((toString b.toNat).toList ++ rest) rest := by
  obtain ⟨filled, decimal, value⟩ := numeral?_eq_some_iff.1 (numeral?_toString b.toNat)
  exact .mk (.inl rfl) filled decimal value ends

theorem comparatorWritten_symbol (c : Comparator) {rest : List Char} (ends : Ends Sign rest) :
    ComparatorWritten c (c.symbol.toList ++ rest) rest := by
  refine .signs ?_ ends
  rw [String.ofList_toList]
  cases c <;> decide

theorem relationWritten_text (r : Relation) {rest : List Char} (ends : Ends BoundLater rest) :
    RelationWritten r (r.text.toList ++ rest) rest := by
  have bound := boundWritten_text r.bound ends
  obtain ⟨x, xs, front, first⟩ := bound.front
  have sign : Ends Sign ((toString r.bound.toNat).toList ++ rest) := by
    rw [front]
    exact .cons (not_sign_letter_of_digit first).1 _
  rw [Relation.text, String.toList_append, List.append_assoc]
  exact .compared (comparatorWritten_symbol _ sign) (.refl _) bound

theorem furtherRelations_written (rs : List Relation) {rest : List Char}
    (ends : Ends BoundLater rest) :
    Ends BoundLater ((rs.flatMap fun r => ' ' :: r.text.toList) ++ rest) ∧
      Further RelationWritten rs ((rs.flatMap fun r => ' ' :: r.text.toList) ++ rest) rest := by
  induction rs with
  | nil => exact ⟨ends, .done rest⟩
  | cons r rs ih =>
      obtain ⟨before, later⟩ := ih
      rw [List.flatMap_cons, List.cons_append, List.cons_append, List.append_assoc]
      refine ⟨.cons (by decide) _, .next ⟨[' '], ?_, rfl⟩ (relationWritten_text r before) later⟩
      exact List.forall_mem_singleton.2 (by decide)

/-! ## Clauses and lists -/

theorem Clause.toList_text (c : Clause) :
    c.text.toList =
      (match c.phases with
        | none => []
        | some ps => ("|".intercalate (ps.map Phase.name) ++ ":").toList) ++
      (c.node.toList ++ c.relations.flatMap fun r => ' ' :: r.text.toList) := by
  rw [Clause.text, String.toList_append, String.toList_append, String.toList_join, List.flatMap_map,
    List.append_assoc]
  congr 1
  · cases c.phases <;> rfl
  · simp

theorem refWritten_text {list : ListKind} {c : Clause} (writable : c.Writable list)
    {rest : List Char}
    (ends : Ends NodeLater ((c.relations.flatMap fun r => ' ' :: r.text.toList) ++ rest)) :
    RefWritten (c.phases, c.node) (c.text.toList ++ rest)
      ((c.relations.flatMap fun r => ' ' :: r.text.toList) ++ rest) := by
  have node := nodeWritten_of_isIdent writable.ident ends
  rw [c.toList_text, List.append_assoc, List.append_assoc]
  cases phases : c.phases with
  | none => exact .plain node
  | some ps =>
      obtain ⟨filled, distinct, concrete⟩ := writable.own ps phases
      exact .prefixed (prefixWritten_text filled distinct concrete _) node

theorem ends_of_closed {P : Char → Prop} (comma : ¬P ',') {rest : List Char}
    (closed : Closed rest) : Ends P rest := by
  rcases closed.eq_nil_or_comma with rfl | ⟨later, rfl⟩
  · exact ends_nil P
  · exact .cons comma later

theorem failOnWritten_text {c : Clause} (writable : c.Writable .failOn) {rest : List Char}
    (closed : Closed rest) : FailOnWritten c.content (c.text.toList ++ rest) rest := by
  have demand := writable.demand_failOn
  have unrelated : c.relations = [] := by rw [Clause.relations, demand]
  have ends : Ends NodeLater rest := ends_of_closed (by decide) closed
  have ref : RefWritten (c.phases, c.node) (c.text.toList ++ rest) rest := by
    have written := @refWritten_text _ _ writable rest
    rw [unrelated] at written
    exact written ends
  rw [Clause.content, demand]
  exact .mk ref

theorem countsWritten_text {c : Clause} (writable : c.Writable .counts) {rest : List Char}
    (closed : Closed rest) : CountsWritten c.content (c.text.toList ++ rest) rest := by
  have demand := writable.demand_counts
  obtain ⟨r, rs, related⟩ := List.exists_cons_of_ne_nil (writable.related rfl)
  have ref := @refWritten_text _ _ writable rest
  obtain ⟨before, others⟩ := furtherRelations_written rs (ends_of_closed (by decide) closed)
  have first := relationWritten_text r before
  rw [related, List.flatMap_cons, List.cons_append, List.cons_append, List.append_assoc] at ref
  rw [Clause.content, demand, related]
  refine .mk (ref (.cons (by decide) _)) ⟨[' '], ?_, rfl⟩ (.mk first others)
  exact List.forall_mem_singleton.2 (by decide)

/-! ## Reading what was printed -/

/-- A text stands in another at a stretch of bytes. -/
def Span.Marks (source : List Char) (span : Span) (text : List Char) : Prop :=
  ∃ before after, source = before ++ text ++ after ∧
    span = ⟨byteLength before, byteLength (before ++ text)⟩

theorem Span.Marks.extract_eq {source text : String} {span : Span}
    (marks : span.Marks source.toList text.toList) :
    String.Pos.Raw.extract source ⟨span.start⟩ ⟨span.stop⟩ = text := by
  obtain ⟨before, after, split, rfl⟩ := marks
  have bytes : ∀ cs, byteLength cs = String.utf8Len cs := by
    intro cs
    rw [← String.utf8ByteSize_ofList, ← byteLength_toList, String.toList_ofList]
  have slice := String.extract_of_valid before text.toList after
  rw [← split, String.ofList_toList, String.ofList_toList] at slice
  rw [byteLength_append, bytes, bytes, slice]

/-- What is printed behind the first clause of a list. -/
def printedTail (cs : List Clause) : List Char :=
  cs.flatMap fun c => ',' :: ' ' :: c.text.toList

theorem toList_printed_cons (c : Clause) (cs : List Clause) :
    (printed (c :: cs)).toList = c.text.toList ++ printedTail cs := by
  rw [printed, List.map_cons, toList_intercalate_cons, List.flatMap_map]
  rfl

theorem closed_printedTail (cs : List Clause) : Closed (printedTail cs) := by
  cases cs with
  | nil => exact closed_nil
  | cons c cs => exact closed_comma _

theorem listFollow_of_closed {rest : List Char} (closed : Closed rest) : ListFollow rest := by
  rcases closed.eq_nil_or_comma with rfl | ⟨later, rfl⟩
  · exact ends_nil _
  · exact closed_comma later

theorem skipGap_space (offset : Nat) (later : List Char) :
    (Cursor.mk offset (' ' :: later)).skipGap = (Cursor.mk (offset + 1) later).skipGap := by
  have space : byteLength (' ' :: later.takeWhile isGap) =
      1 + byteLength (later.takeWhile isGap) := rfl
  simp [Cursor.skipGap, show isGap ' ' = true from rfl, space, Nat.add_assoc]

section Printed

variable {α : Type} {item : Scanner α} {move : Nat → α → α} {faults : α → List (Span × Fault)}
  {clause : α → Clause} {R : Reading Content} (laws : EntryLaws item move faults clause)
  (complete : Complete item R (fun x a => faults a = [] ∧ (clause a).content = x) ListFollow)
  (spans : ∀ cur stop a, (item cur).result = some (a, stop) →
    (clause a).span = ⟨cur.offset, stop.offset⟩)

/-- An entry is a clause that was printed at the stretch that it puts down. -/
structure PrintedAs (faults : α → List (Span × Fault)) (clause : α → Clause) (source : List Char)
    (c : Clause) (a : α) : Prop where
  faultless : faults a = []
  content : (clause a).content = c.content
  marks : (clause a).span.Marks source c.text.toList

include laws complete spans

theorem read_text {source before rest : List Char} {c : Clause}
    (split : source = before ++ c.text.toList ++ rest) (closed : Closed rest)
    (written : R c.content (c.text.toList ++ rest) rest) :
    ∃ a, (item (Cursor.mk (byteLength before) (c.text.toList ++ rest)).skipGap).result =
        some (a, ⟨byteLength (before ++ c.text.toList), rest⟩) ∧
      PrintedAs faults clause source c a := by
  obtain ⟨a, offset, read, faultless, content⟩ :=
    complete.reads _ _ _ written (listFollow_of_closed closed) (byteLength before)
  obtain ⟨text, same, place⟩ := laws.advances _ _ _ read
  obtain rfl : c.text.toList = text := List.append_cancel_right same
  obtain rfl : offset = byteLength (before ++ c.text.toList) := by
    rw [byteLength_append]
    exact place
  have here : (Cursor.mk (byteLength before) (c.text.toList ++ rest)).skipGap = ⟨_, _⟩ :=
    skipGap_eq_self (complete.solid _ _ _ written)
  rw [here]
  exact ⟨a, read, faultless, content, before, rest, split, spans _ _ _ read⟩

/-- The clauses behind the first, each printed behind a comma and a space. -/
theorem continued_printedTail {source before : List Char} {cs : List Clause}
    (split : source = before ++ printedTail cs)
    (written : ∀ c ∈ cs, ∀ rest, Closed rest → R c.content (c.text.toList ++ rest) rest) :
    ∃ as, Continued item ⟨byteLength before, printedTail cs⟩ as ∧
      List.Forall₂ (PrintedAs faults clause source) cs as := by
  induction cs generalizing before with
  | nil => exact ⟨[], .inl ⟨rfl, rfl⟩, .nil⟩
  | cons c cs ih =>
      obtain ⟨writtenC, written⟩ := List.forall_mem_cons.1 written
      have closed := closed_printedTail cs
      have parts : source = before ++ [',', ' '] ++ c.text.toList ++ printedTail cs := by
        simp [split, printedTail]
      obtain ⟨a, read, good⟩ := read_text laws complete spans parts closed (writtenC _ closed)
      obtain ⟨as, others, goods⟩ := ih parts written
      have comma : (Cursor.mk (byteLength before) (printedTail (c :: cs))).skipGap =
          ⟨byteLength before, ',' :: ' ' :: (c.text.toList ++ printedTail cs)⟩ :=
        skipGap_eq_self (.cons (by decide) _)
      refine ⟨a :: as, .inr ⟨_, congrArg Cursor.rest comma, ?_⟩, .cons good goods⟩
      rw [comma]
      refine (others.listed read).of_skipGap_eq ?_
      rw [skipGap_space, byteLength_append]
      rfl

theorem listed_printed {cs : List Clause}
    (written : ∀ c ∈ cs, ∀ rest, Closed rest → R c.content (c.text.toList ++ rest) rest) :
    ∃ as, Listed item ⟨0, (printed cs).toList⟩ as ∧
      List.Forall₂ (PrintedAs faults clause (printed cs).toList) cs as := by
  cases cs with
  | nil => exact ⟨[], .blank rfl, .nil⟩
  | cons c cs =>
      obtain ⟨writtenC, written⟩ := List.forall_mem_cons.1 written
      have closed := closed_printedTail cs
      have parts : (printed (c :: cs)).toList = [] ++ c.text.toList ++ printedTail cs :=
        toList_printed_cons c cs
      obtain ⟨a, read, good⟩ := read_text laws complete spans parts closed (writtenC _ closed)
      obtain ⟨as, others, goods⟩ := continued_printedTail laws complete spans parts written
      refine ⟨a :: as, ?_, .cons good goods⟩
      rw [parts]
      exact others.listed read

end Printed

/-- A list of clauses comes back when it is printed and read: the same clauses in the same order,
each at the stretch of the printed text that is its own. -/
def ReadBack (kind : ListKind) (cs : List Clause) : Prop :=
  ∃ back, kind.read (printed cs) = .ok back ∧
    List.Forall₂ (fun c c' => c'.content = c.content ∧
      String.Pos.Raw.extract (printed cs) ⟨c'.span.start⟩ ⟨c'.span.stop⟩ = c.text) cs back

theorem readBack_of_listed {α : Type} {item : Scanner α} {consumes : item.Consumes} {rule : Rule}
    {faults : α → List (Span × Fault)} {clause : α → Clause} {kind : ListKind} {cs : List Clause}
    (reads : kind.read = readList kind (wholeList rule item consumes) faults clause)
    (listed : ∃ as, Listed item ⟨0, (printed cs).toList⟩ as ∧
      List.Forall₂ (PrintedAs faults clause (printed cs).toList) cs as) : ReadBack kind cs := by
  obtain ⟨as, listed, good⟩ := listed
  have faultless : as.flatMap faults = [] := by
    rw [List.flatMap_eq_nil_iff]
    intro a member
    obtain ⟨c, good⟩ := exists_of_forall₂ good a member
    exact good.faultless
  refine ⟨as.map clause, ?_, ?_⟩
  · rw [reads, readList_of_listed listed, judge_of_none faultless]
  · rw [List.forall₂_map_right_iff]
    exact good.imp fun c a good => ⟨good.content, good.marks.extract_eq⟩

theorem readBack_of_writable {kind : ListKind} {cs : List Clause}
    (writable : ∀ c ∈ cs, c.Writable kind) : ReadBack kind cs := by
  cases kind with
  | failOn =>
      exact readBack_of_listed rfl (listed_printed entryLaws_nodeRef complete_failOnEntry
        (fun _ _ _ => span_nodeRef) fun c member _ => failOnWritten_text (writable c member))
  | counts =>
      exact readBack_of_listed rfl (listed_printed entryLaws_countsEntry complete_countsEntry
        (fun _ _ _ => span_countsEntry) fun c member _ => countsWritten_text (writable c member))

/-! ## What was read can be printed -/

theorem isIdent_of_nodeWritten {node : String} {source rest : List Char}
    (written : NodeWritten node source rest) : IsIdent node := by
  obtain ⟨first, later, ends⟩ := written
  exact ⟨_, _, String.toList_ofList, first, later⟩

theorem isIdent_of_refWritten {phases : Option (List Phase)} {node : String}
    {source rest : List Char} (written : RefWritten (phases, node) source rest) :
    IsIdent node := by
  cases written with
  | plain ident => exact isIdent_of_nodeWritten ident
  | prefixed phases ident => exact isIdent_of_nodeWritten ident

theorem writable_of_read {kind : ListKind} {source : String} {cs : List Clause}
    (read : kind.read source = .ok cs) : ∀ c ∈ cs, c.Writable kind := by
  intro c member
  cases kind with
  | failOn =>
      have both : readClauses source "" = .ok ⟨cs, []⟩ := readClauses_eq_ok_iff.2 ⟨read, rfl⟩
      refine ⟨wellRead_of_readClauses both .failOn c member, ?_⟩
      refine (readFailOn_written read).forall_mem (P := fun x => IsIdent x.node) ?_ _
        (List.mem_map_of_mem member)
      rintro _ s r ⟨ref⟩
      exact isIdent_of_refWritten ref
  | counts =>
      have both : readClauses "" source = .ok ⟨[], cs⟩ := readClauses_eq_ok_iff.2 ⟨rfl, read⟩
      refine ⟨wellRead_of_readClauses both .counts c member, ?_⟩
      refine (readCounts_written read).forall_mem (P := fun x => IsIdent x.node) ?_ _
        (List.mem_map_of_mem member)
      rintro _ s r ⟨ref, gap, related⟩
      exact isIdent_of_refWritten ref

/-- **Printing and reading are inverse.** Every list of writable clauses comes back when it is
printed and read, and every list that is read from any text is one of writable clauses. -/
theorem read_printed (kind : ListKind) :
    (∀ cs, (∀ c ∈ cs, c.Writable kind) → ReadBack kind cs) ∧
    ∀ source cs, kind.read source = .ok cs →
      (∀ c ∈ cs, c.Writable kind) ∧ ReadBack kind cs := by
  refine ⟨fun cs => readBack_of_writable, fun source cs read => ?_⟩
  have writable := writable_of_read read
  exact ⟨writable, readBack_of_writable writable⟩

/-- Nodes that look like a comparator and like a phase, and the greatest bound. -/
def lookalikes : List Clause :=
  [⟨"ge", .counts [⟨.ge, 18446744073709551615⟩, ⟨.ne, 0⟩], some [.matching, .ccp1], ⟨0, 0⟩⟩,
    ⟨"CCP1", .counts [⟨.eq, 7⟩], none, ⟨0, 0⟩⟩]

theorem read_printed_lookalikes :
    (∀ c ∈ lookalikes, c.Writable .counts) ∧
    printed lookalikes = "MATCHING|CCP1:ge >=18446744073709551615 !=0, CCP1 =7" ∧
    ReadBack .counts lookalikes := by
  have writable : ∀ c ∈ lookalikes, c.Writable .counts := by
    intro c member
    simp only [lookalikes, List.mem_cons, List.not_mem_nil, or_false] at member
    rcases member with rfl | rfl
    · refine ⟨⟨rfl, by decide, ?_⟩, 'g', ['e'], rfl, by decide, ?_⟩
      · rintro ps ⟨⟩
        decide
      · simp only [List.forall_mem_cons]
        exact ⟨by decide, List.forall_mem_nil _⟩
    · refine ⟨⟨rfl, by decide, ?_⟩, 'C', ['C', 'P', '1'], rfl, by decide, ?_⟩
      · rintro ps ⟨⟩
      · simp only [List.forall_mem_cons]
        exact ⟨by decide, by decide, by decide, List.forall_mem_nil _⟩
  exact ⟨writable, by decide +kernel, (read_printed .counts).1 lookalikes writable⟩

end DumpRules
