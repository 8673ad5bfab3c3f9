import DumpRules.Proofs.Grammar.Completeness
import DumpRules.Proofs.Grammar.Places

/-!
# Lists, entry by entry

A list scanner reads a first entry, then as many as follow behind commas, then perhaps one more
comma. `Listed` says the same in one recursion: a list is blank, or an entry, or an entry, a comma
and a list. A comma at the end is then a comma before a blank list, and two lists with a comma
between them are one list (`listed_append_comma`), unless the first has nothing for the comma to
end. That entries contain no comma follows from `Moves` alone.
-/

namespace DumpRules.Grammar

set_option autoImplicit false

open Scanner

variable {α : Type} {item : Scanner α}

/-- What stands at a place: no entry, one entry, or an entry, a comma and more. -/
inductive Listed (item : Scanner α) : Cursor → List α → Prop
  | blank {cur : Cursor} (ended : cur.skipGap.rest = []) : Listed item cur []
  | last {cur stop : Cursor} {a : α} (read : (item cur.skipGap).result = some (a, stop))
      (ended : stop.skipGap.rest = []) : Listed item cur [a]
  | next {cur stop : Cursor} {a : α} {as : List α} {later : List Char}
      (read : (item cur.skipGap).result = some (a, stop)) (comma : stop.skipGap.rest = ',' :: later)
      (others : Listed item ⟨stop.skipGap.offset + 1, later⟩ as) : Listed item cur (a :: as)

/-- What stands behind an entry: the end, or a comma and a list. -/
def Continued (item : Scanner α) (cur : Cursor) (as : List α) : Prop :=
  cur.skipGap.rest = [] ∧ as = [] ∨
    ∃ later, cur.skipGap.rest = ',' :: later ∧ Listed item ⟨cur.skipGap.offset + 1, later⟩ as

theorem Continued.listed {cur stop : Cursor} {a : α} {as : List α}
    (read : (item cur.skipGap).result = some (a, stop)) (continued : Continued item stop as) :
    Listed item cur (a :: as) := by
  rcases continued with ⟨ended, rfl⟩ | ⟨later, comma, others⟩
  · exact .last read ended
  · exact .next read comma others

theorem Listed.blank_or_entry {cur : Cursor} {as : List α} (listed : Listed item cur as) :
    cur.skipGap.rest = [] ∧ as = [] ∨ ∃ a later stop, as = a :: later ∧
      (item cur.skipGap).result = some (a, stop) ∧ Continued item stop later := by
  cases listed with
  | blank ended => exact .inl ⟨ended, rfl⟩
  | last read ended => exact .inr ⟨_, _, _, rfl, read, .inl ⟨ended, rfl⟩⟩
  | next read comma others => exact .inr ⟨_, _, _, rfl, read, .inr ⟨_, comma, others⟩⟩

/-- White space before a list is not part of it. -/
theorem Listed.of_skipGap_eq {cur cur' : Cursor} {as : List α} (listed : Listed item cur as)
    (same : cur.skipGap = cur'.skipGap) : Listed item cur' as := by
  cases listed with
  | blank ended => exact .blank (same ▸ ended)
  | last read ended => exact .last (same ▸ read) ended
  | next read comma others => exact .next (same ▸ read) comma others

/-! ## The list scanner -/

/-- At the end of a text there is nothing to read. -/
theorem none_of_ended (consumes : item.Consumes) {cur : Cursor} (ended : cur.rest = []) :
    (item cur).result = none := by
  rw [Option.eq_none_iff_forall_ne_some]
  rintro ⟨a, stop⟩ read
  have shorter := consumes _ _ _ read
  rw [ended] at shorter
  exact absurd shorter (Nat.not_lt_zero _)

/-- A comma may be read here, and then there is nothing more. -/
def Closes (cur : Cursor) : Prop :=
  ∃ comma stop, (optional (symbol ',') cur.skipGap).result = some (comma, stop) ∧
    stop.skipGap.rest = []

theorem closes_skipGap {cur : Cursor} : Closes cur.skipGap ↔ Closes cur := by
  rw [Closes, Closes, skipGap_skipGap]

theorem of_symbol_comma {cur stop : Cursor} {u : Unit}
    (read : (symbol ',' cur).result = some (u, stop)) :
    cur.rest = ',' :: stop.rest ∧ stop = ⟨cur.offset + 1, stop.rest⟩ := by
  obtain ⟨front, moved⟩ := symbol_eq_some.1 read
  obtain ⟨offset, rest⟩ := stop
  exact ⟨front, congrArg (Cursor.mk · rest) moved⟩

theorem closes_of_ended {cur : Cursor} (ended : cur.skipGap.rest = []) : Closes cur := by
  have failed := none_of_ended (consumes_symbol ',') ended
  refine ⟨none, _, optional_eq_some.2 (.inr ⟨rfl, failed, rfl⟩), ?_⟩
  rw [skipGap_skipGap, ended]

theorem continued_of_more {h : (separated ',' item).Consumes} {cur stop : Cursor} {as : List α}
    (read : (more (separated ',' item) h cur).result = some (as, stop)) (closes : Closes stop) :
    Continued item cur as := by
  fun_induction more (separated ',' item) h cur generalizing as with
  | case1 cur =>
      simp only [Option.some.injEq, Prod.mk.injEq] at read
      obtain ⟨rfl, rfl⟩ := read
      obtain ⟨comma, last, tried, ended⟩ := closes
      rcases optional_eq_some.1 tried with ⟨_, -, symbol⟩ | ⟨-, -, rfl⟩
      · obtain ⟨front, place⟩ := of_symbol_comma symbol
        exact .inr ⟨last.rest, front, .blank (place ▸ ended)⟩
      · rw [skipGap_skipGap] at ended
        exact .inl ⟨ended, rfl⟩
  | case2 cur s a next scanned t =>
      rename_i ih
      obtain ⟨⟨later, stop'⟩, rest, same⟩ := Option.map_eq_some_iff.1 read
      simp only [Prod.mk.injEq] at same
      obtain ⟨rfl, rfl⟩ := same
      obtain ⟨_, mid, symbol, scanned⟩ := andThen_eq_some.1 scanned
      rw [gap_andThen_result] at scanned
      obtain ⟨front, place⟩ := of_symbol_comma symbol
      rw [place] at scanned
      exact .inr ⟨mid.rest, front, Continued.listed scanned (ih rest)⟩

theorem more_of_ended {h : (separated ',' item).Consumes} {cur : Cursor}
    (ended : cur.skipGap.rest = []) : (more (separated ',' item) h cur).result = some ([], cur) := by
  refine more_of_none h ?_
  have failed := none_of_ended (consumes_symbol ',') ended
  rw [separated, andThen_result, failed, Option.bind_none]

/-- The repetition reads a list that stands behind a comma. -/
theorem more_of_listed (consumes : item.Consumes) {cur : Cursor} {as : List α}
    (listed : Listed item cur as) {before : Cursor} (comma : before.skipGap.rest = ',' :: cur.rest)
    (place : cur.offset = before.skipGap.offset + 1) :
    ∃ stop, (more (separated ',' item) (consumes_separated ',' consumes) before).result =
      some (as, stop) ∧ Closes stop := by
  induction listed generalizing before with
  | @blank cur ended =>
      have symbol : (symbol ',' before.skipGap).result = some ((), cur) :=
        symbol_eq_some.2 ⟨comma, place⟩
      refine ⟨before, more_of_none _ ?_, some (), cur, ?_, ended⟩
      · rw [separated, andThen_result, symbol, Option.bind_some, gap_andThen_result,
          none_of_ended consumes ended]
      · exact optional_eq_some.2 (.inl ⟨(), rfl, symbol⟩)
  | @last cur stop a read ended =>
      refine ⟨stop, more_of_some _ ?_ (more_of_ended ended), closes_of_ended ended⟩
      exact andThen_eq_some.2 ⟨(), cur, symbol_eq_some.2 ⟨comma, place⟩, read⟩
  | @next cur stop a as later read comma' others ih =>
      obtain ⟨last, rest, closes⟩ := ih comma' rfl
      refine ⟨last, more_of_some _ ?_ rest, closes⟩
      exact andThen_eq_some.2 ⟨(), cur, symbol_eq_some.2 ⟨comma, place⟩, read⟩

theorem more_of_continued (consumes : item.Consumes) {cur : Cursor} {as : List α}
    (continued : Continued item cur as) :
    ∃ stop, (more (separated ',' item) (consumes_separated ',' consumes) cur).result =
      some (as, stop) ∧ Closes stop := by
  rcases continued with ⟨ended, rfl⟩ | ⟨later, comma, listed⟩
  · exact ⟨cur, more_of_ended ended, closes_of_ended ended⟩
  · exact more_of_listed consumes listed comma rfl

/-- Behind white space a repetition is one of further items, the white space behind it aside. -/
theorem many_skipGap {h : item.Consumes} {cur : Cursor} {as : List α} :
    (∃ stop, (many item h cur.skipGap).result = some (as, stop) ∧ Closes stop) ↔
      ∃ stop, (more item h cur).result = some (as, stop) ∧ Closes stop := by
  cases read : (item cur.skipGap).result with
  | none =>
      have nothing : (many item h cur.skipGap).result = some ([], cur.skipGap) := by
        simp only [many, andThen_result, optional_result, read, Option.bind_some]
        rfl
      rw [nothing, more_of_none h read]
      simp only [Option.some.injEq, Prod.mk.injEq, and_assoc, exists_and_left, exists_eq_left',
        closes_skipGap]
  | some x =>
      have same : (many item h cur.skipGap).result = (more item h cur).result := by
        rw [more_result_of_some h read]
        simp only [many, andThen_result, optional_result, read, Option.bind_some]
        refine (andThen_result (more item h) _ x.2).trans ?_
        cases (more item h x.2).result <;> rfl
      rw [same]

/-- A whole text is read as a list iff it is one, entry by entry. -/
theorem wholeList_iff_listed {rule : Rule} (consumes : item.Consumes) {cur : Cursor}
    {as : List α} :
    (∃ stop, (wholeList rule item consumes cur).result = some (as, stop)) ↔
      Listed item cur as := by
  simp only [wholeList, named_result, gap_andThen_result]
  constructor
  · rintro ⟨stop, read⟩
    obtain ⟨found, m, optional, read⟩ := andThen_eq_some.1 read
    rw [gap_andThen_result] at read
    obtain ⟨_, last, atEnd, made⟩ := andThen_eq_some.1 read
    obtain ⟨rfl, rfl⟩ := succeed_eq_some.1 made
    rw [named_result, ended_eq_some] at atEnd
    rcases optional_eq_some.1 optional with ⟨bs, rfl, filled⟩ | ⟨rfl, -, rfl⟩
    · obtain ⟨first, m₁, entry, filled⟩ := andThen_eq_some.1 filled
      rw [gap_andThen_result] at filled
      obtain ⟨others, m₂, repeated, filled⟩ := andThen_eq_some.1 filled
      rw [gap_andThen_result] at filled
      obtain ⟨_, m₃, comma, made⟩ := andThen_eq_some.1 filled
      obtain ⟨rfl, rfl⟩ := succeed_eq_some.1 made
      obtain ⟨m₄, further, closes⟩ := many_skipGap.1 ⟨m₂, repeated, _, _, comma, atEnd.1⟩
      exact (continued_of_more further closes).listed entry
    · rw [skipGap_skipGap] at atEnd
      exact .blank atEnd.1
  · intro listed
    have atEnd : ∀ {cur : Cursor}, cur.skipGap.rest = [] →
        (named .endOfInput ended cur.skipGap).result = some ((), cur.skipGap) :=
      fun ended => ended_eq_some.2 ⟨ended, rfl⟩
    rcases listed.blank_or_entry with ⟨blank, rfl⟩ | ⟨first, others, m₁, rfl, entry, continued⟩
    · have failed := none_of_ended consumes blank
      have last := @atEnd cur.skipGap (by rw [skipGap_skipGap, blank])
      refine ⟨cur.skipGap.skipGap, andThen_eq_some.2 ⟨none, cur.skipGap, ?_, ?_⟩⟩
      · refine optional_eq_some.2 (.inr ⟨rfl, ?_, rfl⟩)
        rw [andThen_result, failed, Option.bind_none]
      · rw [gap_andThen_result]
        exact andThen_eq_some.2 ⟨(), _, last, rfl⟩
    · obtain ⟨m₂, repeated, comma, m₃, closing, closed⟩ :=
        many_skipGap.2 (more_of_continued consumes continued)
      refine ⟨m₃.skipGap, andThen_eq_some.2 ⟨some (first :: others), m₃, ?_, ?_⟩⟩
      · refine optional_eq_some.2 (.inl ⟨first :: others, rfl, ?_⟩)
        refine andThen_eq_some.2 ⟨first, m₁, entry, ?_⟩
        rw [gap_andThen_result]
        refine andThen_eq_some.2 ⟨others, m₂, repeated, ?_⟩
        rw [gap_andThen_result]
        exact andThen_eq_some.2 ⟨comma, m₃, closing, rfl⟩
      · rw [gap_andThen_result]
        exact andThen_eq_some.2 ⟨(), _, atEnd closed, rfl⟩

/-! ## The last character -/

/-- The characters of a text that are no white space. -/
def solid (text : List Char) : List Char :=
  text.filter fun c => ¬White c

/-- A text that has an entry for a comma to end: its last solid character is there and is none. -/
def Unclosed (text : List Char) : Prop :=
  ∃ c, (solid text).getLast? = some c ∧ c ≠ ','

theorem solid_append (a b : List Char) : solid (a ++ b) = solid a ++ solid b :=
  List.filter_append ..

theorem Gap.solid_eq {source rest : List Char} (gap : Gap source rest) :
    solid source = solid rest := by
  obtain ⟨white, all, rfl⟩ := gap
  have blank : solid white = [] := List.filter_eq_nil_iff.2 fun c member => by simp [all c member]
  rw [solid_append, blank, List.nil_append]

/-- What stands before a comma says nothing about the end of the text behind it. -/
theorem unclosed_of_comma {text later before : List Char}
    (split : solid text = before ++ ',' :: solid later) : Unclosed text ↔ Unclosed later := by
  unfold Unclosed
  rw [split, List.getLast?_append]
  cases ends : solid later with
  | nil => simp
  | cons c cs => simp [List.getLast?_cons_cons]

/-! ## Two lists with a comma between them -/

/-- What is known of a scanner of entries: it reads something, knows where it stands, and does not
see where a text begins or what comes behind its next comma. -/
structure Placed (item : Scanner α) (move : Nat → α → α) : Prop where
  consumes : item.Consumes
  advances : Advances item
  moves : ∀ n tail, Closed tail → Moves n tail item item (move n)
  still : move 0 = id

theorem placed_nodeRef : Placed nodeRef NodeRef.moved :=
  ⟨consumes_nodeRef, advances_nodeRef, fun _ _ => moves_nodeRef, NodeRef.moved_zero⟩

theorem placed_countsEntry : Placed countsEntry Entry.moved :=
  ⟨consumes_countsEntry, advances_countsEntry, fun _ _ => moves_countsEntry, Entry.moved_zero⟩

section Placed

variable {move : Nat → α → α} (placed : Placed item move)

include placed

theorem Placed.read_moved {n : Nat} {tail : List Char} (closed : Closed tail)
    {cur stop : Cursor} {b : α} :
    (item (cur.moved n tail).skipGap).result = some (b, stop) ↔
      ∃ a stop', (item cur.skipGap).result = some (a, stop') ∧ move n a = b ∧
        stop'.moved n tail = stop := by
  rw [skipGap_moved closed, placed.moves n tail closed cur.skipGap, Option.map_eq_some_iff]
  simp only [Prod.exists, Prod.mk.injEq]

theorem Placed.read_before_comma {later : List Char} {cur stop : Cursor} {a : α}
    (read : (item cur.skipGap).result = some (a, stop)) :
    (item (cur.moved 0 (',' :: later)).skipGap).result =
      some (a, stop.moved 0 (',' :: later)) := by
  refine (placed.read_moved (closed_comma later)).2 ⟨a, stop, read, ?_, rfl⟩
  rw [placed.still, id]

/-- An entry is a piece of text with no comma in it. -/
theorem Placed.entry_text {cur stop : Cursor} {a : α} (read : (item cur).result = some (a, stop)) :
    ∃ text, text ≠ [] ∧ ',' ∉ text ∧ cur.rest = text ++ stop.rest := by
  obtain ⟨text, split, -⟩ := placed.advances cur a stop read
  refine ⟨text, ?_, fun comma => ?_, split⟩
  · rintro rfl
    have consumed := placed.consumes _ _ _ read
    rw [split, List.nil_append] at consumed
    exact absurd consumed (Nat.lt_irrefl _)
  · -- Cut the text at the comma: the entry would end before it and behind it.
    obtain ⟨before, behind, rfl⟩ := List.append_of_mem comma
    have moved := placed.moves 0 (',' :: (behind ++ stop.rest)) (closed_comma _) ⟨cur.offset, before⟩
    have whole : Cursor.moved 0 (',' :: (behind ++ stop.rest)) ⟨cur.offset, before⟩ = cur := by
      obtain ⟨offset, rest⟩ := cur
      simp_all [Cursor.moved]
    rw [whole, read] at moved
    obtain ⟨x, -, same⟩ := Option.map_eq_some_iff.1 moved.symm
    have rest := congrArg (fun y => y.2.rest.length) same
    simp only [Cursor.moved, List.length_append, List.length_cons] at rest
    omega

/-- The last solid character of an entry is no comma. -/
theorem Placed.solid_entry {cur stop : Cursor} {a : α}
    (read : (item cur.skipGap).result = some (a, stop)) :
    ∃ entry c, solid cur.rest = entry ++ solid stop.rest ∧ entry.getLast? = some c ∧ c ≠ ',' := by
  obtain ⟨text, filled, comma, split⟩ := placed.entry_text read
  obtain ⟨front, later, rfl⟩ := List.exists_cons_of_ne_nil filled
  have white : ¬White front := ends_skipGap cur front (later ++ stop.rest) split
  have member : front ∈ solid (front :: later) :=
    List.mem_filter.2 ⟨List.mem_cons_self, decide_eq_true white⟩
  refine ⟨solid (front :: later), _, ?_, List.getLast?_eq_some_getLast (List.ne_nil_of_mem member),
    fun last => comma ?_⟩
  · rw [(gap_skipGap cur).solid_eq, split, solid_append]
  · rw [← last]
    exact (List.mem_filter.1 (List.getLast_mem _)).1

/-- A list that stands elsewhere is the same list, with its entries moved. -/
theorem listed_moved {n : Nat} {cur : Cursor} {bs : List α} :
    Listed item (cur.moved n []) bs ↔ ∃ as, Listed item cur as ∧ as.map (move n) = bs := by
  have skip := skipGap_moved closed_nil n
  constructor
  · intro listed
    generalize whole : cur.moved n [] = place at listed
    induction listed generalizing cur with
    | blank ended =>
        subst whole
        exact ⟨[], .blank (by simpa [skip] using ended), rfl⟩
    | last read ended =>
        subst whole
        obtain ⟨a, stop, here, rfl, rfl⟩ := (placed.read_moved closed_nil).1 read
        exact ⟨[a], .last here (by simpa [skip] using ended), rfl⟩
    | @next _ _ _ _ later read comma others ih =>
        subst whole
        obtain ⟨a, stop, here, rfl, rfl⟩ := (placed.read_moved closed_nil).1 read
        rw [skip] at ih
        obtain ⟨as, listed, rfl⟩ := @ih ⟨stop.skipGap.offset + 1, later⟩
          (by simp [Cursor.moved, Nat.add_right_comm])
        exact ⟨a :: as, .next here (by simpa [skip] using comma) listed, rfl⟩
  · rintro ⟨as, listed, rfl⟩
    induction listed with
    | blank ended => exact .blank (by simpa [skip] using ended)
    | last read ended =>
        refine .last ((placed.read_moved closed_nil).2 ⟨_, _, read, rfl, rfl⟩) ?_
        simpa [skip] using ended
    | @next _ stop _ _ later read comma others ih =>
        have place : Cursor.moved n [] ⟨stop.skipGap.offset + 1, later⟩ =
            ⟨(stop.moved n []).skipGap.offset + 1, later⟩ := by
          rw [skip]
          simp [Cursor.moved, Nat.add_right_comm]
        rw [place] at ih
        refine .next ((placed.read_moved closed_nil).2 ⟨_, _, read, rfl, rfl⟩) ?_ ih
        simpa [skip] using comma

/-- Reading past the end of an entry loses no text: where the text behind it ends. -/
theorem Placed.offset_eq {cur stop : Cursor} {a : α}
    (read : (item cur.skipGap).result = some (a, stop)) :
    stop.skipGap.offset + byteLength stop.skipGap.rest = cur.offset + byteLength cur.rest :=
  (((reaches_skipGap cur).trans (placed.advances _ _ _ read)).trans
    (reaches_skipGap stop)).offset_eq

theorem Listed.of_append_comma {cur : Cursor} {later : List Char} {cs : List α}
    (listed : Listed item (cur.moved 0 (',' :: later)) cs) :
    Unclosed cur.rest ∧ ∃ as bs, cs = as ++ bs ∧ Listed item cur as ∧
      Listed item ⟨cur.offset + byteLength cur.rest + 1, later⟩ bs := by
  have closed := closed_comma later
  have skip := skipGap_moved closed 0
  generalize whole : cur.moved 0 (',' :: later) = place at listed
  induction listed generalizing cur with
  | blank ended =>
      subst whole
      simp [skip] at ended
  | last read ended =>
      subst whole
      obtain ⟨a, stop, -, rfl, rfl⟩ := (placed.read_moved closed).1 read
      simp [skip] at ended
  | next read comma others ih =>
      subst whole
      obtain ⟨a, stop, here, rfl, rfl⟩ := (placed.read_moved closed).1 read
      have place := placed.offset_eq here
      obtain ⟨entry, c, split, last, other⟩ := placed.solid_entry here
      rw [(gap_skipGap stop).solid_eq] at split
      rw [placed.still, id]
      simp only [skip, Cursor.moved_rest, Cursor.moved_offset, Nat.add_zero] at comma others ih
      -- The comma is the one between the lists, or one of the first list.
      cases behind : stop.skipGap.rest with
      | nil =>
          rw [behind] at comma split place
          obtain ⟨-, rfl⟩ := List.cons.inj comma
          refine ⟨⟨c, ?_, other⟩, [a], _, rfl, .last here behind, ?_⟩
          · rw [split, solid, List.filter_nil, List.append_nil, last]
          · rwa [← place]
      | cons d ds =>
          rw [behind] at comma split place
          obtain ⟨rfl, rfl⟩ := List.cons.inj comma
          rw [byteLength_comma, Nat.add_comm _ 1, ← Nat.add_assoc] at place
          obtain ⟨unclosed, as, bs, rfl, first, second⟩ :=
            @ih ⟨stop.skipGap.offset + 1, ds⟩ rfl
          refine ⟨(unclosed_of_comma split).2 unclosed, a :: as, bs, rfl,
            .next here behind first, ?_⟩
          rwa [← place]

theorem Listed.append_comma {cur : Cursor} {later : List Char} {as bs : List α}
    (first : Listed item cur as) (unclosed : Unclosed cur.rest)
    (second : Listed item ⟨cur.offset + byteLength cur.rest + 1, later⟩ bs) :
    Listed item (cur.moved 0 (',' :: later)) (as ++ bs) := by
  have skip := skipGap_moved (closed_comma later) 0
  induction first with
  | @blank cur ended =>
      obtain ⟨c, last, -⟩ := unclosed
      rw [(gap_skipGap cur).solid_eq, ended] at last
      cases last
  | @last cur stop a read ended =>
      have place := placed.offset_eq read
      rw [ended] at place
      rw [← place] at second
      have comma : (stop.moved 0 (',' :: later)).skipGap.rest = ',' :: later := by
        rw [skip, Cursor.moved_rest, ended, List.nil_append]
      refine .next (placed.read_before_comma read) comma ?_
      rwa [skip]
  | @next cur stop a as behind read comma others ih =>
      have place := placed.offset_eq read
      obtain ⟨entry, c, split, -, -⟩ := placed.solid_entry read
      rw [(gap_skipGap stop).solid_eq, comma] at split
      rw [comma, byteLength_comma, Nat.add_comm _ 1, ← Nat.add_assoc] at place
      rw [← place] at second
      have front : (stop.moved 0 (',' :: later)).skipGap.rest =
          ',' :: (behind ++ ',' :: later) := by
        rw [skip, Cursor.moved_rest, comma, List.cons_append]
      refine .next (placed.read_before_comma read) front ?_
      rw [skip]
      exact ih ((unclosed_of_comma split).1 unclosed) second

/-- Two lists with a comma between them are one list, if the first has an entry for it to end. -/
theorem listed_append_comma {offset : Nat} {text later : List Char} {cs : List α} :
    Listed item ⟨offset, text ++ ',' :: later⟩ cs ↔
      Unclosed text ∧ ∃ as bs, cs = as ++ bs ∧ Listed item ⟨offset, text⟩ as ∧
        Listed item ⟨offset + byteLength text + 1, later⟩ bs := by
  constructor
  · intro listed
    have moved : Listed item (Cursor.moved 0 (',' :: later) ⟨offset, text⟩) cs := listed
    exact Listed.of_append_comma placed moved
  · rintro ⟨unclosed, as, bs, rfl, first, second⟩
    exact Listed.append_comma placed first unclosed second

end Placed

end DumpRules.Grammar
