import DumpRules.Clause.Reader
import DumpRules.Proofs.Grammar.Tokens
import Mathlib.Data.List.TakeWhile

/-!
# What the readers accept is written by the grammar

Every text that a reader takes without a fault has a derivation, with the clauses that the reader
returns (`readFailOn_written`, `readCounts_written`). A scanner takes white space and repetitions as
far as they go; a derivation may take them so, and that is all this direction needs. What the
grammar does not know are the loose tokens, and those are excluded by the faults.
-/

namespace DumpRules.Grammar

set_option autoImplicit false

variable {α β : Type}

/-! ## White space and repetition -/

theorem Gap.refl (source : List Char) : Gap source source :=
  ⟨[], by simp, rfl⟩

theorem Gap.trans {a b c : List Char} (first : Gap a b) (second : Gap b c) : Gap a c := by
  obtain ⟨v, whiteV, rfl⟩ := first
  obtain ⟨w, whiteW, rfl⟩ := second
  refine ⟨v ++ w, fun c member => ?_, (List.append_assoc ..).symm⟩
  exact (List.mem_append.1 member).elim (whiteV c) (whiteW c)

theorem gap_skipGap (cur : Cursor) : Gap cur.rest cur.skipGap.rest :=
  ⟨cur.rest.takeWhile isGap, fun c member => (isGap_iff c).1 (List.mem_takeWhile_imp member),
    List.takeWhile_append_dropWhile.symm⟩

/-- Behind white space stands no more white space. -/
theorem ends_skipGap (cur : Cursor) : Ends White cur.skipGap.rest := by
  intro c later front
  have stopped := List.head?_dropWhile_not isGap cur.rest
  have front' : cur.rest.dropWhile isGap = c :: later := front
  rw [front', List.head?_cons] at stopped
  rw [← isGap_iff, stopped]
  exact Bool.false_ne_true

theorem skipGap_eq_self {cur : Cursor} (ends : Ends White cur.rest) : cur.skipGap = cur := by
  obtain ⟨offset, rest⟩ := cur
  cases rest with
  | nil => rfl
  | cons c later =>
      have solid : isGap c = false := by
        rw [← Bool.not_eq_true, isGap_iff]
        exact ends c later rfl
      simp [Cursor.skipGap, solid, byteLength]

@[simp] theorem skipGap_skipGap (cur : Cursor) : cur.skipGap.skipGap = cur.skipGap :=
  skipGap_eq_self (ends_skipGap cur)

/-- What an item read behind white space means. -/
def Sound (item : Scanner α) (R : Reading α) : Prop :=
  ∀ (cur : Cursor) (a : α) (cur' : Cursor), (item cur.skipGap).result = some (a, cur') →
    R a cur.skipGap.rest cur'.rest

/-- Changing what each item means changes what a repetition means. -/
theorem Further.filterMap {R : Reading α} {S : Reading β} {g : α → Option β} {as : List α}
    {source rest : List Char} (read : Further R as source rest)
    (each : ∀ a ∈ as, ∀ s r, R a s r → ∃ b, g a = some b ∧ S b s r) :
    Further S (as.filterMap g) source rest := by
  induction read with
  | done rest => exact .done rest
  | next gap item later ih =>
      obtain ⟨b, meaning, written⟩ := each _ List.mem_cons_self _ _ item
      rw [List.filterMap_cons_some meaning]
      exact .next gap written (ih fun a member => each a (List.mem_cons_of_mem _ member))

theorem Items.filterMap {R L : Reading α} {S M : Reading β} {g : α → Option β} {as : List α}
    {source rest : List Char} (read : Items R L as source rest)
    (first : ∀ a ∈ as, ∀ s r, R a s r → ∃ b, g a = some b ∧ S b s r)
    (later : ∀ a ∈ as, ∀ s r, L a s r → ∃ b, g a = some b ∧ M b s r) :
    Items S M (as.filterMap g) source rest := by
  obtain ⟨head, others⟩ := read
  obtain ⟨b, meaning, written⟩ := first _ List.mem_cons_self _ _ head
  rw [List.filterMap_cons_some meaning]
  exact .mk written (others.filterMap fun a member => later a (List.mem_cons_of_mem _ member))

theorem Behind.map {c : Char} {R : Reading α} {S : Reading β} {a : α} {meant : Option β}
    {source rest : List Char} (read : Behind c R a source rest)
    (each : ∀ s r, R a s r → ∃ b, meant = some b ∧ S b s r) :
    ∃ b, meant = some b ∧ Behind c S b source rest := by
  obtain ⟨gap, item⟩ := read
  obtain ⟨b, meaning, written⟩ := each _ _ item
  exact ⟨b, meaning, .mk gap written⟩

namespace Scanner

theorem further_of_more {item : Scanner α} {h : item.Consumes} {R : Reading α}
    (sound : Sound item R)
    {cur cur' : Cursor} {as : List α} (read : (more item h cur).result = some (as, cur')) :
    Further R as cur.rest cur'.rest := by
  fun_induction more item h cur generalizing as with
  | case1 =>
      simp only [Option.some.injEq, Prod.mk.injEq] at read
      obtain ⟨rfl, rfl⟩ := read
      exact .done _
  | case2 cur s a next scanned t =>
      rename_i ih
      obtain ⟨⟨later, stop⟩, rest, same⟩ := Option.map_eq_some_iff.1 read
      simp only [Prod.mk.injEq] at same
      obtain ⟨rfl, rfl⟩ := same
      exact .next (gap_skipGap cur) (sound _ _ _ scanned) (ih rest)

theorem items_of_many {item : Scanner α} {h : item.Consumes} {R : Reading α}
    (sound : Sound item R) {cur cur' : Cursor} {as : List α}
    (read : (many item h cur.skipGap).result = some (as, cur')) :
    as = [] ∧ cur' = cur.skipGap ∨ Items R R as cur.skipGap.rest cur'.rest := by
  obtain ⟨x, mid, tried, rest⟩ := andThen_eq_some.1 read
  rcases optional_eq_some.1 tried with ⟨a, rfl, scanned⟩ | ⟨rfl, -, rfl⟩
  · obtain ⟨later, stop, others, made⟩ := andThen_eq_some.1 rest
    obtain ⟨rfl, rfl⟩ := succeed_eq_some.1 made
    exact .inr (.mk (sound _ _ _ scanned) (further_of_more sound others))
  · obtain ⟨rfl, rfl⟩ := succeed_eq_some.1 rest
    exact .inl ⟨rfl, rfl⟩

/-- White space that no item follows may be read or not; the derivation leaves it. -/
theorem further_of_many {item : Scanner α} {h : item.Consumes} {R : Reading α}
    (sound : Sound item R) {cur cur' : Cursor} {as : List α}
    (read : (many item h cur.skipGap).result = some (as, cur')) :
    ∃ m, Further R as cur.rest m ∧ Gap m cur'.rest := by
  rcases items_of_many sound read with ⟨rfl, rfl⟩ | ⟨first, others⟩
  · exact ⟨_, .done _, gap_skipGap cur⟩
  · exact ⟨_, .next (gap_skipGap cur) first others, .refl _⟩

end Scanner

open Scanner

theorem Sound.separated {item : Scanner α} {R : Reading α} (sound : Sound item R) (c : Char) :
    Sound (separated c item) (Behind c R) := by
  intro cur a cur' read
  obtain ⟨_, mid, symbol, scanned⟩ := andThen_eq_some.1 read
  rw [gap_andThen_result] at scanned
  rw [(symbol_eq_some.1 symbol).1]
  exact .mk (gap_skipGap mid) (sound _ _ _ scanned)

/-! ## Node references -/

theorem name_of_ofName? {name : String} {p : Phase} (known : Phase.ofName? name = some p) :
    p.name = name := by
  simpa using List.find?_some known

theorem named_cons {t : Token} {ts : List Token} {ps : List Phase}
    (names : (t :: ts).map Token.text = ps.map Phase.name) :
    ∃ p later, ps = p :: later ∧ Phase.ofName? t.text = some p ∧
      ts.map Token.text = later.map Phase.name := by
  cases ps with
  | nil => simp at names
  | cons p later =>
      rw [List.map_cons, List.map_cons, List.cons.injEq] at names
      exact ⟨p, later, rfl, by rw [names.1, Phase.ofName?_name], names.2⟩

/-- The names of distinct phases that have dumps, none of them among those `seen`. -/
def NamesOf (seen : List Phase) (ts : List Token) (ps : List Phase) : Prop :=
  ts.map Token.text = ps.map Phase.name ∧ .placeholder ∉ ps ∧ ps.Nodup ∧ ∀ p ∈ ps, p ∉ seen

theorem namesOf_cons {seen ps : List Phase} {t : Token} {ts : List Token} :
    NamesOf seen (t :: ts) ps ↔ ∃ p later, ps = p :: later ∧ Phase.ofName? t.text = some p ∧
      p ≠ .placeholder ∧ p ∉ seen ∧ NamesOf (p :: seen) ts later := by
  constructor
  · rintro ⟨names, concrete, nodup, unseen⟩
    obtain ⟨p, later, rfl, known, names'⟩ := named_cons names
    rw [List.mem_cons, not_or] at concrete
    rw [List.nodup_cons] at nodup
    rw [List.forall_mem_cons] at unseen
    refine ⟨p, later, rfl, known, Ne.symm concrete.1, unseen.1, names', concrete.2, nodup.2, ?_⟩
    intro q member
    rw [List.mem_cons, not_or]
    exact ⟨fun same => nodup.1 (same ▸ member), unseen.2 q member⟩
  · rintro ⟨p, later, rfl, known, concrete, new, names, noPlaceholder, nodup, unseen⟩
    refine ⟨?_, ?_, List.nodup_cons.2 ⟨?_, nodup⟩, List.forall_mem_cons.2 ⟨new, ?_⟩⟩
    · rw [List.map_cons, List.map_cons, names, name_of_ofName? known]
    · rw [List.mem_cons, not_or]
      exact ⟨Ne.symm concrete, noPlaceholder⟩
    · exact fun member => unseen p member List.mem_cons_self
    · exact fun q member old => unseen q member (List.mem_cons_of_mem _ old)

/-- Names of phases are without fault iff they are the names of distinct phases that have dumps. -/
theorem phaseFaults_eq_nil_iff {node : String} {seen : List Phase} {ts : List Token} :
    phaseFaults node seen ts = [] ↔ ∃ ps, NamesOf seen ts ps := by
  induction ts generalizing seen with
  | nil => simp [phaseFaults, NamesOf]
  | cons t ts ih =>
      simp only [namesOf_cons]
      unfold phaseFaults
      split
      · rename_i unknown
        simp [unknown]
      · rename_i placeholder
        simp [placeholder]
      · rename_i p concrete known
        split
        · rename_i repeated
          simp [known, repeated]
        · rename_i new
          rw [ih]
          constructor
          · rintro ⟨later, names⟩
            exact ⟨p :: later, p, later, rfl, known, fun same => concrete same, new, names⟩
          · rintro ⟨ps, q, later, rfl, known', -, -, names⟩
            cases known.symm.trans known'
            exact ⟨later, names⟩

theorem filterMap_ofName? {ts : List Token} {ps : List Phase}
    (names : ts.map Token.text = ps.map Phase.name) :
    (ts.filterMap fun t => Phase.ofName? t.text) = ps := by
  induction ts generalizing ps with
  | nil => simpa [eq_comm] using names
  | cons t ts ih =>
      obtain ⟨p, later, rfl, known, names'⟩ := named_cons names
      simp only [List.filterMap_cons, known, ih names']

/-- A token stands at the front of what is read. -/
theorem token_split {rule : Rule} {length : List Char → Nat} (fits : ∀ cs, length cs ≤ cs.length)
    (cur : Cursor) (t : Token) (cur' : Cursor)
    (read : (token rule length cur).result = some (t, cur')) :
    cur.rest = t.text.toList ++ cur'.rest := by
  obtain ⟨text, -, split, -, -, rfl⟩ := (token_eq_some fits).1 read
  rw [split, String.toList_ofList]

theorem nodeWritten_of_nodeIdent {cur cur' : Cursor} {t : Token}
    (read : (nodeIdent cur).result = some (t, cur')) :
    NodeWritten t.text cur.rest cur'.rest := by
  obtain ⟨c, cs, first, later, ends, split, -, rfl⟩ :=
    (wordToken_eq_some isNodeStart_iff isNodeChar_iff).1 read
  rw [split]
  exact .mk first later ends

theorem prefixWritten_of_phasePrefix {cur cur' : Cursor} {ts : List Token} {node : String}
    (read : (phasePrefix cur).result = some (ts, cur')) (good : phaseFaults node [] ts = []) :
    PrefixWritten (ts.filterMap fun t => Phase.ofName? t.text) cur.rest cur'.skipGap.rest := by
  obtain ⟨first, others, m₁, m₂, rfl, name, names, colon⟩ := phasePrefix_eq_some.1 read
  have spelled : ∀ cur t cur', (phaseName cur).result = some (t, cur') →
      cur.rest = t.text.toList ++ cur'.rest := token_split (wordLength_le _ _)
  have sound : Sound phaseName fun t s r => s = t.text.toList ++ r :=
    fun cur => spelled cur.skipGap
  obtain ⟨m, further, white⟩ := further_of_many (sound.separated '|') names
  obtain ⟨ps, same, concrete, nodup, -⟩ := phaseFaults_eq_nil_iff.1 good
  have phase : ∀ t ∈ first :: others, ∀ s r, s = t.text.toList ++ r →
      ∃ p, Phase.ofName? t.text = some p ∧ PhaseWritten p s r := by
    rintro t member s r rfl
    obtain ⟨p, listed, named⟩ := List.mem_map.1 (same ▸ List.mem_map_of_mem member)
    refine ⟨p, by rw [← named, Phase.ofName?_name], ?_⟩
    rw [← named]
    exact .mk fun placeholder => concrete (placeholder ▸ listed)
  have written : Items PhaseWritten (Behind '|' PhaseWritten)
      ((first :: others).filterMap fun t => Phase.ofName? t.text) cur.rest m :=
    Items.filterMap (.mk (spelled _ _ _ name) further) phase
      fun t member s r behind => behind.map (phase t member)
  refine .mk written (filterMap_ofName? same ▸ nodup) ?_ (gap_skipGap cur')
  rw [← (symbol_eq_some.1 colon).1]
  exact white.trans (gap_skipGap m₂)

/-- References without fault mean their phases and their node. -/
theorem sound_nodeRef :
    Sound nodeRef fun e s r => e.faults = [] → RefWritten (e.phaseList, e.node.text) s r := by
  intro cur e cur' read good
  obtain ⟨phases, node, span⟩ := e
  obtain ⟨m, optional, ident, -⟩ := nodeRef_eq_some.1 read
  have written := nodeWritten_of_nodeIdent ident
  rcases optional_eq_some.1 optional with ⟨ts, rfl, prefixed⟩ | ⟨rfl, -, rfl⟩
  · exact .prefixed (prefixWritten_of_phasePrefix prefixed good) written
  · rw [skipGap_skipGap] at written
    exact .plain written

/-! ## Relations and entries -/

theorem comparatorWritten_of_comparator {cur cur' : Cursor} {t : Token} {c : Comparator}
    (read : (comparator cur).result = some (t, cur'))
    (known : Comparator.ofToken? t.text = some c) : ComparatorWritten c cur.rest cur'.rest := by
  obtain ⟨text, filled, split, long, -, rfl⟩ := (token_eq_some comparatorLength_le).1 read
  exact comparatorWritten_iff.2 ⟨text, filled, split, long, known⟩

theorem boundWritten_of_bound {cur cur' : Cursor} {t : Token} {b : UInt64}
    (read : (bound cur).result = some (t, cur')) (known : Text.count64? t.text.toList = some b) :
    BoundWritten b cur.rest cur'.rest := by
  obtain ⟨text, filled, split, long, -, rfl⟩ := (token_eq_some boundLength_le).1 read
  rw [String.toList_ofList] at known
  exact boundWritten_iff.2 ⟨text, filled, split, long, known⟩

theorem relation?_eq_some_iff {t : RelationTerm} {x : Relation} :
    t.relation? = some x ↔ t.comparator? = some x.comparator ∧ t.bound? = some x.bound := by
  obtain ⟨c, b⟩ := x
  simp [RelationTerm.relation?, Option.bind_eq_some_iff]

/-- A relation that has a comparator or a bound is without fault iff it denotes a relation. -/
theorem relationFaults_eq_nil_iff {node : String} {t : RelationTerm}
    (filled : t.comparator ≠ none ∨ t.bound ≠ none) :
    t.faults node = [] ↔ ∃ x, t.relation? = some x := by
  obtain ⟨c, b, span⟩ := t
  cases c with
  | none =>
      cases b with
      | none => simp at filled
      | some b =>
          cases value : Text.count64? b.text.toList <;>
            simp [RelationTerm.faults, RelationTerm.comparatorFaults, RelationTerm.boundFaults,
              RelationTerm.relation?, RelationTerm.comparator?, RelationTerm.bound?, value]
  | some c =>
      cases known : Comparator.ofToken? c.text <;> cases b with
      | none =>
          simp [RelationTerm.faults, RelationTerm.comparatorFaults, RelationTerm.boundFaults,
            RelationTerm.relation?, RelationTerm.comparator?, RelationTerm.bound?, known]
      | some b =>
          cases value : Text.count64? b.text.toList <;>
            simp [RelationTerm.faults, RelationTerm.comparatorFaults, RelationTerm.boundFaults,
              RelationTerm.relation?, RelationTerm.comparator?, RelationTerm.bound?, known, value]

/-- Relations without fault are those they denote. -/
theorem sound_relation (node : String) :
    Sound relation fun t s r =>
      t.faults node = [] → ∃ x, t.relation? = some x ∧ RelationWritten x s r := by
  intro cur e cur' read good
  obtain ⟨c, b, span⟩ := e
  obtain ⟨-, ⟨t, m, rfl, token, optional⟩ | ⟨-, t, rfl, rfl, token⟩⟩ := relation_eq_some.1 read
  · obtain ⟨x, denoted⟩ := (relationFaults_eq_nil_iff (.inl (by simp))).1 good
    obtain ⟨known, value⟩ := relation?_eq_some_iff.1 denoted
    rcases optional_eq_some.1 optional with ⟨u, rfl, token'⟩ | ⟨rfl, -, -⟩
    · exact ⟨x, denoted, .compared (comparatorWritten_of_comparator token known) (gap_skipGap m)
        (boundWritten_of_bound token' value)⟩
    · cases value
  · obtain ⟨⟨c, b⟩, denoted⟩ := (relationFaults_eq_nil_iff (.inr (by simp))).1 good
    obtain ⟨known, value⟩ := relation?_eq_some_iff.1 denoted
    cases known
    exact ⟨_, denoted, .bare (boundWritten_of_bound token value)⟩

/-- Entries without fault say what their clauses say. -/
theorem sound_countsEntry :
    Sound countsEntry fun e s r => e.faults = [] → CountsWritten e.clause.content s r := by
  intro cur e cur' read good
  obtain ⟨ref, terms, span⟩ := e
  obtain ⟨m, refRead, termsRead, -⟩ := countsEntry_eq_some.1 read
  simp only [Entry.faults, List.append_eq_nil_iff, List.flatMap_eq_nil_iff] at good
  obtain ⟨⟨refGood, filled⟩, termsGood⟩ := good
  have written := sound_nodeRef cur ref m refRead refGood
  rcases items_of_many (sound_relation ref.node.text) termsRead with ⟨rfl, -⟩ | items
  · simp at filled
  · exact .mk written (gap_skipGap m) (items.filterMap
      (fun t member s r scanned => scanned (termsGood t member))
      fun t member s r scanned => scanned (termsGood t member))

theorem sound_failOnEntry :
    Sound nodeRef fun e s r => e.faults = [] → FailOnWritten e.clause.content s r :=
  fun cur e cur' read good => .mk (sound_nodeRef cur e cur' read good)

/-! ## Lists -/

theorem listWritten_of_wholeList {rule : Rule} {item : Scanner α} {h : item.Consumes}
    {R : Reading α} (sound : Sound item R) {cur cur' : Cursor} {as : List α}
    (read : (wholeList rule item h cur).result = some (as, cur')) :
    ListWritten R as cur.rest := by
  rw [wholeList, named_result, gap_andThen_result] at read
  obtain ⟨found, m, optional, read⟩ := andThen_eq_some.1 read
  rw [gap_andThen_result] at read
  obtain ⟨_, stop, atEnd, made⟩ := andThen_eq_some.1 read
  obtain ⟨rfl, rfl⟩ := succeed_eq_some.1 made
  rw [named_result, ended_eq_some] at atEnd
  have closing : Gap m.rest [] := atEnd.1 ▸ gap_skipGap m
  rcases optional_eq_some.1 optional with ⟨bs, rfl, filled⟩ | ⟨rfl, -, rfl⟩
  · obtain ⟨first, m₁, firstRead, filled⟩ := andThen_eq_some.1 filled
    rw [gap_andThen_result] at filled
    obtain ⟨others, m₂, othersRead, filled⟩ := andThen_eq_some.1 filled
    rw [gap_andThen_result] at filled
    obtain ⟨_, m₃, comma, made⟩ := andThen_eq_some.1 filled
    obtain ⟨rfl, rfl⟩ := succeed_eq_some.1 made
    obtain ⟨m₄, further, white⟩ := further_of_many (sound.separated ',') othersRead
    have before := white.trans (gap_skipGap m₂)
    refine .filled (gap_skipGap cur) (.mk (sound _ _ _ firstRead) further) ?_
    rcases optional_eq_some.1 comma with ⟨_, -, symbol⟩ | ⟨-, -, rfl⟩
    · exact .inr ⟨_, (symbol_eq_some.1 symbol).1 ▸ before, closing⟩
    · exact .inl (before.trans closing)
  · exact .blank ((gap_skipGap cur).trans closing)

theorem ListWritten.map {R : Reading α} {S : Reading β} {f : α → β} {as : List α}
    {source : List Char} (written : ListWritten R as source)
    (each : ∀ a ∈ as, ∀ s r, R a s r → S (f a) s r) : ListWritten S (as.map f) source := by
  cases written with
  | blank gap => exact .blank gap
  | filled before entries after =>
      have kept : ∀ a ∈ as, ∀ s r, R a s r → ∃ b, (some ∘ f) a = some b ∧ S b s r :=
        fun a member s r read => ⟨f a, rfl, each a member s r read⟩
      rw [← List.filterMap_eq_map]
      exact .filled before
        (entries.filterMap kept fun a member s r behind => behind.map (kept a member)) after

/-! ## What is never written -/

theorem Further.forall_mem {R : Reading α} {P : α → Prop} {as : List α} {source rest : List Char}
    (written : Further R as source rest) (each : ∀ a s r, R a s r → P a) : ∀ a ∈ as, P a := by
  induction written with
  | done => simp
  | next gap item later ih => exact List.forall_mem_cons.2 ⟨each _ _ _ item, ih⟩

theorem Items.forall_mem {R : Reading α} {P : α → Prop} {c : Char} {as : List α}
    {source rest : List Char} (written : Items R (Behind c R) as source rest)
    (each : ∀ a s r, R a s r → P a) : ∀ a ∈ as, P a := by
  obtain ⟨first, others⟩ := written
  refine List.forall_mem_cons.2 ⟨each _ _ _ first, others.forall_mem ?_⟩
  rintro a _ r ⟨gap, item⟩
  exact each _ _ _ item

theorem ListWritten.forall_mem {R : Reading α} {P : α → Prop} {as : List α} {source : List Char}
    (written : ListWritten R as source) (each : ∀ a s r, R a s r → P a) : ∀ a ∈ as, P a := by
  cases written with
  | blank gap => simp
  | filled before entries after => exact entries.forall_mem each

/-- A prefix is never empty, repeats no phase and does not name the placeholder. -/
theorem PrefixWritten.phases {ps : List Phase} {source rest : List Char}
    (written : PrefixWritten ps source rest) : ps ≠ [] ∧ ps.Nodup ∧ .placeholder ∉ ps := by
  obtain ⟨names, distinct, before, after⟩ := written
  refine ⟨?_, distinct, fun member => ?_⟩
  · obtain ⟨first, others⟩ := names
    exact List.cons_ne_nil _ _
  · refine names.forall_mem (P := fun p => p ≠ .placeholder) ?_ _ member rfl
    rintro p _ r ⟨concrete⟩
    exact concrete

theorem RefWritten.own {phases : Option (List Phase)} {node : String} {source rest : List Char}
    (written : RefWritten (phases, node) source rest) :
    ∀ ps, phases = some ps → ps ≠ [] ∧ ps.Nodup ∧ .placeholder ∉ ps := by
  cases written with
  | plain ident => simp
  | prefixed before ident =>
      rintro ps ⟨⟩
      exact before.phases

end DumpRules.Grammar

namespace DumpRules

open Grammar

theorem scanAll_eq_ok_iff {α : Type} {p : Scanner α} {source : List Char} {a : α} :
    scanAll p source = .ok a ↔ ∃ stop, (p ⟨0, source⟩).result = some (a, stop) := by
  simp only [scanAll]
  split
  · rename_i scanned
    simp [scanned]
  · rename_i failed
    simp [failed]

theorem judge_eq_ok_iff {α : Type} {list : ListKind} {faults : α → List (Span × Fault)}
    {clause : α → Clause} {es : List α} {cs : List Clause} :
    judge list faults clause es = .ok cs ↔ (∀ e ∈ es, faults e = []) ∧ cs = es.map clause := by
  rw [← List.flatMap_eq_nil_iff]
  unfold judge
  split
  · rename_i clean
    simp [clean, eq_comm]
  · rename_i faulty
    simp only [reduceCtorEq, false_iff]
    exact fun good => faulty good.1

/-- A list is read iff its text is scanned and none of its entries has a fault. -/
theorem readList_eq_ok_iff {α : Type} {list : ListKind} {scanner : Scanner (List α)}
    {faults : α → List (Span × Fault)} {clause : α → Clause} {source : String}
    {cs : List Clause} :
    readList list scanner faults clause source = .ok cs ↔
      ∃ es stop, (scanner ⟨0, source.toList⟩).result = some (es, stop) ∧
        (∀ e ∈ es, faults e = []) ∧ cs = es.map clause := by
  unfold readList
  cases scanned : scanAll scanner source.toList with
  | error u =>
      simp only [reduceCtorEq, false_iff]
      rintro ⟨es, stop, read, -⟩
      rw [scanAll_eq_ok_iff.2 ⟨stop, read⟩] at scanned
      cases scanned
  | ok es =>
      obtain ⟨stop, read⟩ := scanAll_eq_ok_iff.1 scanned
      simp [read, judge_eq_ok_iff]

theorem readFailOn_written {source : String} {cs : List Clause}
    (read : readFailOn source = .ok cs) :
    ListWritten FailOnWritten (cs.map Clause.content) source.toList := by
  obtain ⟨es, stop, scanned, good, rfl⟩ := readList_eq_ok_iff.1 read
  rw [List.map_map]
  exact (listWritten_of_wholeList sound_failOnEntry scanned).map
    fun e member s r entry => entry (good e member)

theorem readCounts_written {source : String} {cs : List Clause}
    (read : readCounts source = .ok cs) :
    ListWritten CountsWritten (cs.map Clause.content) source.toList := by
  obtain ⟨es, stop, scanned, good, rfl⟩ := readList_eq_ok_iff.1 read
  rw [List.map_map]
  exact (listWritten_of_wholeList sound_countsEntry scanned).map
    fun e member s r entry => entry (good e member)

end DumpRules
