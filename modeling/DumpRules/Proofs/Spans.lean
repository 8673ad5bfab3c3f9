import DumpRules.Proofs.Grammar.Cutting
import DumpRules.Proofs.RoundTrip
import DumpRules.Proofs.Trimming

/-!
# Stretches of text

A fault and a clause both know the stretch of text that they are about. A fault that reports a word
marks just that word; where something is missing, it marks what the missing part should have stood
behind, with the white space that follows. The stretches of clauses come one after the other, and
each can be cut out and read alone (`stretches_point`).

Scanners put stretches down where they stand, so it is enough to know that they stand within the
text (`Yields`), entry by entry (`Listed.exists_read`).
-/

namespace DumpRules

set_option autoImplicit false

open Grammar

/-! ## Slices -/

/-- The text at a stretch. -/
def Span.slice (source : String) (span : Span) : String :=
  String.Pos.Raw.extract source ⟨span.start⟩ ⟨span.stop⟩

/-- A text without the white space at its end. -/
def trimmedEnd (text : String) : String :=
  String.ofList (text.toList.rdropWhile isGap)

/-- What a fault names is the text at its stretch, or what is left of it without the white space at
its end if something is missing there. -/
def Fault.Names (slice : String) : Fault → Prop
  | .unexpected _ => True
  | .unknownComparator token _ => slice = token
  | .invalidBound token _ => slice = token
  | .missingBound comparator _ => trimmedEnd slice = comparator
  | .missingRelation node =>
    (∃ names, RefShaped (names, node) (trimmedEnd slice).toList []) ∧
      node.toList <:+ (trimmedEnd slice).toList
  | .unknownPhase name => slice = name
  | .placeholderPhase _ => slice = "DEFAULT"
  | .duplicatePhase phase _ => slice = phase.name

/-- A fault at a stretch of a text points at what it names. -/
structure Points (source : String) (span : Span) (fault : Fault) : Prop where
  within : span.start + span.length ≤ source.utf8ByteSize
  names : fault.Names (span.slice source)

namespace Span.Marks

variable {span : Span} {text : List Char}

theorem slice_eq {source : String} (marks : span.Marks source.toList text) :
    span.slice source = String.ofList text := by
  rw [← String.toList_ofList (l := text)] at marks
  exact marks.extract_eq

theorem length_eq {source : List Char} (marks : span.Marks source text) :
    span.stop = span.start + byteLength text := by
  obtain ⟨before, after, -, rfl⟩ := marks
  exact byteLength_append before text

theorem stop_le {source : String} (marks : span.Marks source.toList text) :
    span.stop ≤ source.utf8ByteSize := by
  obtain ⟨before, after, split, rfl⟩ := marks
  rw [← byteLength_toList, split, byteLength_append _ after]
  exact Nat.le_add_right _ _

theorem points {source : String} (marks : span.Marks source.toList text) {fault : Fault}
    (names : fault.Names (String.ofList text)) : Points source span fault where
  within := by
    have stop := marks.stop_le
    have length := marks.length_eq
    unfold Span.length
    omega
  names := by rwa [marks.slice_eq]

end Span.Marks

/-- A fault stands at a piece of a text and names it. -/
def Fault.StandsAt (source : List Char) (span : Span) (fault : Fault) : Prop :=
  ∃ text, span.Marks source text ∧ fault.Names (String.ofList text)

theorem Fault.StandsAt.points {source : String} {span : Span} {fault : Fault}
    (stands : fault.StandsAt source.toList span) : Points source span fault := by
  obtain ⟨text, marks, names⟩ := stands
  exact marks.points names

namespace Grammar

variable {α : Type} {source : List Char}

/-- What is passed over between two places within a text is marked by them. -/
theorem marks_of_passed {cur cur' : Cursor} {text : List Char}
    (within : Cursor.Reaches ⟨0, source⟩ cur) (split : cur.rest = text ++ cur'.rest)
    (place : cur'.offset = cur.offset + byteLength text) :
    Span.Marks source ⟨cur.offset, cur'.offset⟩ text := by
  obtain ⟨before, whole, start⟩ := within
  have whole : source = before ++ cur.rest := whole
  refine ⟨before, cur'.rest, by rw [whole, split, List.append_assoc], ?_⟩
  rw [place, start, byteLength_append, Nat.zero_add]

/-- White space at the end of a text is trimmed, and nothing else. -/
theorem rdropWhile_isGap {text white : List Char} (all : ∀ c ∈ white, White c)
    (solid : ∀ c ∈ text.getLast?, ¬White c) : (text ++ white).rdropWhile isGap = text := by
  refine rdropWhile_append (fun c member => (isGap_iff c).2 (all c member)) fun c last white => ?_
  exact solid c last ((isGap_iff c).1 white)

/-- The white space behind what was passed over is marked with it, and can be trimmed. -/
theorem marks_of_passed_gap {cur mid : Cursor} {text : List Char}
    (within : Cursor.Reaches ⟨0, source⟩ cur) (split : cur.rest = text ++ mid.rest)
    (place : mid.offset = cur.offset + byteLength text) (solid : ∀ c ∈ text.getLast?, ¬White c) :
    ∃ whole, Span.Marks source ⟨cur.offset, mid.skipGap.offset⟩ whole ∧
      whole.rdropWhile isGap = text := by
  refine ⟨text ++ mid.rest.takeWhile isGap, marks_of_passed within ?_ ?_, rdropWhile_isGap ?_ solid⟩
  · rw [split, List.append_assoc]
    exact congrArg (text ++ ·) List.takeWhile_append_dropWhile.symm
  · rw [byteLength_append, ← Nat.add_assoc, ← place]
    rfl
  · exact fun c member => (isGap_iff c).1 (List.mem_takeWhile_imp member)

/-! ## What scanners mark -/

/-- All that a scanner reads behind white space within a text satisfies a condition. -/
def Yields (source : List Char) (p : Scanner α) (P : α → Prop) : Prop :=
  ∀ cur a cur', Cursor.Reaches ⟨0, source⟩ cur → (p cur.skipGap).result = some (a, cur') → P a

namespace Yields

open Scanner

variable {item : Scanner α} {P : α → Prop} (yields : Yields source item P)

include yields

theorem separated (c : Char) : Yields source (Grammar.separated c item) P := by
  intro cur a cur' within read
  obtain ⟨_, mid, symbol, read⟩ := andThen_eq_some.1 read
  rw [gap_andThen_result] at read
  have within := within.trans (reaches_skipGap cur)
  exact yields mid _ _ (within.trans (Advances.symbol c _ _ _ symbol)) read

theorem of_more (advances : Advances item) {h : item.Consumes} {cur cur' : Cursor} {as : List α}
    (within : Cursor.Reaches ⟨0, source⟩ cur)
    (read : (more item h cur).result = some (as, cur')) : ∀ a ∈ as, P a := by
  fun_induction more item h cur generalizing as with
  | case1 =>
      simp only [Option.some.injEq, Prod.mk.injEq] at read
      obtain ⟨rfl, -⟩ := read
      exact List.forall_mem_nil _
  | case2 cur s a next scanned t =>
      rename_i ih
      obtain ⟨⟨later, stop⟩, rest, same⟩ := Option.map_eq_some_iff.1 read
      simp only [Prod.mk.injEq] at same
      obtain ⟨rfl, rfl⟩ := same
      have behind := (within.trans (reaches_skipGap cur)).trans (advances _ _ _ scanned)
      exact List.forall_mem_cons.2 ⟨yields _ _ _ within scanned, ih behind rest⟩

theorem many (advances : Advances item) (h : item.Consumes) :
    Yields source (Scanner.many item h) fun as => ∀ a ∈ as, P a := by
  intro cur as cur' within read
  obtain ⟨x, mid, tried, rest⟩ := andThen_eq_some.1 read
  rcases optional_eq_some.1 tried with ⟨a, rfl, scanned⟩ | ⟨rfl, -, rfl⟩
  · obtain ⟨later, stop, others, made⟩ := andThen_eq_some.1 rest
    obtain ⟨rfl, rfl⟩ := succeed_eq_some.1 made
    have behind := (within.trans (reaches_skipGap cur)).trans (advances _ _ _ scanned)
    exact List.forall_mem_cons.2
      ⟨yields _ _ _ within scanned, yields.of_more advances behind others⟩
  · obtain ⟨rfl, rfl⟩ := succeed_eq_some.1 rest
    exact List.forall_mem_nil _

end Yields

/-- A token stands in a text where it says. -/
def Token.Marked (source : List Char) (t : Token) : Prop :=
  t.span.Marks source t.text.toList

def NodeRef.Marked (source : List Char) (r : NodeRef) : Prop :=
  ∀ ts, r.phases = some ts → ∀ t ∈ ts, t.Marked source

structure RelationTerm.Marked (source : List Char) (t : RelationTerm) : Prop where
  comparator : ∀ c, t.comparator = some c → c.Marked source
  bound : ∀ b, t.bound = some b → b.Marked source
  /-- Without a bound, the stretch of a relation is its comparator and white space. -/
  lacking : ∀ c, t.comparator = some c → t.bound = none →
    ∃ text, t.span.Marks source text ∧ text.rdropWhile isGap = c.text.toList

structure Entry.Marked (source : List Char) (e : Entry) : Prop where
  ref : e.ref.Marked source
  relations : ∀ t ∈ e.relations, t.Marked source
  /-- Without a relation, the stretch of an entry is its reference and white space. -/
  lacking : e.relations = [] → ∃ text names, e.span.Marks source text ∧
    RefShaped (names, e.ref.node.text) (text.rdropWhile isGap) []

open Scanner

theorem yields_token {rule : Rule} {length : List Char → Nat}
    (fits : ∀ cs, length cs ≤ cs.length) :
    Yields source (token rule length) (Token.Marked source) := by
  intro cur t cur' within read
  obtain ⟨text, -, split, -, moved, rfl⟩ := (token_eq_some fits).1 read
  have marks := marks_of_passed (within.trans (reaches_skipGap cur)) split moved
  rwa [Token.Marked, String.toList_ofList]

theorem yields_phasePrefix :
    Yields source phasePrefix fun ts => ∀ t ∈ ts, t.Marked source := by
  intro cur ts cur' within read
  obtain ⟨first, others, m₁, m₂, rfl, name, names, -⟩ := phasePrefix_eq_some.1 read
  have yields : Yields source phaseName (Token.Marked source) := yields_token (wordLength_le _ _)
  have advances : Advances phaseName := Advances.token (wordLength_le _ _)
  have behind := (within.trans (reaches_skipGap cur)).trans (advances _ _ _ name)
  exact List.forall_mem_cons.2 ⟨yields _ _ _ within name,
    (yields.separated '|').many (advances.separated '|') _ _ _ _ behind names⟩

theorem yields_nodeRef : Yields source nodeRef (NodeRef.Marked source) := by
  intro cur r cur' within read ts named
  obtain ⟨m, optional, -, -⟩ := nodeRef_eq_some.1 read
  rcases optional_eq_some.1 optional with ⟨_, same, prefixed⟩ | ⟨plain, -, -⟩
  · cases named.symm.trans same
    exact yields_phasePrefix _ _ _ within prefixed
  · cases named.symm.trans plain

theorem not_white_of_comparator {text rest : List Char} (filled : text ≠ [])
    (long : comparatorLength (text ++ rest) = text.length) : ∀ c ∈ text, ¬White c := by
  intro c member white
  have first : RelationFirst c := by
    rcases (comparatorLength_append_iff filled).1 long with ⟨signs, -⟩ | ⟨letters, -⟩
    · exact .inl (signs c member)
    · exact .inr (.inl (letters c member))
  exact not_relationFirst_of_white white first

theorem yields_relation : Yields source relation (RelationTerm.Marked source) := by
  intro cur t cur' within read
  obtain ⟨comparator, bound, span⟩ := t
  have bounds : Yields source Grammar.bound (Token.Marked source) := yields_token boundLength_le
  obtain ⟨rfl, ⟨c, m, rfl, token, optional⟩ | ⟨-, b, rfl, rfl, token⟩⟩ := relation_eq_some.1 read
  · have marked : c.Marked source := yields_token comparatorLength_le _ _ _ within token
    obtain ⟨text, filled, split, long, moved, rfl⟩ := (token_eq_some comparatorLength_le).1 token
    have here := within.trans (reaches_skipGap cur)
    constructor
    case comparator =>
      rintro _ ⟨⟩
      exact marked
    case bound =>
      rintro b rfl
      rcases optional_eq_some.1 optional with ⟨_, same, token'⟩ | ⟨⟨⟩, -, -⟩
      cases same
      exact bounds _ _ _ (here.trans ⟨text, split, moved⟩) token'
    case lacking =>
      rintro _ ⟨⟩ rfl
      rcases optional_eq_some.1 optional with ⟨_, ⟨⟩, -⟩ | ⟨-, -, rfl⟩
      rw [String.toList_ofList]
      refine marks_of_passed_gap here split moved fun c last => ?_
      rw [split] at long
      exact not_white_of_comparator filled long c (List.mem_of_getLast? last)
  · constructor
    case comparator => rintro _ ⟨⟩
    case bound =>
      rintro _ ⟨⟩
      exact bounds _ _ _ within token
    case lacking => rintro _ ⟨⟩

theorem not_white_of_isIdent {node : String} (ident : IsIdent node) :
    ∀ c ∈ node.toList, ¬White c := by
  obtain ⟨x, xs, text, first, later⟩ := ident
  rw [text]
  intro c member white
  apply not_nodeLater_of_white white
  rcases List.mem_cons.1 member with rfl | among
  · exact first.imp_right fun same => .inr (by simp [same])
  · exact later c among

/-- A reference ends with its node. -/
theorem RefShaped.ends_with_node {names : Option (List String)} {node : String} {text : List Char}
    (shaped : RefShaped (names, node) text []) : IsIdent node ∧ node.toList <:+ text := by
  have alone : ∀ {m}, NodeWritten node m [] → m = node.toList := by
    rintro _ ⟨first, later, ends⟩
    rw [String.toList_ofList, List.append_nil]
  cases shaped with
  | plain ident => exact ⟨isIdent_of_nodeWritten ident, [], (alone ident).symm⟩
  | @prefixed _ _ _ m _ named ident =>
      obtain ⟨front, rfl, -⟩ := cuttable_names _ _ [] m named
      exact ⟨isIdent_of_nodeWritten ident, front, by rw [alone ident]⟩

/-- A reference does not end with white space. -/
theorem RefShaped.not_white {names : Option (List String)} {node : String} {text : List Char}
    (shaped : RefShaped (names, node) text []) : ∀ c ∈ text.getLast?, ¬White c := by
  obtain ⟨ident, front, rfl⟩ := shaped.ends_with_node
  have filled : node.toList ≠ [] := by
    obtain ⟨x, xs, text, -, -⟩ := ident
    rw [text]
    exact List.cons_ne_nil x xs
  intro c last
  rw [List.getLast?_append_of_ne_nil _ filled] at last
  exact not_white_of_isIdent ident c (List.mem_of_getLast? last)

theorem yields_countsEntry : Yields source countsEntry (Entry.Marked source) := by
  intro cur e cur' within read
  obtain ⟨ref, terms, span⟩ := e
  obtain ⟨m, refRead, termsRead, rfl⟩ := countsEntry_eq_some.1 read
  have here := within.trans (reaches_skipGap cur)
  obtain ⟨text, split, moved⟩ := advances_nodeRef _ _ _ refRead
  constructor
  case ref => exact yields_nodeRef _ _ _ within refRead
  case relations =>
    exact yields_relation.many advances_relation _ _ _ _ (here.trans ⟨text, split, moved⟩) termsRead
  case lacking =>
    rintro rfl
    rcases items_of_many (sound_relation ref.node.text) termsRead with ⟨-, rfl⟩ | items
    case inr => cases items
    have shaped := sound_shape cur ref m refRead
    rw [split] at shaped
    obtain ⟨front, same, shaped⟩ := cuttable_shape _ _ [] _ shaped
    obtain rfl : text = front := List.append_cancel_right same
    obtain ⟨whole, marks, trimmed⟩ := marks_of_passed_gap here split moved shaped.not_white
    exact ⟨whole, _, marks, trimmed ▸ shaped⟩

end Grammar

/-! ## Faults -/

section Faults

variable {source : List Char}

theorem standsAt_of_phaseFaults {node : String} {seen : List Phase} {ts : List Token}
    (marked : ∀ t ∈ ts, t.Marked source) :
    ∀ f ∈ phaseFaults node seen ts, f.2.StandsAt source f.1 := by
  have named : ∀ {t : Token} {p : Phase}, Phase.ofName? t.text = some p →
      String.ofList t.text.toList = p.name := fun known => by
    rw [String.ofList_toList, name_of_ofName? known]
  fun_induction phaseFaults node seen ts with
  | case1 => simp
  | case2 seen t later unknown ih =>
      obtain ⟨first, others⟩ := List.forall_mem_cons.1 marked
      exact List.forall_mem_cons.2 ⟨⟨_, first, String.ofList_toList⟩, ih others⟩
  | case3 seen t later placeholder ih =>
      obtain ⟨first, others⟩ := List.forall_mem_cons.1 marked
      exact List.forall_mem_cons.2 ⟨⟨_, first, named placeholder⟩, ih others⟩
  | case4 seen t later p concrete known again ih =>
      obtain ⟨first, others⟩ := List.forall_mem_cons.1 marked
      exact List.forall_mem_cons.2 ⟨⟨_, first, named known⟩, ih others⟩
  | case5 seen t later p concrete known fresh ih =>
      exact ih (List.forall_mem_cons.1 marked).2

theorem standsAt_of_nodeRef {r : NodeRef} (marked : r.Marked source) :
    ∀ f ∈ r.faults, f.2.StandsAt source f.1 := by
  unfold NodeRef.faults
  cases named : r.phases with
  | none => simp
  | some ts => exact standsAt_of_phaseFaults (marked ts named)

theorem standsAt_of_relation {node : String} {t : RelationTerm} (marked : t.Marked source) :
    ∀ f ∈ t.faults node, f.2.StandsAt source f.1 := by
  refine List.forall_mem_append.2 ⟨?_, ?_⟩
  · unfold RelationTerm.comparatorFaults
    split
    · simp
    · rename_i c written
      split
      · simp
      · have marks := marked.comparator c written
        exact List.forall_mem_singleton.2 ⟨_, marks, String.ofList_toList⟩
  · unfold RelationTerm.boundFaults
    split
    · rename_i b written
      split
      · simp
      · have marks := marked.bound b written
        exact List.forall_mem_singleton.2 ⟨_, marks, String.ofList_toList⟩
    · rename_i c missing written
      split
      · obtain ⟨text, marks, trimmed⟩ := marked.lacking c written missing
        refine List.forall_mem_singleton.2 ⟨text, marks, ?_⟩
        show trimmedEnd (String.ofList text) = c.text
        rw [trimmedEnd, String.toList_ofList, trimmed, String.ofList_toList]
      · simp
    · simp

theorem standsAt_of_entry {e : Entry} (marked : e.Marked source) :
    ∀ f ∈ e.faults, f.2.StandsAt source f.1 := by
  refine List.forall_mem_append.2 ⟨List.forall_mem_append.2
    ⟨standsAt_of_nodeRef marked.ref, ?_⟩, fun f member => ?_⟩
  · split
    · rename_i lacking
      obtain ⟨text, names, marks, shaped⟩ := marked.lacking (List.isEmpty_iff.1 lacking)
      refine List.forall_mem_singleton.2 ⟨text, marks, ?_⟩
      rw [Fault.Names, trimmedEnd, String.toList_ofList, String.toList_ofList]
      exact ⟨⟨names, shaped⟩, shaped.ends_with_node.2⟩
    · simp
  · obtain ⟨t, among, member⟩ := List.mem_flatMap.1 member
    exact standsAt_of_relation (marked.relations t among) f member

theorem points_of_nodeRef {source : String} {r : NodeRef} (marked : r.Marked source.toList) :
    ∀ f ∈ r.faults, Points source f.1 f.2 :=
  fun f member => (standsAt_of_nodeRef marked f member).points

theorem points_of_entry {source : String} {e : Entry} (marked : e.Marked source.toList) :
    ∀ f ∈ e.faults, Points source f.1 f.2 :=
  fun f member => (standsAt_of_entry marked f member).points

end Faults

/-! ## Lists -/

section Lists

variable {α : Type} {item : Scanner α} {consumes : item.Consumes} {rule : Rule} {kind : ListKind}
  {faults : α → List (Span × Fault)} {clause : α → Clause} {source : String}

/-- Each entry of a list was read somewhere in it. -/
theorem Grammar.Listed.exists_read (advances : Advances item) {cur : Cursor} {as : List α}
    (listed : Listed item cur as) : ∀ a ∈ as, ∃ here stop, cur.Reaches here ∧
      (item here.skipGap).result = some (a, stop) := by
  induction listed with
  | blank ended => exact List.forall_mem_nil _
  | @last cur stop a read ended =>
      exact List.forall_mem_singleton.2 ⟨cur, stop, .refl cur, read⟩
  | @next cur stop a as later read comma others ih =>
      refine List.forall_mem_cons.2 ⟨⟨cur, stop, .refl cur, read⟩, fun b member => ?_⟩
      obtain ⟨here, stop', reached, read'⟩ := ih b member
      have behind := (reaches_skipGap cur).trans (advances _ _ _ read)
      have past : stop.skipGap.Reaches ⟨stop.skipGap.offset + 1, later⟩ := ⟨[','], comma, rfl⟩
      exact ⟨here, stop', ((behind.trans (reaches_skipGap stop)).trans past).trans reached, read'⟩

/-- The place where a text goes wrong lies within it. -/
theorem within_of_scanAll {p : Scanner (List α)} {u : Unexpected}
    (failed : scanAll p source.toList = .error u) :
    u.span.start + u.span.length ≤ source.utf8ByteSize := by
  simp only [scanAll] at failed
  split at failed
  · cases failed
  · cases failed
    rw [byteLength_toList]
    simp only [Span.length]
    omega

/-- Whatever holds of a text that is no list, and of the faults of each entry that is read within a
text, holds of all faults of a list. -/
theorem forall_leaves_of_readList {Q : ClauseError → Prop} (advances : Advances item)
    (unread : ∀ u, scanAll (wholeList rule item consumes) source.toList = .error u →
      Q ⟨kind, u.span, .unexpected u.expected⟩)
    (yields : Yields source.toList item fun a => ∀ f ∈ faults a, Q ⟨kind, f.1, f.2⟩)
    {e : ListError}
    (refused : readList kind (wholeList rule item consumes) faults clause source = .error e) :
    ∀ leaf ∈ e.leaves, Q leaf := by
  unfold readList at refused
  split at refused
  · rename_i u failed
    cases refused
    exact List.forall_mem_singleton.2 (unread u failed)
  · rename_i as scanned
    obtain ⟨stop, read⟩ := scanAll_eq_ok_iff.1 scanned
    have listed := (wholeList_iff_listed consumes).1 ⟨stop, read⟩
    have leaves : e.leaves = (as.flatMap faults).map fun f => ⟨kind, f.1, f.2⟩ := by
      rw [← faultsOf_judge, refused]
      rfl
    rw [leaves]
    refine List.forall_mem_map.2 fun f member => ?_
    obtain ⟨a, among, member⟩ := List.mem_flatMap.1 member
    obtain ⟨here, stop, within, read⟩ := listed.exists_read advances a among
    exact yields here a stop within read f member

theorem points_of_readList (advances : Advances item)
    (yields : Yields source.toList item fun a => ∀ f ∈ faults a, Points source f.1 f.2)
    {e : ListError}
    (refused : readList kind (wholeList rule item consumes) faults clause source = .error e) :
    ∀ leaf ∈ e.leaves, Points source leaf.span leaf.fault :=
  forall_leaves_of_readList advances (fun _ failed => ⟨within_of_scanAll failed, trivial⟩) yields
    refused

end Lists

/-! ## Clauses -/

/-- Clauses at stretches of a text that come one after the other, each of which is just its clause
when it is read alone. -/
structure Laid (kind : ListKind) (source : String) (cs : List Clause) : Prop where
  filled : ∀ c ∈ cs, c.span.start < c.span.stop ∧ c.span.stop ≤ source.utf8ByteSize
  apart : cs.Pairwise fun c d => c.span.stop < d.span.start
  alone : ∀ c ∈ cs,
    kind.read (c.span.slice source) = .ok [{ c with span := ⟨0, c.span.length⟩ }]

section Clauses

variable {α : Type} {item : Scanner α} {consumes : item.Consumes} {rule : Rule} {kind : ListKind}
  {move : Nat → α → α} {faults : α → List (Span × Fault)} {clause : α → Clause}
  {R : Reading Content} {source : String} (laws : EntryLaws item move faults clause)
  (sound : Sound item fun a s r => faults a = [] → R (clause a).content s r)
  (cuttable : Cuttable R)
  (complete : Complete item R (fun x a => faults a = [] ∧ (clause a).content = x) ListFollow)
  (spans : ∀ cur stop a, (item cur).result = some (a, stop) →
    (clause a).span = ⟨cur.offset, stop.offset⟩)

theorem Clause.eq_of_content {c d : Clause} (content : c.content = d.content)
    (span : c.span = d.span) : c = d := by
  obtain ⟨node, demand, phases, _⟩ := c
  cases content
  cases span
  rfl

theorem Grammar.Cursor.Reaches.offset_le {cur cur' : Cursor} (reached : cur.Reaches cur') :
    cur.offset ≤ cur'.offset := by
  obtain ⟨text, -, moved⟩ := reached
  omega

include laws spans

/-- The stretch of a clause is the text that it was read from. -/
theorem marks_of_entry {here stop : Cursor} {a : α}
    (within : Cursor.Reaches ⟨0, source.toList⟩ here)
    (read : (item here.skipGap).result = some (a, stop)) :
    ∃ text, text ≠ [] ∧ here.skipGap.rest = text ++ stop.rest ∧
      (clause a).span.Marks source.toList text := by
  obtain ⟨text, split, moved⟩ := laws.advances _ _ _ read
  refine ⟨text, ?_, split, ?_⟩
  · rintro rfl
    have consumed := laws.consumes _ _ _ read
    rw [split] at consumed
    exact absurd consumed (Nat.lt_irrefl _)
  · rw [spans _ _ _ read]
    exact marks_of_passed (within.trans (reaches_skipGap here)) split moved

theorem pairwise_of_listed {cur : Cursor} {as : List α} (listed : Listed item cur as) :
    (as.map clause).Pairwise fun c d => c.span.stop < d.span.start := by
  induction listed with
  | blank ended => exact .nil
  | last read ended => exact List.pairwise_singleton _ _
  | @next cur stop a as later read comma others ih =>
      refine List.pairwise_cons.2 ⟨List.forall_mem_map.2 fun b member => ?_, ih⟩
      obtain ⟨here, stop', reached, read'⟩ := others.exists_read laws.advances b member
      rw [spans _ _ _ read, spans _ _ _ read']
      have past := reached.offset_le
      have before := (reaches_skipGap stop).offset_le
      have behind := (reaches_skipGap here).offset_le
      simp only at past ⊢
      omega

include sound cuttable complete

/-- A clause that was read from a list is read from its stretch alone. -/
theorem readList_slice {here stop : Cursor} {a : α}
    (within : Cursor.Reaches ⟨0, source.toList⟩ here)
    (read : (item here.skipGap).result = some (a, stop)) (good : faults a = []) :
    readList kind (wholeList rule item consumes) faults clause ((clause a).span.slice source) =
      .ok [{ clause a with span := ⟨0, (clause a).span.length⟩ }] := by
  obtain ⟨text, filled, split, marks⟩ := marks_of_entry laws spans within read
  -- The clause is written in front of the rest of the list, hence also alone.
  have written := sound _ _ _ read good
  rw [split] at written
  obtain ⟨front, same, alone⟩ := cuttable _ _ [] _ written
  obtain rfl : text = front := List.append_cancel_right same
  obtain ⟨b, offset, read', good', content⟩ :=
    complete.reads _ _ _ alone (listFollow_of_closed closed_nil) 0
  have span : (clause b).span = ⟨0, (clause a).span.length⟩ := by
    obtain ⟨text', split', moved⟩ := laws.advances _ _ _ read'
    rw [List.append_nil] at split'
    rw [spans _ _ _ read', Span.length, marks.length_eq, Nat.add_sub_cancel_left, moved, ← split',
      Nat.zero_add]
  have listed : Listed item ⟨0, (String.ofList text).toList⟩ [b] := by
    have here : (Cursor.mk 0 text).skipGap = ⟨0, text⟩ :=
      skipGap_eq_self (complete.solid _ _ _ alone)
    rw [← here] at read'
    rw [String.toList_ofList]
    exact .last read' rfl
  rw [marks.slice_eq, readList_of_listed listed, judge_of_none (by simp [good'])]
  exact congrArg (fun c => Except.ok [c]) (Clause.eq_of_content content span)

theorem laid_of_readList
    (reads : kind.read = readList kind (wholeList rule item consumes) faults clause)
    {cs : List Clause} (read : kind.read source = .ok cs) : Laid kind source cs := by
  rw [reads] at read
  obtain ⟨as, stop, scanned, good, rfl⟩ := readList_eq_ok_iff.1 read
  have listed := (wholeList_iff_listed consumes).1 ⟨stop, scanned⟩
  constructor
  case filled =>
    refine List.forall_mem_map.2 fun a member => ?_
    obtain ⟨here, stop, within, read⟩ := listed.exists_read laws.advances a member
    obtain ⟨text, filled, -, marks⟩ := marks_of_entry laws spans within read
    refine ⟨?_, marks.stop_le⟩
    obtain ⟨c, later, rfl⟩ := List.exists_cons_of_ne_nil filled
    have bytes := c.utf8Size_pos
    rw [marks.length_eq, byteLength]
    omega
  case apart => exact pairwise_of_listed laws spans listed
  case alone =>
    refine List.forall_mem_map.2 fun a member => ?_
    obtain ⟨here, stop, within, read⟩ := listed.exists_read laws.advances a member
    rw [reads]
    exact readList_slice laws sound cuttable complete spans within read (good a member)

end Clauses

/-- **Stretches point at what they name.** Every fault of a list lies within its text and names what
stands at its stretch. The clauses of a list without faults stand one after the other, and each of
them is read from its stretch alone. -/
theorem stretches_point (kind : ListKind) (source : String) :
    (∀ e, kind.read source = .error e →
      ∀ leaf ∈ e.leaves, Points source leaf.span leaf.fault) ∧
    ∀ cs, kind.read source = .ok cs → Laid kind source cs := by
  cases kind with
  | failOn =>
      refine ⟨fun e refused => points_of_readList advances_nodeRef ?_ refused, fun cs read =>
        laid_of_readList entryLaws_nodeRef sound_failOnEntry cuttable_failOn complete_failOnEntry
          (fun _ _ _ => span_nodeRef) rfl read⟩
      exact fun cur r cur' within scanned =>
        points_of_nodeRef (yields_nodeRef _ _ _ within scanned)
  | counts =>
      refine ⟨fun e refused => points_of_readList advances_countsEntry ?_ refused, fun cs read =>
        laid_of_readList entryLaws_countsEntry sound_countsEntry cuttable_counts
          complete_countsEntry (fun _ _ _ => span_countsEntry) rfl read⟩
      exact fun cur e cur' within scanned =>
        points_of_entry (yields_countsEntry _ _ _ within scanned)

/-- A comparator with the space behind it, a name, and a reference with the space behind it. -/
theorem stretches_point_lacking :
    (∃ e, ListKind.counts.read "A >= , X:B " = .error e ∧
      e.leaves = [⟨.counts, ⟨2, 5⟩, .missingBound ">=" "A"⟩, ⟨.counts, ⟨7, 8⟩, .unknownPhase "X"⟩,
        ⟨.counts, ⟨7, 11⟩, .missingRelation "B"⟩] ∧
      ∀ leaf ∈ e.leaves, Points "A >= , X:B " leaf.span leaf.fault) ∧
    ∃ cs, ListKind.counts.read " CCP1:A >=2 ,B 1" = .ok cs ∧
      cs.map Clause.span = [⟨1, 11⟩, ⟨13, 16⟩] ∧ Laid .counts " CCP1:A >=2 ,B 1" cs := by
  have refused : ListKind.counts.read "A >= , X:B " = .error (.many
      [⟨.counts, ⟨2, 5⟩, .missingBound ">=" "A"⟩, ⟨.counts, ⟨7, 8⟩, .unknownPhase "X"⟩,
        ⟨.counts, ⟨7, 11⟩, .missingRelation "B"⟩]) := by
    decide +kernel
  have read : ListKind.counts.read " CCP1:A >=2 ,B 1" =
      .ok [⟨"A", .counts [⟨.ge, 2⟩], some [.ccp1], ⟨1, 11⟩⟩,
        ⟨"B", .counts [⟨.eq, 1⟩], none, ⟨13, 16⟩⟩] := by
    decide +kernel
  exact ⟨⟨_, refused, rfl, (stretches_point .counts _).1 _ refused⟩,
    ⟨_, read, rfl, (stretches_point .counts _).2 _ read⟩⟩

end DumpRules
