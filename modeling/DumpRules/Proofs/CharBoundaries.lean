import DumpRules.Proofs.Grammar.Attempts
import DumpRules.Proofs.Spans

/-!
# Faults and the boundaries of characters

Stretches are counted in bytes, and a stretch can be cut out of a text only if both its ends are
boundaries of characters. A fault of an entry stands at whole tokens, so its ends are. Where a text
is no list at all, one byte is marked at the furthest place that the scan has reached. That place is
a boundary, but the byte behind it need not be a character: the mark ends within a character just if
one of more than one byte stands there (`faults_lie_on_boundaries`).
-/

namespace DumpRules

set_option autoImplicit false

open Grammar

/-! ## Boundaries -/

theorem byteLength_pos {cs : List Char} (filled : cs ≠ []) : 0 < byteLength cs := by
  obtain ⟨c, later, rfl⟩ := List.exists_cons_of_ne_nil filled
  exact Nat.add_pos_left c.utf8Size_pos _

/-- Of two fronts of a text, the one with fewer bytes is a front of the other. -/
theorem prefix_of_byteLength_le {first second text : List Char} (one : first <+: text)
    (other : second <+: text) (fewer : byteLength first ≤ byteLength second) :
    first <+: second := by
  rcases List.prefix_or_prefix_of_prefix one other with inside | ⟨more, rfl⟩
  · exact inside
  · by_cases filled : more = []
    · exact ⟨[], by simp [filled]⟩
    · have longer := byteLength_pos filled
      rw [byteLength_append] at fewer
      omega

theorem eq_of_byteLength_eq {first second text : List Char} (one : first <+: text)
    (other : second <+: text) (same : byteLength first = byteLength second) : first = second :=
  (prefix_of_byteLength_le one other same.le).eq_of_length_le
    (prefix_of_byteLength_le other one same.ge).length_le

/-- A boundary is a place with whole characters on either side. -/
theorem isValid_iff_front {source : String} {offset : Nat} :
    String.Pos.Raw.IsValid source ⟨offset⟩ ↔
      ∃ before, before <+: source.toList ∧ byteLength before = offset := by
  rw [String.Pos.Raw.isValid_iff_exists_append]
  constructor
  · rintro ⟨front, back, rfl, place⟩
    refine ⟨front.toList, ?_, ?_⟩
    · rw [String.toList_append]
      exact List.prefix_append _ _
    · rw [byteLength_toList]
      exact congrArg String.Pos.Raw.byteIdx place.symm
  · rintro ⟨before, ⟨after, split⟩, rfl⟩
    refine ⟨String.ofList before, String.ofList after, ?_, ?_⟩
    · rw [← String.ofList_append, split, String.ofList_toList]
    · rw [String.rawEndPos, ← byteLength_toList, String.toList_ofList]

theorem isValid_of_reaches {source : String} {cur : Cursor}
    (reached : Cursor.Reaches ⟨0, source.toList⟩ cur) :
    String.Pos.Raw.IsValid source ⟨cur.offset⟩ := by
  obtain ⟨before, split, place⟩ := reached
  exact isValid_iff_front.2 ⟨before, ⟨cur.rest, split.symm⟩, by rw [place, Nat.zero_add]⟩

/-- A character of more than one byte starts at a byte of a text. -/
def WideAt (source : List Char) (offset : Nat) : Prop :=
  ∃ before c after, source = before ++ c :: after ∧ byteLength before = offset ∧ 1 < c.utf8Size

theorem wideAt_iff {before rest : List Char} :
    WideAt (before ++ rest) (byteLength before) ↔ ∃ c ∈ rest.head?, 1 < c.utf8Size := by
  constructor
  · rintro ⟨before', c, after, split, same, wide⟩
    have starts : before' <+: before ++ rest := ⟨c :: after, split.symm⟩
    obtain rfl := eq_of_byteLength_eq starts (List.prefix_append before rest) same
    rw [List.append_cancel_left split]
    exact ⟨c, rfl, wide⟩
  · rintro ⟨c, first, wide⟩
    obtain ⟨after, rfl⟩ := List.head?_eq_some_iff.1 first
    exact ⟨before, c, after, rfl, rfl, wide⟩

/-- One byte behind a boundary is a boundary unless it lies within a character. -/
theorem isValid_succ_iff {source : String} {before later : List Char} {c : Char}
    (split : source.toList = before ++ c :: later) :
    String.Pos.Raw.IsValid source ⟨byteLength before + 1⟩ ↔ ¬1 < c.utf8Size := by
  rw [isValid_iff_front]
  constructor
  · rintro ⟨front, inside, bytes⟩ wide
    have starts : before <+: source.toList := ⟨c :: later, split.symm⟩
    obtain ⟨more, rfl⟩ := prefix_of_byteLength_le starts inside (by omega)
    rw [split, List.prefix_append_right_inj] at inside
    rw [byteLength_append, Nat.add_left_cancel_iff] at bytes
    cases more with
    | nil => cases bytes
    | cons d more =>
        obtain ⟨rfl, -⟩ := List.cons_prefix_cons.1 inside
        rw [byteLength] at bytes
        omega
  · intro narrow
    have single : c.utf8Size = 1 := by
      have := c.utf8Size_pos
      omega
    refine ⟨before ++ [c], ⟨later, by rw [split, List.append_assoc]; rfl⟩, ?_⟩
    rw [byteLength_append, byteLength, single, byteLength]

/-- What is marked of the text behind a place ends on a boundary unless it is the first byte of a
longer character. -/
theorem isValid_marked_iff {source : String} {cur : Cursor}
    (reached : Cursor.Reaches ⟨0, source.toList⟩ cur) :
    String.Pos.Raw.IsValid source ⟨min (cur.offset + 1) (byteLength source.toList)⟩ ↔
      ¬WideAt source.toList cur.offset := by
  have here := isValid_of_reaches reached
  obtain ⟨before, split, place⟩ := reached
  obtain ⟨offset, rest⟩ := cur
  simp only [Nat.zero_add] at split place here ⊢
  subst place
  rw [split, wideAt_iff, byteLength_append]
  cases rest with
  | nil => simpa [byteLength] using here
  | cons c later =>
      have fits : min (byteLength before + 1) (byteLength before + byteLength (c :: later)) =
          byteLength before + 1 := by
        have := byteLength_pos (List.cons_ne_nil c later)
        omega
      rw [fits, isValid_succ_iff split]
      simp

/-! ## Stretches between boundaries -/

theorem Span.start_add_length {span : Span} (ordered : span.start ≤ span.stop) :
    span.start + span.length = span.stop :=
  Nat.add_sub_cancel' ordered

/-- Between two boundaries stands a piece of the text. -/
theorem Span.exists_marks {source : String} {span : Span} (ordered : span.start ≤ span.stop)
    (start : String.Pos.Raw.IsValid source ⟨span.start⟩)
    (stop : String.Pos.Raw.IsValid source ⟨span.stop⟩) :
    ∃ text, span.Marks source.toList text := by
  obtain ⟨first, ⟨rest, split⟩, place⟩ := isValid_iff_front.1 start
  obtain ⟨second, ⟨after, split'⟩, place'⟩ := isValid_iff_front.1 stop
  rw [← place, ← place'] at ordered
  obtain ⟨text, rfl⟩ := prefix_of_byteLength_le ⟨rest, split⟩ ⟨after, split'⟩ ordered
  refine ⟨text, first, after, split'.symm, ?_⟩
  rw [place, place']

theorem Span.Marks.isValid {source : String} {span : Span} {text : List Char}
    (marks : span.Marks source.toList text) :
    String.Pos.Raw.IsValid source ⟨span.start⟩ ∧ String.Pos.Raw.IsValid source ⟨span.stop⟩ := by
  obtain ⟨before, after, split, rfl⟩ := marks
  refine ⟨isValid_iff_front.2 ⟨before, ⟨text ++ after, ?_⟩, rfl⟩,
    isValid_iff_front.2 ⟨before ++ text, ⟨after, split.symm⟩, rfl⟩⟩
  rw [split, List.append_assoc]

/-! ## Faults -/

/-- How a fault lies in a text. It starts on a boundary of characters. It ends on one too, and so a
piece of the text stands there, unless the text is no list and goes wrong at a character of more
than one byte. -/
structure ClauseError.LiesIn (source : String) (e : ClauseError) : Prop where
  start : String.Pos.Raw.IsValid source ⟨e.span.start⟩
  stop : String.Pos.Raw.IsValid source ⟨e.span.start + e.span.length⟩ ↔
    ¬(e.fault.IsSyntax ∧ WideAt source.toList e.span.start)
  piece : String.Pos.Raw.IsValid source ⟨e.span.start + e.span.length⟩ →
    ∃ text, e.span.Marks source.toList text

theorem Fault.StandsAt.liesIn {source : String} {span : Span} {fault : Fault}
    (stands : fault.StandsAt source.toList span) (listed : ¬fault.IsSyntax) (kind : ListKind) :
    ClauseError.LiesIn source ⟨kind, span, fault⟩ := by
  obtain ⟨text, marks, -⟩ := stands
  obtain ⟨start, stop⟩ := marks.isValid
  have ordered : span.start ≤ span.stop := marks.length_eq ▸ Nat.le_add_right _ _
  rw [← Span.start_add_length ordered] at stop
  exact ⟨start, iff_of_true stop fun wide => listed wide.1, fun _ => ⟨text, marks⟩⟩

theorem liesIn_of_scanAll {α : Type} {p : Scanner α} (tracks : Tracks p) {source : String}
    {u : Unexpected} (failed : scanAll p source.toList = .error u) (kind : ListKind) :
    ClauseError.LiesIn source ⟨kind, u.span, .unexpected u.expected⟩ := by
  obtain ⟨cur, reached, spans⟩ := reaches_of_scanAll tracks failed
  have start := isValid_of_reaches reached
  have within : cur.offset + byteLength cur.rest = 0 + byteLength source.toList :=
    reached.offset_eq
  have ordered : u.span.start ≤ u.span.stop := by
    rw [spans]
    simp only
    omega
  constructor
  case start => rwa [spans]
  case stop =>
    rw [Span.start_add_length ordered, spans, isValid_marked_iff reached]
    exact not_congr (iff_and_self.2 fun _ => ⟨_, rfl⟩)
  case piece =>
    intro stop
    rw [Span.start_add_length ordered] at stop
    exact Span.exists_marks ordered (by rwa [spans]) stop

theorem liesIn_of_readList {α : Type} {item : Scanner α} {consumes : item.Consumes} {rule : Rule}
    {kind : ListKind} {move : Nat → α → α} {faults : α → List (Span × Fault)}
    {clause : α → Clause} {source : String} (laws : EntryLaws item move faults clause)
    (tracks : Tracks item)
    (yields : Yields source.toList item fun a => ∀ f ∈ faults a, f.2.StandsAt source.toList f.1)
    {e : ListError}
    (refused : readList kind (wholeList rule item consumes) faults clause source = .error e) :
    ∀ leaf ∈ e.leaves, leaf.list = kind ∧ leaf.LiesIn source := by
  refine forall_leaves_of_readList tracks.advances ?_ ?_ refused
  · intro u failed
    exact ⟨rfl, liesIn_of_scanAll (tracks.wholeList rule consumes) failed kind⟩
  · intro cur a cur' within read f member
    exact ⟨rfl, (yields cur a cur' within read f member).liesIn (laws.listed a f member) kind⟩

/-- The faults of a list lie in its text. -/
theorem liesIn_of_read (kind : ListKind) {source : String} {e : ListError}
    (refused : kind.read source = .error e) :
    ∀ leaf ∈ e.leaves, leaf.list = kind ∧ leaf.LiesIn source := by
  cases kind with
  | failOn =>
      refine liesIn_of_readList entryLaws_nodeRef tracks_nodeRef ?_ refused
      exact fun cur r cur' within read => standsAt_of_nodeRef (yields_nodeRef _ _ _ within read)
  | counts =>
      refine liesIn_of_readList entryLaws_countsEntry tracks_countsEntry ?_ refused
      exact fun cur e cur' within read => standsAt_of_entry (yields_countsEntry _ _ _ within read)

/-- The text of one of the two lists of a rule. -/
def ListKind.textOf (failOn counts : String) : ListKind → String
  | .failOn => failOn
  | .counts => counts

/-- **Faults lie between characters.** Every fault of a list, and of the two lists of a rule, starts
on a boundary of characters of the text that it is about. It ends on one as well, just if it is not
the mark of one byte at a longer character where the text is no list. -/
theorem faults_lie_on_boundaries (failOn counts : String) :
    (∀ e, readFailOn failOn = .error e → ∀ leaf ∈ e.leaves, leaf.LiesIn failOn) ∧
    (∀ e, readCounts counts = .error e → ∀ leaf ∈ e.leaves, leaf.LiesIn counts) ∧
    ∀ e, readClauses failOn counts = .error e →
      ∀ leaf ∈ e.leaves, leaf.LiesIn (leaf.list.textOf failOn counts) := by
  have single : ∀ (kind : ListKind) (source : String), ∀ leaf ∈ faultsOf (kind.read source),
      leaf.list = kind ∧ leaf.LiesIn source := by
    intro kind source
    cases read : kind.read source with
    | ok cs => exact List.forall_mem_nil _
    | error e => exact liesIn_of_read kind read
  refine ⟨fun e refused leaf member => (liesIn_of_read .failOn refused leaf member).2,
    fun e refused leaf member => (liesIn_of_read .counts refused leaf member).2, ?_⟩
  intro e refused
  have leaves := faultsOf_readClauses failOn counts
  rw [refused, faultsOf] at leaves
  rw [leaves]
  refine List.forall_mem_append.2 ⟨fun leaf member => ?_, fun leaf member => ?_⟩
  · obtain ⟨list, lies⟩ := single .failOn failOn leaf member
    rwa [list]
  · obtain ⟨list, lies⟩ := single .counts counts leaf member
    rwa [list]

/-- A name that is unknown, and a mark that ends within a character. -/
theorem faults_lie_on_boundaries_mixed :
    (∃ e, readFailOn "X:A" = .error e ∧ ∀ leaf ∈ e.leaves, leaf.LiesIn "X:A") ∧
    (∃ e, readCounts "A 1 €" = .error e ∧ ∀ leaf ∈ e.leaves, leaf.LiesIn "A 1 €") ∧
    ∃ e, readClauses "X:A" "A 1 €" = .error e ∧ e.leaves.map ClauseError.span = [⟨0, 1⟩, ⟨4, 5⟩] ∧
      ∀ leaf ∈ e.leaves, leaf.LiesIn (leaf.list.textOf "X:A" "A 1 €") := by
  obtain ⟨first, second, both⟩ := faults_lie_on_boundaries "X:A" "A 1 €"
  have failOn : readFailOn "X:A" = .error (.one ⟨.failOn, ⟨0, 1⟩, .unknownPhase "X"⟩) := by
    decide +kernel
  have counts : readCounts "A 1 €" =
      .error (.one ⟨.counts, ⟨4, 5⟩, .unexpected "expected EOI or relation"⟩) := by
    decide +kernel
  have clauses : readClauses "X:A" "A 1 €" = .error (.many [⟨.failOn, ⟨0, 1⟩, .unknownPhase "X"⟩,
      ⟨.counts, ⟨4, 5⟩, .unexpected "expected EOI or relation"⟩]) := by
    decide +kernel
  exact ⟨⟨_, failOn, first _ failOn⟩, ⟨_, counts, second _ counts⟩, _, clauses, rfl, both _ clauses⟩

/-- A text that goes wrong at once has one byte marked, whatever stands there. -/
theorem fault_ends_within_character :
    ∃ leaf, readFailOn "é" = .error (.one leaf) ∧
      ¬String.Pos.Raw.IsValid "é" ⟨leaf.span.start + leaf.span.length⟩ := by
  refine ⟨⟨.failOn, ⟨0, 1⟩, .unexpected "expected fail_on_list"⟩, ?_, ?_⟩
  · decide +kernel
  · decide

end DumpRules
