import DumpRules.Proofs.Grammar.Soundness

/-!
# Where scanners stand

A scanner that succeeds stands right behind the text that it has read (`Advances`), so the stretch
that `spanned` puts down is just that text. And a scanner does not see where a text begins or what
comes behind its next comma: `Moves` says that a text which is moved on by some bytes, and has a
comma and more text put behind it, is read as before, with all stretches moved. The two say
everything about places that the list readers rest on.
-/

namespace DumpRules.Grammar

set_option autoImplicit false

variable {α β γ δ : Type}

@[simp] theorem byteLength_append (a b : List Char) :
    byteLength (a ++ b) = byteLength a + byteLength b := by
  induction a with
  | nil => simp [byteLength]
  | cons c a ih => simp [byteLength, ih, Nat.add_assoc]

@[simp] theorem byteLength_comma (later : List Char) :
    byteLength (',' :: later) = byteLength later + 1 :=
  Nat.add_comm ..

theorem byteLength_toList (s : String) : byteLength s.toList = s.utf8ByteSize := by
  have chars : ∀ cs : List Char, byteLength cs = (String.ofList cs).utf8ByteSize := by
    intro cs
    induction cs with
    | nil => rfl
    | cons c cs ih =>
        have front : String.ofList (c :: cs) = String.singleton c ++ String.ofList cs := by
          rw [← String.toList_inj]
          simp
        rw [byteLength, ih, front, String.utf8ByteSize_append, String.utf8ByteSize_singleton]
  rw [chars, String.ofList_toList]

/-! ## What was passed over -/

/-- One place is reached from another by passing over a stretch of text. -/
def Cursor.Reaches (cur cur' : Cursor) : Prop :=
  ∃ text, cur.rest = text ++ cur'.rest ∧ cur'.offset = cur.offset + byteLength text

theorem Cursor.Reaches.refl (cur : Cursor) : cur.Reaches cur :=
  ⟨[], rfl, rfl⟩

theorem Cursor.Reaches.trans {a b c : Cursor} (first : a.Reaches b) (second : b.Reaches c) :
    a.Reaches c := by
  obtain ⟨v, restV, offsetV⟩ := first
  obtain ⟨w, restW, offsetW⟩ := second
  refine ⟨v ++ w, by rw [restV, restW, List.append_assoc], ?_⟩
  rw [offsetW, offsetV, byteLength_append, Nat.add_assoc]

/-- No text can be lost on the way to the end. -/
theorem Cursor.Reaches.offset_eq {cur cur' : Cursor} (reached : cur.Reaches cur') :
    cur'.offset + byteLength cur'.rest = cur.offset + byteLength cur.rest := by
  obtain ⟨text, split, moved⟩ := reached
  rw [split, moved, byteLength_append, Nat.add_assoc]

theorem reaches_skipGap (cur : Cursor) : cur.Reaches cur.skipGap :=
  ⟨_, List.takeWhile_append_dropWhile.symm, rfl⟩

/-- A scanner that stands, when it succeeds, right behind what it has read. -/
def Advances (p : Scanner α) : Prop :=
  ∀ cur a cur', (p cur).result = some (a, cur') → cur.Reaches cur'

namespace Advances

open Scanner

theorem succeed (a : α) : Advances (Scanner.succeed a) := by
  intro cur b cur' read
  obtain ⟨-, rfl⟩ := succeed_eq_some.1 read
  exact .refl cur

theorem andThen {p : Scanner α} {q : α → Scanner β} (first : Advances p)
    (second : ∀ a, Advances (q a)) : Advances (p.andThen q) := by
  intro cur b cur' read
  obtain ⟨a, mid, read, rest⟩ := andThen_eq_some.1 read
  exact (first cur a mid read).trans (second a mid b cur' rest)

theorem gap_andThen {q : Unit → Scanner α} (advances : Advances (q ())) :
    Advances (gap.andThen q) :=
  fun cur a cur' read => (reaches_skipGap cur).trans (advances _ a cur' read)

theorem optional {p : Scanner α} (advances : Advances p) : Advances p.optional := by
  intro cur x cur' read
  rcases optional_eq_some.1 read with ⟨a, -, read⟩ | ⟨-, -, rfl⟩
  · exact advances cur a cur' read
  · exact .refl cur

theorem orElse {p q : Scanner α} (first : Advances p) (second : Advances q) :
    Advances (p.orElse q) := by
  intro cur a cur' read
  rcases orElse_eq_some.1 read with read | ⟨-, read⟩
  · exact first cur a cur' read
  · exact second cur a cur' read

theorem spanned {p : Scanner α} (advances : Advances p) : Advances p.spanned :=
  fun cur x cur' read => advances cur x.2 cur' (spanned_eq_some.1 read).1

theorem named {p : Scanner α} (advances : Advances p) (rule : Rule) : Advances (p.named rule) :=
  advances

theorem symbol (c : Char) : Advances (Scanner.symbol c) := by
  intro cur u cur' read
  obtain ⟨front, moved⟩ := symbol_eq_some.1 read
  exact ⟨[c], front, moved⟩

theorem token {rule : Rule} {length : List Char → Nat} (fits : ∀ cs, length cs ≤ cs.length) :
    Advances (Grammar.token rule length) := by
  intro cur t cur' read
  obtain ⟨text, -, split, -, moved, -⟩ := (token_eq_some fits).1 read
  exact ⟨text, split, moved⟩

theorem separated {item : Scanner α} (advances : Advances item) (c : Char) :
    Advances (Grammar.separated c item) :=
  (symbol c).andThen fun _ => advances.gap_andThen

theorem more {item : Scanner α} (advances : Advances item) (h : item.Consumes) :
    Advances (Scanner.more item h) := by
  intro cur as cur' read
  fun_induction Scanner.more item h cur generalizing as with
  | case1 cur =>
      simp only [Option.some.injEq, Prod.mk.injEq] at read
      exact read.2 ▸ .refl cur
  | case2 cur s a next scanned t ih =>
      obtain ⟨⟨later, stop⟩, rest, same⟩ := Option.map_eq_some_iff.1 read
      simp only [Prod.mk.injEq] at same
      obtain ⟨-, rfl⟩ := same
      exact ((reaches_skipGap cur).trans (advances _ a next scanned)).trans (ih later rest)

theorem many {item : Scanner α} (advances : Advances item) (h : item.Consumes) :
    Advances (Scanner.many item h) :=
  advances.optional.andThen fun
    | none => succeed []
    | some a => (advances.more h).andThen fun as => succeed (a :: as)

end Advances

theorem advances_phasePrefix : Advances phasePrefix :=
  (Advances.token (wordLength_le _ _)).andThen (fun _ => Advances.gap_andThen <|
    (((Advances.token (wordLength_le _ _)).separated '|').many _).andThen fun _ =>
      Advances.gap_andThen <| (Advances.symbol ':').andThen fun _ => .succeed _) |>.named _

theorem advances_nodeRef : Advances nodeRef :=
  (advances_phasePrefix.optional.andThen fun _ => Advances.gap_andThen <|
    (Advances.token (wordLength_le _ _)).andThen fun _ => .succeed _).spanned.andThen
    (fun _ => .succeed _) |>.named _

theorem advances_relation : Advances relation :=
  (((Advances.token comparatorLength_le).andThen fun _ => Advances.gap_andThen <|
      (Advances.token boundLength_le).optional.andThen fun _ => .succeed _).orElse
    ((Advances.token boundLength_le).andThen fun _ => .succeed _)).spanned.andThen
    (fun _ => .succeed _) |>.named _

theorem advances_countsEntry : Advances countsEntry :=
  (advances_nodeRef.andThen fun _ => Advances.gap_andThen <|
    (advances_relation.many _).andThen fun _ => .succeed _).spanned.andThen
    (fun _ => .succeed _) |>.named _

/-- The stretch of a reference is what was read of it. -/
theorem span_nodeRef {cur cur' : Cursor} {r : NodeRef}
    (read : (nodeRef cur).result = some (r, cur')) : r.span = ⟨cur.offset, cur'.offset⟩ := by
  obtain ⟨-, -, -, spans⟩ := nodeRef_eq_some.1 read
  exact spans

/-- The stretch of an entry is what was read of it. -/
theorem span_countsEntry {cur cur' : Cursor} {e : Entry}
    (read : (countsEntry cur).result = some (e, cur')) : e.span = ⟨cur.offset, cur'.offset⟩ := by
  obtain ⟨-, -, -, spans⟩ := countsEntry_eq_some.1 read
  exact spans

end DumpRules.Grammar

namespace DumpRules

/-- A stretch that lies `n` bytes further on. -/
def Span.moved (n : Nat) (s : Span) : Span :=
  ⟨s.start + n, s.stop + n⟩

@[simp] theorem Span.moved_zero (s : Span) : s.moved 0 = s := rfl

end DumpRules

namespace DumpRules.Grammar

/-! ## Moved texts -/

def Token.moved (n : Nat) (t : Token) : Token :=
  { t with span := t.span.moved n }

def NodeRef.moved (n : Nat) (r : NodeRef) : NodeRef :=
  ⟨r.phases.map (List.map (Token.moved n)), r.node.moved n, r.span.moved n⟩

def RelationTerm.moved (n : Nat) (t : RelationTerm) : RelationTerm :=
  ⟨t.comparator.map (Token.moved n), t.bound.map (Token.moved n), t.span.moved n⟩

def Entry.moved (n : Nat) (e : Entry) : Entry :=
  ⟨e.ref.moved n, e.relations.map (RelationTerm.moved n), e.span.moved n⟩

theorem Token.moved_zero : Token.moved 0 = id := rfl

theorem NodeRef.moved_zero : NodeRef.moved 0 = id := by
  funext r
  simp [NodeRef.moved, Token.moved_zero]

theorem RelationTerm.moved_zero : RelationTerm.moved 0 = id := by
  funext t
  simp [RelationTerm.moved, Token.moved_zero]

theorem Entry.moved_zero : Entry.moved 0 = id := by
  funext e
  simp [Entry.moved, NodeRef.moved_zero, RelationTerm.moved_zero]

/-- The same place in a text that stands `n` bytes further on and has more text behind it. -/
def Cursor.moved (n : Nat) (tail : List Char) (cur : Cursor) : Cursor :=
  ⟨cur.offset + n, cur.rest ++ tail⟩

@[simp] theorem Cursor.moved_offset (n : Nat) (tail : List Char) (cur : Cursor) :
    (cur.moved n tail).offset = cur.offset + n := rfl

@[simp] theorem Cursor.moved_rest (n : Nat) (tail : List Char) (cur : Cursor) :
    (cur.moved n tail).rest = cur.rest ++ tail := rfl

/-- Text that nothing before it runs into: none at all, or text behind a comma. -/
def Closed (tail : List Char) : Prop :=
  Ends (· ≠ ',') tail

theorem closed_nil : Closed [] := by
  rintro _ _ ⟨⟩

theorem closed_comma (later : List Char) : Closed (',' :: later) := by
  rintro _ _ ⟨⟩
  exact not_not.2 rfl

section Tails

variable {tail : List Char} (closed : Closed tail)

include closed

theorem Closed.eq_nil_or_comma : tail = [] ∨ ∃ later, tail = ',' :: later := by
  cases tail with
  | nil => exact .inl rfl
  | cons c later =>
      have comma : c = ',' := not_not.1 (closed c later rfl)
      exact .inr ⟨later, by rw [comma]⟩

theorem takeWhile_append_closed {p : Char → Bool} (comma : p ',' = false) (cs : List Char) :
    (cs ++ tail).takeWhile p = cs.takeWhile p := by
  induction cs with
  | nil => rcases closed.eq_nil_or_comma with rfl | ⟨later, rfl⟩ <;> simp [comma]
  | cons c cs ih => by_cases h : p c <;> simp [h, ih]

theorem dropWhile_append_closed {p : Char → Bool} (comma : p ',' = false) (cs : List Char) :
    (cs ++ tail).dropWhile p = cs.dropWhile p ++ tail := by
  induction cs with
  | nil => rcases closed.eq_nil_or_comma with rfl | ⟨later, rfl⟩ <;> simp [comma]
  | cons c cs ih => by_cases h : p c <;> simp [h, ih]

theorem skipGap_moved (n : Nat) (cur : Cursor) :
    (cur.moved n tail).skipGap = cur.skipGap.moved n tail := by
  simp only [Cursor.skipGap, Cursor.moved, takeWhile_append_closed closed (p := isGap) rfl,
    dropWhile_append_closed closed (p := isGap) rfl, Cursor.mk.injEq, and_true]
  omega

theorem runLength_append_closed {p : Char → Bool} (comma : p ',' = false) (cs : List Char) :
    runLength p (cs ++ tail) = runLength p cs := by
  rw [runLength, takeWhile_append_closed closed comma, runLength]

theorem wordLength_append_closed {first later : Char → Bool} (commaFirst : first ',' = false)
    (commaLater : later ',' = false) (cs : List Char) :
    wordLength first later (cs ++ tail) = wordLength first later cs := by
  cases cs with
  | nil => rcases closed.eq_nil_or_comma with rfl | ⟨behind, rfl⟩ <;> simp [wordLength, commaFirst]
  | cons c cs => simp only [List.cons_append, wordLength, runLength_append_closed closed commaLater]

theorem comparatorLength_append_closed (cs : List Char) :
    comparatorLength (cs ++ tail) = comparatorLength cs := by
  rw [comparatorLength, runLength_append_closed closed (p := isSign) rfl,
    runLength_append_closed closed (p := Char.isAlpha) rfl, comparatorLength]

theorem boundLength_append_closed (cs : List Char) :
    boundLength (cs ++ tail) = boundLength cs := by
  have body := runLength_append_closed closed (p := isBoundChar) rfl
  cases cs with
  | nil =>
      rcases closed.eq_nil_or_comma with rfl | ⟨behind, rfl⟩
      · rfl
      · rfl
  | cons c cs =>
      have whole := body (c :: cs)
      rw [List.cons_append] at whole
      simp only [List.cons_append, boundLength, body, whole]

end Tails

/-- A text that is moved is read, by the second scanner, as the first one reads it where it was. -/
def Moves (n : Nat) (tail : List Char) (p : Scanner α) (q : Scanner β) (f : α → β) : Prop :=
  ∀ cur, (q (cur.moved n tail)).result = (p cur).result.map fun x => (f x.1, x.2.moved n tail)

namespace Moves

open Scanner

variable {n : Nat} {tail : List Char}

theorem result_eq_some {p : Scanner α} {q : Scanner β} {f : α → β} (moves : Moves n tail p q f)
    {cur cur' : Cursor} {a : α} (read : (p cur).result = some (a, cur')) :
    (q (cur.moved n tail)).result = some (f a, cur'.moved n tail) := by
  rw [moves cur, read]
  rfl

theorem succeed {f : α → β} {a : α} {b : β} (same : f a = b) :
    Moves n tail (Scanner.succeed a) (Scanner.succeed b) f := by
  intro cur
  rw [← same]
  rfl

theorem andThen {p : Scanner α} {p' : Scanner β} {f : α → β} {q : α → Scanner γ}
    {q' : β → Scanner δ} {g : γ → δ} (first : Moves n tail p p' f)
    (second : ∀ a, Moves n tail (q a) (q' (f a)) g) :
    Moves n tail (p.andThen q) (p'.andThen q') g := by
  intro cur
  rw [andThen_result, andThen_result, first cur]
  cases (p cur).result with
  | none => rfl
  | some x => exact second x.1 x.2

theorem gap_andThen (closed : Closed tail) {q : Unit → Scanner α} {q' : Unit → Scanner β}
    {f : α → β} (moves : Moves n tail (q ()) (q' ()) f) :
    Moves n tail (gap.andThen q) (gap.andThen q') f := by
  intro cur
  rw [gap_andThen_result, gap_andThen_result, skipGap_moved closed]
  exact moves cur.skipGap

theorem optional {p : Scanner α} {q : Scanner β} {f : α → β} (moves : Moves n tail p q f) :
    Moves n tail p.optional q.optional (Option.map f) := by
  intro cur
  rw [optional_result, optional_result, moves cur]
  cases (p cur).result <;> rfl

theorem orElse {p q : Scanner α} {p' q' : Scanner β} {f : α → β} (first : Moves n tail p p' f)
    (second : Moves n tail q q' f) : Moves n tail (p.orElse q) (p'.orElse q') f := by
  intro cur
  have read := first cur
  simp only [Scanner.orElse]
  cases failed : (p cur).result with
  | none =>
      rw [failed] at read
      simp only [read, Option.map_none]
      exact second cur
  | some x =>
      rw [failed] at read
      simp [read, failed]

theorem spanned {p : Scanner α} {q : Scanner β} {f : α → β} (moves : Moves n tail p q f) :
    Moves n tail p.spanned q.spanned (Prod.map (Span.moved n) f) := by
  intro cur
  simp only [Scanner.spanned, moves cur]
  cases (p cur).result <;> rfl

theorem named {p : Scanner α} {q : Scanner β} {f : α → β} (moves : Moves n tail p q f)
    (rule : Rule) : Moves n tail (p.named rule) (q.named rule) f :=
  moves

theorem symbol (closed : Closed tail) {c : Char} (other : c ≠ ',') :
    Moves n tail (Scanner.symbol c) (Scanner.symbol c) id := by
  rintro ⟨offset, rest⟩
  cases rest with
  | nil =>
      rcases closed.eq_nil_or_comma with rfl | ⟨later, rfl⟩
      · rfl
      · simp [Scanner.symbol, Cursor.moved, Ne.symm other]
  | cons d later =>
      by_cases same : d = c
      · simp [Scanner.symbol, Cursor.moved, Cursor.advance, same, Nat.add_right_comm]
      · simp [Scanner.symbol, Cursor.moved, same]

/-- A token is moved if its length does not depend on what is put behind the text. -/
theorem token {rule : Rule} {length : List Char → Nat} (fits : ∀ cs, length cs ≤ cs.length)
    (blind : ∀ cs, length (cs ++ tail) = length cs) :
    Moves n tail (Grammar.token rule length) (Grammar.token rule length) (Token.moved n) := by
  intro cur
  have carried : ∀ t stop, (Grammar.token rule length cur).result = some (t, stop) →
      (Grammar.token rule length (cur.moved n tail)).result =
        some (t.moved n, stop.moved n tail) := by
    intro t stop read
    obtain ⟨text, filled, split, long, moved, rfl⟩ := (token_eq_some fits).1 read
    refine (token_eq_some fits).2 ⟨text, filled, ?_, (blind _).trans long, ?_, rfl⟩
    · simp [Cursor.moved, split]
    · simp only [Cursor.moved, moved]
      omega
  cases read : (Grammar.token rule length cur).result with
  | some x => exact carried x.1 x.2 read
  | none =>
      rw [Option.map_none, Option.eq_none_iff_forall_ne_some]
      rintro ⟨t, stop⟩ found
      obtain ⟨text, filled, split, long, -⟩ := (token_eq_some fits).1 found
      have long : length cur.rest = text.length := (blind _).symm.trans long
      have front : cur.rest = text ++ cur.rest.drop text.length := by
        have bounded := fits cur.rest
        have taken := congrArg (List.take text.length) split
        rw [Cursor.moved, List.take_append_of_le_length (long ▸ bounded), List.take_left] at taken
        rw [← taken, List.length_take_of_le (long ▸ bounded), List.take_append_drop]
      have scanned : (Grammar.token rule length cur).result =
          some (_, ⟨cur.offset + byteLength text, _⟩) :=
        (token_eq_some fits).2 ⟨text, filled, front, long, rfl, rfl⟩
      rw [read] at scanned
      cases scanned

theorem separated (closed : Closed tail) {item : Scanner α} {item' : Scanner β} {f : α → β}
    (moves : Moves n tail item item' f) {c : Char} (other : c ≠ ',') :
    Moves n tail (Grammar.separated c item) (Grammar.separated c item') f :=
  (symbol closed other).andThen fun _ => moves.gap_andThen closed

theorem more (closed : Closed tail) {item : Scanner α} {f : α → α}
    (moves : Moves n tail item item f) (h : item.Consumes) :
    Moves n tail (Scanner.more item h) (Scanner.more item h) (List.map f) := by
  intro cur
  induction cur using Scanner.more.induct item h with
  | case1 cur s failed =>
      have failed' := moves cur.skipGap
      rw [failed, ← skipGap_moved closed] at failed'
      rw [more_of_none h failed, more_of_none h failed']
      rfl
  | case2 cur s a next read ih =>
      have read' := moves.result_eq_some read
      rw [← skipGap_moved closed] at read'
      rw [more_result_of_some h read, more_result_of_some h read', ih]
      cases (Scanner.more item h next).result <;> rfl

theorem many (closed : Closed tail) {item : Scanner α} {f : α → α}
    (moves : Moves n tail item item f) (h : item.Consumes) :
    Moves n tail (Scanner.many item h) (Scanner.many item h) (List.map f) :=
  moves.optional.andThen fun
    | none => succeed rfl
    | some _ => (moves.more closed h).andThen fun _ => succeed rfl

end Moves

section Entries

variable {n : Nat} {tail : List Char} (closed : Closed tail)

include closed

theorem moves_phaseName : Moves n tail phaseName phaseName (Token.moved n) :=
  .token (wordLength_le _ _) (wordLength_append_closed closed rfl rfl)

theorem moves_nodeIdent : Moves n tail nodeIdent nodeIdent (Token.moved n) :=
  .token (wordLength_le _ _) (wordLength_append_closed closed rfl rfl)

theorem moves_comparator : Moves n tail comparator comparator (Token.moved n) :=
  .token comparatorLength_le (comparatorLength_append_closed closed)

theorem moves_bound : Moves n tail bound bound (Token.moved n) :=
  .token boundLength_le (boundLength_append_closed closed)

theorem moves_phasePrefix : Moves n tail phasePrefix phasePrefix (List.map (Token.moved n)) := by
  have names := ((moves_phaseName (n := n) closed).separated closed (c := '|') (by decide)).many
    closed (consumes_separated '|' (consumes_token _ _))
  refine Moves.named ((moves_phaseName closed).andThen fun _ => Moves.gap_andThen closed ?_) _
  refine names.andThen fun _ => Moves.gap_andThen closed ?_
  exact (Moves.symbol closed (by decide)).andThen fun _ => .succeed rfl

theorem moves_nodeRef : Moves n tail nodeRef nodeRef (NodeRef.moved n) := by
  unfold nodeRef
  refine Moves.named (Moves.andThen (Moves.spanned
    (f := Prod.map (Option.map (List.map (Token.moved n))) (Token.moved n)) ?_) ?_) _
  · refine (moves_phasePrefix closed).optional.andThen fun _ => Moves.gap_andThen closed ?_
    exact (moves_nodeIdent closed).andThen fun _ => .succeed rfl
  · exact fun _ => .succeed rfl

theorem moves_relation : Moves n tail relation relation (RelationTerm.moved n) := by
  unfold relation
  refine Moves.named (Moves.andThen (Moves.spanned
    (f := Prod.map (Option.map (Token.moved n)) (Option.map (Token.moved n))) ?_) ?_) _
  · refine Moves.orElse ?_ ((moves_bound closed).andThen fun _ => .succeed rfl)
    refine (moves_comparator closed).andThen fun _ => Moves.gap_andThen closed ?_
    exact (moves_bound closed).optional.andThen fun _ => .succeed rfl
  · exact fun _ => .succeed rfl

theorem moves_countsEntry : Moves n tail countsEntry countsEntry (Entry.moved n) := by
  unfold countsEntry
  refine Moves.named (Moves.andThen (Moves.spanned
    (f := Prod.map (NodeRef.moved n) (List.map (RelationTerm.moved n))) ?_) ?_) _
  · refine (moves_nodeRef closed).andThen fun _ => Moves.gap_andThen closed ?_
    exact ((moves_relation closed).many closed _).andThen fun _ => .succeed rfl
  · exact fun _ => .succeed rfl

end Entries

end DumpRules.Grammar
