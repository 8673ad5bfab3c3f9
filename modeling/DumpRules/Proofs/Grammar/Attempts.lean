import DumpRules.Proofs.Grammar.Places

/-!
# Where rules are tried

A text that is no list is reported at the furthest place where a rule failed. Rules are tried where
a scanner stands, and a scanner stands only where whole characters before it were read. `Tracks`
says so of a scanner, in terms of what a record of its attempts can come to; hence the furthest
place is one that the scan of the text has reached (`reaches_of_scanAll`).
-/

namespace DumpRules.Grammar

set_option autoImplicit false

variable {α β : Type}

/-! ## Records -/

theorem recordAll_append (f : Furthest) (first second : List Attempt) :
    Attempt.recordAll f (first ++ second) =
      Attempt.recordAll (Attempt.recordAll f first) second := by
  induction first generalizing f with
  | nil => rw [List.nil_append, Attempt.recordAll]
  | cons a first ih => rw [List.cons_append, Attempt.recordAll, ih, Attempt.recordAll]

/-- A failure moves the furthest place to its own place or not at all. -/
theorem Furthest.offset_fail (f : Furthest) (rule : Rule) (offset before : Nat) :
    (f.fail rule offset before).offset = f.offset ∨
      (f.fail rule offset before).offset = offset := by
  unfold Furthest.fail
  split
  · exact .inl rfl
  · split
    · exact .inl rfl
    · split
      · exact .inr rfl
      · exact .inl rfl

/-- Attempts that lead a record from places of some kind to such places only. -/
def Stays (P : Nat → Prop) (tried : List Attempt) : Prop :=
  ∀ f : Furthest, P f.offset → P (Attempt.recordAll f tried).offset

namespace Stays

variable {P : Nat → Prop}

theorem nil : Stays P [] := by
  intro f here
  rwa [Attempt.recordAll]

theorem append {first second : List Attempt} (before : Stays P first) (after : Stays P second) :
    Stays P (first ++ second) := by
  intro f here
  rw [recordAll_append]
  exact after _ (before f here)

theorem attempt {inner : List Attempt} (within : Stays P inner) {offset : Nat} (place : P offset)
    (rule : Rule) (failed : Bool) : Stays P [.mk rule offset failed inner] := by
  intro f here
  rw [Attempt.recordAll, Attempt.recordAll, Attempt.record]
  split
  · rcases Furthest.offset_fail (Attempt.recordAll f inner) rule offset (f.countAt offset) with
      same | moved
    · rw [same]
      exact within f here
    · rwa [moved]
  · exact within f here

end Stays

/-! ## Scanners -/

/-- All places that can be reached from one have a property. -/
def Cursor.Ahead (cur : Cursor) (P : Nat → Prop) : Prop :=
  ∀ cur', cur.Reaches cur' → P cur'.offset

theorem Cursor.Ahead.of_reaches {cur cur' : Cursor} {P : Nat → Prop} (ahead : cur.Ahead P)
    (reached : cur.Reaches cur') : cur'.Ahead P :=
  fun _ further => ahead _ (reached.trans further)

/-- A scanner that stands, when it succeeds, right behind what it has read, and tries rules only at
places that can be reached from where it starts. -/
structure Tracks (p : Scanner α) : Prop where
  advances : Advances p
  tries : ∀ {cur : Cursor} {P : Nat → Prop}, cur.Ahead P → Stays P (p cur).tried

namespace Tracks

open Scanner

theorem of_silent {p : Scanner α} (advances : Advances p) (silent : ∀ cur, (p cur).tried = []) :
    Tracks p where
  advances := advances
  tries {cur} _ _ := silent cur ▸ .nil

theorem succeed (a : α) : Tracks (Scanner.succeed a) :=
  of_silent (.succeed a) fun _ => rfl

theorem gap : Tracks Scanner.gap :=
  of_silent (Advances.gap_andThen (.succeed ())) fun _ => rfl

theorem symbol (c : Char) : Tracks (Scanner.symbol c) := by
  refine of_silent (.symbol c) fun cur => ?_
  unfold Scanner.symbol
  repeat' split
  all_goals rfl

theorem ended : Tracks Scanner.ended := by
  refine of_silent (fun cur u cur' read => ?_) fun cur => ?_
  · obtain ⟨-, rfl⟩ := ended_eq_some.1 read
    exact .refl cur
  · unfold Scanner.ended
    split <;> rfl

theorem andThen {p : Scanner α} {q : α → Scanner β} (first : Tracks p)
    (second : ∀ a, Tracks (q a)) : Tracks (p.andThen q) where
  advances := first.advances.andThen fun a => (second a).advances
  tries {cur P} ahead := by
    simp only [Scanner.andThen]
    split
    · exact first.tries ahead
    · rename_i a mid read
      exact (first.tries ahead).append
        ((second a).tries (ahead.of_reaches (first.advances _ _ _ read)))

theorem orElse {p q : Scanner α} (first : Tracks p) (second : Tracks q) : Tracks (p.orElse q) where
  advances := first.advances.orElse second.advances
  tries ahead := by
    simp only [Scanner.orElse]
    split
    · exact first.tries ahead
    · exact (first.tries ahead).append (second.tries ahead)

theorem optional {p : Scanner α} (tracks : Tracks p) : Tracks p.optional where
  advances := tracks.advances.optional
  tries ahead := by
    simp only [Scanner.optional]
    split <;> exact tracks.tries ahead

theorem spanned {p : Scanner α} (tracks : Tracks p) : Tracks p.spanned where
  advances := tracks.advances.spanned
  tries ahead := tracks.tries ahead

theorem named {p : Scanner α} (tracks : Tracks p) (rule : Rule) : Tracks (p.named rule) where
  advances := tracks.advances
  tries {cur _} ahead := (tracks.tries ahead).attempt (ahead cur (.refl cur)) rule _

theorem lexeme {length : List Char → Nat} (fits : ∀ cs, length cs ≤ cs.length) :
    Tracks (Scanner.lexeme length) := by
  refine of_silent (fun cur text cur' read => ?_) fun cur => ?_
  · obtain ⟨-, split, -, moved⟩ := (lexeme_eq_some fits).1 read
    exact ⟨text, split, moved⟩
  · unfold Scanner.lexeme
    split <;> rfl

theorem token {rule : Rule} {length : List Char → Nat} (fits : ∀ cs, length cs ≤ cs.length) :
    Tracks (Grammar.token rule length) :=
  ((lexeme fits).spanned.andThen fun _ => succeed _).named rule

theorem separated {item : Scanner α} (tracks : Tracks item) (c : Char) :
    Tracks (Grammar.separated c item) :=
  (symbol c).andThen fun _ => gap.andThen fun _ => tracks

theorem more {item : Scanner α} (tracks : Tracks item) (h : item.Consumes) :
    Tracks (Scanner.more item h) where
  advances := tracks.advances.more h
  tries {cur P} ahead := by
    fun_induction Scanner.more item h cur with
    | case1 cur s failed => exact tracks.tries (ahead.of_reaches (reaches_skipGap cur))
    | case2 cur s a next read t ih =>
        have here := ahead.of_reaches (reaches_skipGap cur)
        exact (tracks.tries here).append (ih (here.of_reaches (tracks.advances _ _ _ read)))

theorem many {item : Scanner α} (tracks : Tracks item) (h : item.Consumes) :
    Tracks (Scanner.many item h) :=
  tracks.optional.andThen fun
    | none => succeed []
    | some a => (tracks.more h).andThen fun as => succeed (a :: as)

end Tracks

/-! ## Lists -/

theorem tracks_phasePrefix : Tracks phasePrefix :=
  (Tracks.token (wordLength_le _ _)).andThen (fun _ => Tracks.gap.andThen fun _ =>
    (((Tracks.token (wordLength_le _ _)).separated '|').many _).andThen fun _ =>
      Tracks.gap.andThen fun _ => (Tracks.symbol ':').andThen fun _ => .succeed _) |>.named _

theorem tracks_nodeRef : Tracks nodeRef :=
  (tracks_phasePrefix.optional.andThen fun _ => Tracks.gap.andThen fun _ =>
    (Tracks.token (wordLength_le _ _)).andThen fun _ => .succeed _).spanned.andThen
    (fun _ => .succeed _) |>.named _

theorem tracks_relation : Tracks relation :=
  (((Tracks.token comparatorLength_le).andThen fun _ => Tracks.gap.andThen fun _ =>
      (Tracks.token boundLength_le).optional.andThen fun _ => .succeed _).orElse
    ((Tracks.token boundLength_le).andThen fun _ => .succeed _)).spanned.andThen
    (fun _ => .succeed _) |>.named _

theorem tracks_countsEntry : Tracks countsEntry :=
  (tracks_nodeRef.andThen fun _ => Tracks.gap.andThen fun _ =>
    (tracks_relation.many _).andThen fun _ => .succeed _).spanned.andThen
    (fun _ => .succeed _) |>.named _

theorem Tracks.wholeList {item : Scanner α} (tracks : Tracks item) (rule : Rule)
    (h : item.Consumes) : Tracks (Grammar.wholeList rule item h) := by
  have entries := tracks.andThen fun first => Tracks.gap.andThen fun _ =>
    ((tracks.separated ',').many (consumes_separated ',' h)).andThen fun others =>
      Tracks.gap.andThen fun _ => (Tracks.symbol ',').optional.andThen fun _ =>
        Tracks.succeed (first :: others)
  refine Tracks.named (Tracks.gap.andThen fun _ => entries.optional.andThen fun _ => ?_) rule
  exact Tracks.gap.andThen fun _ => (Tracks.ended.named .endOfInput).andThen fun _ => .succeed _

/-- A text goes wrong at a place that the scan has reached, and one byte is marked there unless it
is the end. -/
theorem reaches_of_scanAll {p : Scanner α} (tracks : Tracks p) {source : List Char}
    {u : Unexpected} (failed : scanAll p source = .error u) :
    ∃ cur, Cursor.Reaches ⟨0, source⟩ cur ∧
      u.span = ⟨cur.offset, min (cur.offset + 1) (byteLength source)⟩ := by
  have start : Cursor.Ahead ⟨0, source⟩ fun offset =>
      ∃ cur, Cursor.Reaches ⟨0, source⟩ cur ∧ cur.offset = offset :=
    fun cur reached => ⟨cur, reached, rfl⟩
  simp only [scanAll] at failed
  split at failed
  · cases failed
  · cases failed
    obtain ⟨cur, reached, place⟩ := tracks.tries start {} ⟨_, .refl _, rfl⟩
    have within : cur.offset + byteLength cur.rest = 0 + byteLength source := reached.offset_eq
    refine ⟨cur, reached, ?_⟩
    rw [← place]
    simp only [Span.mk.injEq, and_true]
    omega

end DumpRules.Grammar
