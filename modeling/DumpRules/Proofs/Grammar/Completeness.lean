import DumpRules.Proofs.Grammar.Soundness
import Mathlib.Data.List.Forall2

/-!
# What the grammar writes is accepted by the readers

The other direction. A derivation may split white space where it likes and end a repetition where
it likes, while a scanner takes both as far as they go and never comes back. So every repetition
is proved together with what may follow it: behind the last name of a prefix stands `:`, behind
the last entry a comma or the end (`ListFollow`), and at neither can one more item start.

`Reads` leaves the offset of the scanner open, since spans depend on it and meanings do not.
-/

namespace DumpRules.Grammar

set_option autoImplicit false

variable {α β : Type}

/-- Reads a text up to a given rest, wherever the text stands, with a value as described. -/
def Reads (p : Scanner α) (P : α → Prop) (source rest : List Char) : Prop :=
  ∀ offset, ∃ a offset', (p ⟨offset, source⟩).result = some (a, ⟨offset', rest⟩) ∧ P a

/-- Reads nothing off the front of a text, wherever the text stands. -/
def Fails (p : Scanner α) (source : List Char) : Prop :=
  ∀ offset, (p ⟨offset, source⟩).result = none

/-! ## Combinators -/

open Scanner

theorem Reads.imp {p : Scanner α} {P Q : α → Prop} {source rest : List Char}
    (read : Reads p P source rest) (weaker : ∀ a, P a → Q a) : Reads p Q source rest := by
  intro offset
  obtain ⟨a, offset', read, good⟩ := read offset
  exact ⟨a, offset', read, weaker a good⟩

theorem Reads.andThen {p : Scanner α} {q : α → Scanner β} {P : α → Prop} {Q : β → Prop}
    {source mid rest : List Char} (first : Reads p P source mid)
    (second : ∀ a, P a → Reads (q a) Q mid rest) : Reads (p.andThen q) Q source rest := by
  intro offset
  obtain ⟨a, offset', read, good⟩ := first offset
  obtain ⟨b, offset'', read', good'⟩ := second a good offset'
  exact ⟨b, offset'', andThen_eq_some.2 ⟨a, _, read, read'⟩, good'⟩

theorem Fails.andThen {p : Scanner α} {source : List Char} (first : Fails p source)
    (q : α → Scanner β) : Fails (p.andThen q) source := by
  intro offset
  rw [andThen_result, first offset, Option.bind_none]

theorem Reads.andThen_fails {p : Scanner α} {q : α → Scanner β} {P : α → Prop}
    {source mid : List Char} (first : Reads p P source mid) (second : ∀ a, Fails (q a) mid) :
    Fails (p.andThen q) source := by
  intro offset
  obtain ⟨a, offset', read, -⟩ := first offset
  rw [andThen_result, read, Option.bind_some]
  exact second a offset'

theorem Reads.gap_andThen {q : Unit → Scanner α} {P : α → Prop} {source rest : List Char}
    (read : Reads (q ()) P (source.dropWhile isGap) rest) :
    Reads (gap.andThen q) P source rest :=
  fun _ => read _

theorem Fails.gap_andThen {q : Unit → Scanner α} {source : List Char}
    (failed : Fails (q ()) (source.dropWhile isGap)) : Fails (gap.andThen q) source :=
  fun _ => failed _

theorem Reads.succeed {a : α} {P : α → Prop} (good : P a) (rest : List Char) :
    Reads (Scanner.succeed a) P rest rest :=
  fun offset => ⟨a, offset, rfl, good⟩

theorem Reads.optional {p : Scanner α} {P : α → Prop} {source rest : List Char}
    (read : Reads p P source rest) :
    Reads p.optional (fun x => ∃ a, x = some a ∧ P a) source rest := by
  intro offset
  obtain ⟨a, offset', read, good⟩ := read offset
  exact ⟨some a, offset', optional_eq_some.2 (.inl ⟨a, rfl, read⟩), a, rfl, good⟩

theorem Fails.optional {p : Scanner α} {source : List Char} (failed : Fails p source) :
    Reads p.optional (fun x => x = none) source source :=
  fun offset => ⟨none, offset, optional_eq_some.2 (.inr ⟨rfl, failed offset, rfl⟩), rfl⟩

theorem Reads.orElse {p : Scanner α} {P : α → Prop} {source rest : List Char}
    (read : Reads p P source rest) (q : Scanner α) : Reads (p.orElse q) P source rest := by
  intro offset
  obtain ⟨a, offset', read, good⟩ := read offset
  exact ⟨a, offset', orElse_eq_some.2 (.inl read), good⟩

theorem Fails.orElse {p q : Scanner α} {P : α → Prop} {source rest : List Char}
    (failed : Fails p source) (read : Reads q P source rest) :
    Reads (p.orElse q) P source rest := by
  intro offset
  obtain ⟨a, offset', read, good⟩ := read offset
  exact ⟨a, offset', orElse_eq_some.2 (.inr ⟨failed offset, read⟩), good⟩

theorem Fails.orElse_fails {p q : Scanner α} {source : List Char} (first : Fails p source)
    (second : Fails q source) : Fails (p.orElse q) source := by
  intro offset
  simp [Scanner.orElse, first offset, second offset]

theorem Reads.spanned {p : Scanner α} {P : α → Prop} {source rest : List Char}
    (read : Reads p P source rest) : Reads p.spanned (fun x => P x.2) source rest := by
  intro offset
  obtain ⟨a, offset', read, good⟩ := read offset
  exact ⟨(⟨offset, offset'⟩, a), offset', spanned_eq_some.2 ⟨read, rfl⟩, good⟩

theorem Fails.spanned {p : Scanner α} {source : List Char} (failed : Fails p source) :
    Fails p.spanned source := by
  intro offset
  simp [Scanner.spanned, failed offset]

theorem Reads.named {p : Scanner α} {P : α → Prop} {source rest : List Char}
    (read : Reads p P source rest) (rule : Rule) : Reads (p.named rule) P source rest :=
  read

theorem Fails.named {p : Scanner α} {source : List Char} (failed : Fails p source) (rule : Rule) :
    Fails (p.named rule) source :=
  failed

theorem reads_symbol (c : Char) (rest : List Char) :
    Reads (symbol c) (fun _ => True) (c :: rest) rest :=
  fun _ => ⟨(), _, symbol_eq_some.2 ⟨rfl, rfl⟩, trivial⟩

theorem fails_symbol {c : Char} {source : List Char} (other : Ends (· = c) source) :
    Fails (symbol c) source :=
  fun _ => symbol_eq_none.2 (ends_iff.1 other)

theorem reads_token {rule : Rule} {length : List Char → Nat} (fits : ∀ cs, length cs ≤ cs.length)
    {text rest : List Char} (filled : text ≠ []) (long : length (text ++ rest) = text.length) :
    Reads (token rule length) (fun t => t.text = String.ofList text) (text ++ rest) rest :=
  fun _ => ⟨_, _, (token_eq_some fits).2 ⟨text, filled, rfl, long, rfl, rfl⟩, rfl⟩

theorem fails_token {rule : Rule} {length : List Char → Nat} (fits : ∀ cs, length cs ≤ cs.length)
    {source : List Char} (short : length source = 0) : Fails (token rule length) source := by
  intro offset
  rw [Option.eq_none_iff_forall_ne_some]
  rintro ⟨t, stop⟩ read
  obtain ⟨text, filled, -, long, -⟩ := (token_eq_some fits).1 read
  exact filled (List.length_eq_zero_iff.1 (long.symm.trans short))

/-! ## White space and repetition -/

theorem Ends.cons {P : Char → Prop} {c : Char} (other : ¬P c) (later : List Char) :
    Ends P (c :: later) := by
  rintro _ _ ⟨⟩
  exact other

theorem Ends.imp {P Q : Char → Prop} {rest : List Char} (ends : Ends Q rest)
    (weaker : ∀ c, P c → Q c) : Ends P rest :=
  fun c later front holds => ends c later front (weaker c holds)

/-- Whatever white space a derivation passed over, skipping passes over just that. -/
theorem Gap.dropWhile_eq {source rest : List Char} (gap : Gap source rest)
    (ends : Ends White rest) : source.dropWhile isGap = rest := by
  obtain ⟨white, all, rfl⟩ := gap
  rw [List.dropWhile_append_of_pos fun c member => (isGap_iff c).2 (all c member)]
  exact congrArg Cursor.rest (@skipGap_eq_self ⟨0, rest⟩ ends)

theorem Gap.ends {source rest : List Char} {P : Char → Prop} (gap : Gap source rest)
    (white : ∀ c, White c → ¬P c) (ends : Ends P rest) : Ends P source := by
  obtain ⟨ws, all, rfl⟩ := gap
  cases ws with
  | nil => exact ends
  | cons w ws => exact .cons (white w (all w List.mem_cons_self)) _

theorem dropWhile_dropWhile (source : List Char) :
    (source.dropWhile isGap).dropWhile isGap = source.dropWhile isGap :=
  congrArg Cursor.rest (skipGap_skipGap ⟨0, source⟩)

theorem map_eq_of_forall₂ {γ : Type} {f : α → γ} {g : β → γ} {as : List α} {bs : List β}
    (alike : List.Forall₂ (fun b a => f a = g b) bs as) : as.map f = bs.map g := by
  induction alike with
  | nil => rfl
  | cons same _ ih => rw [List.map_cons, List.map_cons, same, ih]

theorem exists_of_forall₂ {P : β → α → Prop} {as : List α} {bs : List β}
    (alike : List.Forall₂ P bs as) : ∀ a ∈ as, ∃ b, P b a := by
  induction alike with
  | nil => simp
  | cons good _ ih => exact List.forall_mem_cons.2 ⟨⟨_, good⟩, ih⟩

/-- What may follow an item holds before every repetition of such items. -/
theorem Further.follow {R : Reading β} {Follow : List Char → Prop}
    (follow : ∀ b s r m, R b s r → Gap m s → Follow m) {bs : List β} {source rest : List Char}
    (written : Further R bs source rest) (last : Follow rest) : Follow source := by
  cases written with
  | done => exact last
  | next gap item later => exact follow _ _ _ _ item gap

/-- An item is read wherever it is written and what may follow it does. -/
structure Complete (item : Scanner α) (R : Reading β) (P : β → α → Prop)
    (Follow : List Char → Prop) : Prop where
  reads : ∀ b s r, R b s r → Follow r → Reads item (P b) s r
  solid : ∀ b s r, R b s r → Ends White s

section Repetition

variable {item : Scanner α} {h : item.Consumes} {R : Reading β} {P : β → α → Prop}
  {Follow : List Char → Prop} (complete : Complete item R P Follow)

include complete

theorem Complete.separated {c : Char} (solid : ¬White c) :
    Complete (separated c item) (Behind c R) P Follow where
  reads := by
    rintro b _ r ⟨gap, written⟩ follow
    refine (reads_symbol c _).andThen fun _ _ => Reads.gap_andThen ?_
    rw [gap.dropWhile_eq (complete.solid _ _ _ written)]
    exact complete.reads _ _ _ written follow
  solid := by
    rintro b _ r ⟨gap, written⟩
    exact .cons solid _

variable (follow : ∀ b s r m, R b s r → Gap m s → Follow m)

include follow

/-- A repetition is read as far as its derivation goes if no item starts behind it. -/
theorem reads_more {bs : List β} {source rest : List Char} (written : Further R bs source rest)
    (last : Follow rest) (stop : Fails item (rest.dropWhile isGap)) :
    Reads (more item h) (List.Forall₂ P bs) source rest := by
  induction written with
  | done rest =>
      exact fun offset => ⟨[], offset, more_of_none h (stop _), .nil⟩
  | next gap written later ih =>
      rename_i b bs source s m rest
      intro offset
      have skipped := gap.dropWhile_eq (complete.solid _ _ _ written)
      obtain ⟨a, offset', read, good⟩ := complete.reads _ _ _ written (later.follow follow last)
        (Cursor.skipGap ⟨offset, source⟩).offset
      obtain ⟨as, offset'', read', good'⟩ := ih last stop offset'
      refine ⟨a :: as, offset'', more_of_some h ?_ read', .cons good good'⟩
      rw [← read, ← skipped]
      rfl

theorem reads_many_items {bs : List β} {source rest : List Char}
    (written : Items R R bs source rest) (last : Follow rest)
    (stop : Fails item (rest.dropWhile isGap)) :
    Reads (many item h) (List.Forall₂ P bs) source rest := by
  obtain ⟨first, others⟩ := written
  refine (complete.reads _ _ _ first (others.follow follow last)).optional.andThen ?_
  rintro _ ⟨a, rfl, good⟩
  refine (reads_more complete follow others last stop).andThen fun as good' => ?_
  exact .succeed (.cons good good') _

/-- Behind white space any number of items is read; if there is none, the white space is. -/
theorem reads_many {bs : List β} {source rest : List Char} (written : Further R bs source rest)
    (last : Follow rest) (stop : Fails item (rest.dropWhile isGap)) :
    ∃ rest', Reads (many item h) (List.Forall₂ P bs) (source.dropWhile isGap) rest' ∧
      rest'.dropWhile isGap = rest.dropWhile isGap := by
  cases written with
  | done =>
      refine ⟨_, stop.optional.andThen ?_, dropWhile_dropWhile _⟩
      rintro _ rfl
      exact .succeed .nil _
  | next gap written later =>
      rw [gap.dropWhile_eq (complete.solid _ _ _ written)]
      exact ⟨rest, reads_many_items complete follow (.mk written later) last stop, rfl⟩

end Repetition

/-! ## Node references -/

/-- What follows the name of a phase in a prefix. -/
def PhaseFollow (rest : List Char) : Prop :=
  ∃ c later, (c = '|' ∨ c = ':') ∧ Gap rest (c :: later)

theorem phase_name_word (p : Phase) :
    ∃ c cs, p.name.toList = c :: cs ∧ c.isAlpha = true ∧ ∀ x ∈ cs, isPhaseChar x = true := by
  cases p <;> exact ⟨_, _, rfl, by decide, List.all_eq_true.1 (by decide)⟩

theorem not_isPhaseChar_of_white {c : Char} (white : White c) : ¬isPhaseChar c = true := by
  simp only [White, List.mem_cons, List.not_mem_nil, or_false] at white
  rcases white with rfl | rfl | rfl | rfl <;> decide

theorem complete_phaseName :
    Complete phaseName PhaseWritten (fun p t => t.text = p.name) PhaseFollow where
  reads := by
    rintro p _ rest ⟨concrete⟩ ⟨c, later, which, gap⟩
    obtain ⟨first, others, name, letter, chars⟩ := phase_name_word p
    have ends : Ends (isPhaseChar · = true) rest := by
      refine gap.ends (fun c => not_isPhaseChar_of_white) (.cons ?_ _)
      rcases which with rfl | rfl <;> decide
    have read : Reads phaseName _ (first :: others ++ rest) rest :=
      reads_token (wordLength_le _ _) (List.cons_ne_nil _ _)
        ((wordLength_append_iff (fun _ => Iff.rfl) fun _ => Iff.rfl).2 ⟨letter, chars, ends⟩)
    rw [← name, String.ofList_toList] at read
    exact read
  solid := by
    rintro p _ rest ⟨concrete⟩
    obtain ⟨first, others, name, letter, chars⟩ := phase_name_word p
    rw [name]
    refine .cons (fun white => not_isPhaseChar_of_white white ?_) _
    simp [isPhaseChar, Char.isAlphanum, letter]

theorem reads_phasePrefix {ps : List Phase} {source rest : List Char}
    (written : PrefixWritten ps source rest) :
    ∃ m, Gap m rest ∧
      Reads phasePrefix (fun ts => ts.map Token.text = ps.map Phase.name) source m := by
  obtain ⟨⟨first, others⟩, distinct, before, after⟩ := written
  rename_i mid behind p ps near
  have last : PhaseFollow mid := ⟨':', behind, .inr rfl, before⟩
  have follow : ∀ p s r m, Behind '|' PhaseWritten p s r → Gap m s → PhaseFollow m := by
    rintro p _ r m ⟨gap, item⟩ white
    exact ⟨'|', _, .inl rfl, white⟩
  have colon : mid.dropWhile isGap = ':' :: behind := before.dropWhile_eq (.cons (by decide) _)
  have stop : Fails (separated '|' phaseName) (mid.dropWhile isGap) := by
    rw [colon]
    exact (fails_symbol (.cons (by decide) _)).andThen _
  obtain ⟨m, names, same⟩ :=
    reads_many (complete_phaseName.separated (by decide)) follow others last stop
  refine ⟨behind, after, Reads.named ?_ _⟩
  refine (complete_phaseName.reads _ _ _ first (others.follow follow last)).andThen
    fun t named => Reads.gap_andThen (names.andThen fun ts alike => Reads.gap_andThen ?_)
  rw [same, colon]
  refine (reads_symbol ':' behind).andThen fun _ _ => .succeed ?_ _
  rw [List.map_cons, List.map_cons, named, map_eq_of_forall₂ alike]

/-- What follows a node that has no prefix: nothing that would make its name a phase. -/
def NodeFollow (rest : List Char) : Prop :=
  Ends (fun c => c = '|' ∨ c = ':') (rest.dropWhile isGap)

/-- Behind the names of a prefix stands one of its two separators. -/
theorem follow_of_phasePrefix {cur cur' : Cursor} {ts : List Token}
    (read : (phasePrefix cur).result = some (ts, cur')) :
    ∃ t m, (phaseName cur).result = some (t, m) ∧ ¬NodeFollow m.rest := by
  obtain ⟨t, others, m, m', -, name, names, colon⟩ := phasePrefix_eq_some.1 read
  refine ⟨t, m, name, fun follow => ?_⟩
  have any : Sound phaseName fun _ _ _ => True := fun _ _ _ _ => trivial
  rcases items_of_many (any.separated '|') names with ⟨-, rfl⟩ | ⟨first, -⟩
  · rw [skipGap_skipGap] at colon
    exact follow _ _ (symbol_eq_some.1 colon).1 (.inr rfl)
  · generalize front : m.skipGap.rest = source at first
    obtain ⟨-, -⟩ := first
    exact follow _ _ front (.inl rfl)

theorem nodeLater_of_isPhaseChar {c : Char} (char : isPhaseChar c = true) : NodeLater c := by
  rw [← isNodeChar_iff]
  simp_all [isPhaseChar, isNodeChar]

theorem not_nodeLater_of_white {c : Char} (white : White c) : ¬NodeLater c := by
  simp only [White, List.mem_cons, List.not_mem_nil, or_false] at white
  rcases white with rfl | rfl | rfl | rfl <;> decide

/-- A node without a prefix is not taken for one. -/
theorem fails_phasePrefix {node : String} {source rest : List Char}
    (written : NodeWritten node source rest) (follow : NodeFollow rest) :
    Fails phasePrefix source := by
  obtain ⟨first, later, ends⟩ := written
  rename_i c cs
  intro offset
  rw [Option.eq_none_iff_forall_ne_some]
  rintro ⟨ts, stop⟩ read
  obtain ⟨t, m, name, marked⟩ := follow_of_phasePrefix read
  obtain ⟨d, ds, -, chars, ends', split, -⟩ :=
    (wordToken_eq_some (fun _ => Iff.rfl) fun _ => Iff.rfl).1 name
  obtain ⟨-, split⟩ := List.cons.inj split
  rcases List.append_eq_append_iff.1 split with ⟨x, rfl, rfl⟩ | ⟨x, rfl, same⟩
  · cases x with
    | nil => exact marked follow
    | cons y ys => exact ends y _ rfl (nodeLater_of_isPhaseChar (chars y (by simp)))
  · cases x with
    | nil => exact marked (same ▸ follow)
    | cons y ys =>
        have inside := later y (by simp)
        have solid : ¬isGap y = true := fun gap =>
          not_nodeLater_of_white ((isGap_iff y).1 gap) inside
        apply marked
        rw [same, NodeFollow, List.cons_append, List.dropWhile_cons_of_neg solid]
        refine .cons ?_ _
        rintro (rfl | rfl) <;> exact absurd inside (by decide)

/-- What a scanned reference has to say for itself. -/
def RefMeans (x : Option (List Phase) × String) (e : NodeRef) : Prop :=
  e.faults = [] ∧ e.phaseList = x.1 ∧ e.node.text = x.2

theorem reads_nodeIdent {node : String} {source rest : List Char}
    (written : NodeWritten node source rest) :
    Reads nodeIdent (fun t => t.text = node) source rest := by
  obtain ⟨first, later, ends⟩ := written
  exact reads_token (wordLength_le _ _) (List.cons_ne_nil _ _)
    ((wordLength_append_iff isNodeStart_iff isNodeChar_iff).2 ⟨first, later, ends⟩)

theorem NodeWritten.solid {node : String} {source rest : List Char}
    (written : NodeWritten node source rest) : Ends White source := by
  obtain ⟨first, later, ends⟩ := written
  refine .cons (fun white => not_nodeLater_of_white white ?_) _
  exact first.imp_right fun same => .inr (by simp [same])

/-- A reference is read if its two parts are, wherever it stands. -/
theorem reads_nodeRef {x : Option (List Phase) × String} {source rest : List Char}
    (parts : Reads (andThen (optional phasePrefix) fun phases => andThen gap fun _ =>
      andThen nodeIdent fun node => Scanner.succeed (phases, node))
      (fun y => ∀ span, RefMeans x ⟨y.1, y.2, span⟩) source rest) :
    Reads nodeRef (RefMeans x) source rest :=
  (parts.spanned.andThen fun y means => .succeed (means y.1) _).named _

theorem complete_nodeRef : Complete nodeRef RefWritten RefMeans NodeFollow where
  reads := by
    rintro _ source rest (⟨ident⟩ | ⟨phases, ident⟩) follow
    · refine reads_nodeRef ((fails_phasePrefix ident follow).optional.andThen ?_)
      rintro _ rfl
      refine Reads.gap_andThen ?_
      rw [(Gap.refl source).dropWhile_eq ident.solid]
      refine (reads_nodeIdent ident).andThen fun t named => .succeed (fun span => ?_) _
      exact ⟨rfl, rfl, named⟩
    · obtain ⟨m, gap, read⟩ := reads_phasePrefix phases
      refine reads_nodeRef (read.optional.andThen ?_)
      rintro _ ⟨ts, rfl, names⟩
      refine Reads.gap_andThen ?_
      rw [gap.dropWhile_eq ident.solid]
      refine (reads_nodeIdent ident).andThen fun t named => .succeed (fun span => ?_) _
      obtain ⟨-, distinct, concrete⟩ := phases.phases
      exact ⟨phaseFaults_eq_nil_iff.2 ⟨_, names, concrete, distinct, by simp⟩,
        congrArg some (filterMap_ofName? names), named⟩
  solid := by
    rintro _ source rest (⟨ident⟩ | ⟨⟨⟨first, others⟩, distinct, before, after⟩, ident⟩)
    · exact ident.solid
    · exact complete_phaseName.solid _ _ _ first

/-! ## Relations -/

/-- What a relation starts with. -/
def RelationFirst (c : Char) : Prop :=
  Sign c ∨ Letter c ∨ Digit c ∨ c = '+'

theorem ComparatorWritten.front {c : Comparator} {source rest : List Char}
    (written : ComparatorWritten c source rest) :
    ∃ x xs, source = x :: xs ∧ (Sign x ∨ Letter x) := by
  obtain ⟨text, filled, rfl, long, -⟩ := comparatorWritten_iff.1 written
  cases text with
  | nil => exact absurd rfl filled
  | cons x xs =>
      refine ⟨x, xs ++ rest, rfl, ?_⟩
      rcases (comparatorLength_append_iff filled).1 long with ⟨signs, -⟩ | ⟨letters, -⟩
      · exact .inl (signs x List.mem_cons_self)
      · exact .inr (letters x List.mem_cons_self)

theorem BoundWritten.front {b : UInt64} {source rest : List Char}
    (written : BoundWritten b source rest) :
    ∃ x xs, source = x :: xs ∧ (Digit x ∨ x = '+') := by
  obtain ⟨rfl | rfl, filled, decimal, value, ends⟩ := written
  · rename_i digits
    cases digits with
    | nil => exact absurd rfl filled
    | cons d digits => exact ⟨d, digits ++ rest, rfl, .inl (decimal d List.mem_cons_self)⟩
  · exact ⟨'+', _, rfl, .inr rfl⟩

theorem RelationWritten.front {x : Relation} {source rest : List Char}
    (written : RelationWritten x source rest) :
    ∃ c cs, source = c :: cs ∧ RelationFirst c := by
  rcases written with ⟨comparator, gap, bound⟩ | ⟨bound⟩
  · obtain ⟨c, cs, rfl, which⟩ := comparator.front
    exact ⟨c, cs, rfl, which.elim .inl fun letter => .inr (.inl letter)⟩
  · obtain ⟨c, cs, rfl, which⟩ := bound.front
    exact ⟨c, cs, rfl, .inr (.inr which)⟩

theorem not_relationFirst_of_white {c : Char} (white : White c) : ¬RelationFirst c := by
  simp only [White, List.mem_cons, List.not_mem_nil, or_false] at white
  rcases white with rfl | rfl | rfl | rfl <;> unfold RelationFirst <;> decide

theorem comparatorLength_eq_zero {c : Char} {cs : List Char} (sign : ¬Sign c)
    (letter : ¬Letter c) : comparatorLength (c :: cs) = 0 := by
  rw [← isSign_iff] at sign
  rw [← isAlpha_iff] at letter
  simp [comparatorLength, runLength, sign, letter]

theorem not_sign_letter_of_digit {c : Char} (digit : Digit c ∨ c = '+') :
    ¬Sign c ∧ ¬Letter c := by
  rcases digit with ⟨low, high⟩ | rfl
  · refine ⟨fun sign => ?_, fun letter => ?_⟩
    · simp only [Sign, List.mem_cons, List.not_mem_nil, or_false] at sign
      rcases sign with rfl | rfl | rfl | rfl
      · exact absurd low (by decide)
      all_goals exact absurd high (by decide)
    · rcases letter with ⟨above, -⟩ | ⟨above, -⟩
      all_goals exact absurd (Char.le_trans above high) (by decide)
  · decide

theorem reads_bound {b : UInt64} {source rest : List Char} (written : BoundWritten b source rest) :
    Reads bound (fun t => Text.count64? t.text.toList = some b) source rest := by
  obtain ⟨text, filled, rfl, long, value⟩ := boundWritten_iff.1 written
  refine (reads_token boundLength_le filled long).imp fun t same => ?_
  rw [same, String.toList_ofList, value]

theorem reads_comparator {c : Comparator} {source rest : List Char}
    (written : ComparatorWritten c source rest) :
    Reads comparator (fun t => Comparator.ofToken? t.text = some c) source rest := by
  obtain ⟨text, filled, rfl, long, known⟩ := comparatorWritten_iff.1 written
  refine (reads_token comparatorLength_le filled long).imp fun t same => ?_
  rw [same, known]

/-- What the two tokens of a relation have to say for themselves. -/
def RelationMeans (x : Relation) (y : Option Token × Option Token) : Prop :=
  ∀ span, RelationTerm.relation? ⟨y.1, y.2, span⟩ = some x

theorem reads_relation {x : Relation} {source rest : List Char}
    (parts : Reads (orElse
      (andThen comparator fun c => andThen gap fun _ => andThen (optional bound) fun b =>
        Scanner.succeed (some c, b))
      (andThen bound fun b => Scanner.succeed (none, some b))) (RelationMeans x) source rest) :
    Reads relation (fun t => t.relation? = some x) source rest := by
  refine (parts.spanned.andThen fun y means => .succeed ?_ _).named _
  exact means y.1

theorem complete_relation :
    Complete relation RelationWritten (fun x t => t.relation? = some x) (fun _ => True) where
  reads := by
    intro x source rest written _
    apply reads_relation
    rcases written with ⟨comparator, gap, bound⟩ | ⟨bound⟩
    · refine Reads.orElse ?_ _
      refine (reads_comparator comparator).andThen fun t known => Reads.gap_andThen ?_
      obtain ⟨d, ds, rfl, first⟩ := bound.front
      have solid : ¬White d := fun white => not_relationFirst_of_white white (.inr (.inr first))
      rw [gap.dropWhile_eq (.cons solid _)]
      refine (reads_bound bound).optional.andThen ?_
      rintro _ ⟨t', rfl, value⟩
      refine .succeed (fun span => ?_) _
      exact relation?_eq_some_iff.2 ⟨known, value⟩
    · obtain ⟨d, ds, front, first⟩ := bound.front
      obtain ⟨sign, letter⟩ := not_sign_letter_of_digit first
      have failed : Fails comparator source :=
        fails_token comparatorLength_le (front ▸ comparatorLength_eq_zero sign letter)
      refine (failed.andThen _).orElse ((reads_bound bound).andThen fun t value => ?_)
      refine .succeed (fun span => ?_) _
      exact relation?_eq_some_iff.2 ⟨rfl, value⟩
  solid := by
    intro x source rest written
    obtain ⟨c, cs, rfl, first⟩ := written.front
    exact .cons (fun white => not_relationFirst_of_white white first) _

/-! ## Entries -/

/-- What follows an entry: a comma or the end of the text. -/
def ListFollow (rest : List Char) : Prop :=
  Ends (fun c => c ≠ ',') (rest.dropWhile isGap)

theorem ListFollow.nodeFollow {rest : List Char} (follow : ListFollow rest) : NodeFollow rest :=
  follow.imp fun c which => by rcases which with rfl | rfl <;> decide

theorem fails_relation {rest : List Char} (follow : ListFollow rest) :
    Fails relation (rest.dropWhile isGap) := by
  unfold ListFollow at follow
  generalize rest.dropWhile isGap = source at follow
  have short : comparatorLength source = 0 ∧ boundLength source = 0 := by
    cases source with
    | nil => decide
    | cons c cs =>
        have comma : c = ',' := not_not.1 (follow c cs rfl)
        subst comma
        exact ⟨comparatorLength_eq_zero (by decide) (by decide), rfl⟩
  have noComparator : Fails comparator source := fails_token comparatorLength_le short.1
  have noBound : Fails bound source := fails_token boundLength_le short.2
  exact (((noComparator.andThen _).orElse_fails (noBound.andThen _)).spanned.andThen _).named _

theorem filterMap_of_forall₂ {g : α → Option β} {as : List α} {bs : List β}
    (alike : List.Forall₂ (fun b a => g a = some b) bs as) : as.filterMap g = bs := by
  induction alike with
  | nil => rfl
  | cons same _ ih => rw [List.filterMap_cons_some same, ih]

/-- What a scanned entry has to say for itself. -/
def EntryMeans (x : Content) (e : Entry) : Prop :=
  e.faults = [] ∧ e.clause.content = x

theorem reads_countsEntry {x : Content} {source rest : List Char}
    (parts : Reads (andThen nodeRef fun ref => andThen gap fun _ =>
      andThen (many relation consumes_relation) fun relations => Scanner.succeed (ref, relations))
      (fun y => ∀ span, EntryMeans x ⟨y.1, y.2, span⟩) source rest) :
    Reads countsEntry (EntryMeans x) source rest :=
  (parts.spanned.andThen fun y means => .succeed (means y.1) _).named _

theorem nodeFollow_of_relations {relations : List Relation} {source m rest : List Char}
    (gap : Gap source m) (related : Items RelationWritten RelationWritten relations m rest) :
    NodeFollow source := by
  obtain ⟨written, others⟩ := related
  obtain ⟨c, cs, rfl, first⟩ := written.front
  have solid : ¬White c := fun white => not_relationFirst_of_white white first
  rw [NodeFollow, gap.dropWhile_eq (.cons solid _)]
  refine .cons ?_ _
  rintro (rfl | rfl) <;> revert first <;> unfold RelationFirst <;> decide

theorem complete_countsEntry : Complete countsEntry CountsWritten EntryMeans ListFollow where
  reads := by
    rintro _ source rest ⟨ref, gap, related⟩ follow
    apply reads_countsEntry
    refine (complete_nodeRef.reads _ _ _ ref (nodeFollow_of_relations gap related)).andThen ?_
    rintro e ⟨good, phases, node⟩
    refine Reads.gap_andThen ?_
    obtain ⟨first, others⟩ := related
    rw [gap.dropWhile_eq (complete_relation.solid _ _ _ first)]
    have terms := reads_many_items (h := consumes_relation) complete_relation
      (fun _ _ _ _ _ _ => trivial) (.mk first others) trivial (fails_relation follow)
    refine terms.andThen fun ts alike => .succeed (fun span => ⟨?_, ?_⟩) _
    · have filled : ts ≠ [] := by
        rintro rfl
        cases alike
      have each : ∀ t ∈ ts, t.faults e.node.text = [] := by
        intro t member
        obtain ⟨x, denoted⟩ := exists_of_forall₂ alike t member
        have value := (relation?_eq_some_iff.1 denoted).2
        refine (relationFaults_eq_nil_iff (.inr ?_)).2 ⟨x, denoted⟩
        rintro missing
        simp [RelationTerm.bound?, missing] at value
      simpa [Entry.faults, good, filled] using each
    · simp [Entry.clause, Clause.content, phases, node, filterMap_of_forall₂ alike]
  solid := by
    rintro _ source rest ⟨ref, gap, related⟩
    exact complete_nodeRef.solid _ _ _ ref

theorem complete_failOnEntry :
    Complete nodeRef FailOnWritten
      (fun x e => e.faults = [] ∧ e.clause.content = x) ListFollow where
  reads := by
    rintro _ source rest ⟨ref⟩ follow
    refine (complete_nodeRef.reads _ _ _ ref follow.nodeFollow).imp ?_
    rintro e ⟨good, phases, node⟩
    exact ⟨good, by simp [NodeRef.clause, Clause.content, phases, node]⟩
  solid := by
    rintro _ source rest ⟨ref⟩
    exact complete_nodeRef.solid _ _ _ ref

/-! ## Lists -/

theorem ends_nil (P : Char → Prop) : Ends P [] := by
  rintro _ _ ⟨⟩

theorem reads_ended : Reads ended (fun _ => True) [] [] :=
  fun _ => ⟨(), _, ended_eq_some.2 ⟨rfl, rfl⟩, trivial⟩

/-- The end of a list: no further entry starts there, and one comma is passed over. -/
theorem list_end {item : Scanner α} (ended : Fails item []) {m : List Char}
    (after : Gap m [] ∨ ∃ m', Gap m (',' :: m') ∧ Gap m' []) :
    ListFollow m ∧ Fails (separated ',' item) (m.dropWhile isGap) ∧
      ∃ tail, Reads (optional (symbol ',')) (fun _ => True) (m.dropWhile isGap) tail ∧
        tail.dropWhile isGap = [] := by
  rcases after with gap | ⟨m', comma, gap⟩
  · rw [ListFollow, gap.dropWhile_eq (ends_nil _)]
    have failed : Fails (symbol ',') [] := fails_symbol (ends_nil _)
    exact ⟨ends_nil _, failed.andThen _, [], failed.optional.imp fun _ _ => trivial, rfl⟩
  · rw [ListFollow, comma.dropWhile_eq (.cons (by decide) _)]
    refine ⟨.cons (by decide) _, ?_, m', ?_, gap.dropWhile_eq (ends_nil _)⟩
    · refine (reads_symbol ',' m').andThen_fails fun _ => Fails.gap_andThen ?_
      rw [gap.dropWhile_eq (ends_nil _)]
      exact ended
    · exact (reads_symbol ',' m').optional.imp fun _ _ => trivial

theorem reads_wholeList {rule : Rule} {item : Scanner α} {h : item.Consumes} {R : Reading β}
    {P : β → α → Prop} (complete : Complete item R P ListFollow) (ended : Fails item [])
    {bs : List β} {source : List Char} (written : ListWritten R bs source) :
    Reads (wholeList rule item h) (List.Forall₂ P bs) source [] := by
  refine Reads.named (Reads.gap_andThen ?_) _
  cases written with
  | blank gap =>
      rw [gap.dropWhile_eq (ends_nil _)]
      refine (ended.andThen _).optional.andThen ?_
      rintro _ rfl
      exact Reads.gap_andThen ((reads_ended.named _).andThen fun _ _ => .succeed .nil _)
  | filled before entries after =>
      obtain ⟨first, others⟩ := entries
      rename_i s _ b bs _
      rw [before.dropWhile_eq (complete.solid _ _ _ first)]
      obtain ⟨last, stop, tail, comma, closed⟩ := list_end ended after
      have follow : ∀ b s r m, Behind ',' R b s r → Gap m s → ListFollow m := by
        rintro b _ r m ⟨gap, item⟩ white
        rw [ListFollow, white.dropWhile_eq (.cons (by decide) _)]
        exact .cons (by decide) _
      obtain ⟨rest, many, same⟩ :=
        reads_many (complete.separated (by decide)) follow others last stop
      have list : Reads (andThen item fun first => andThen gap fun _ =>
          andThen (Scanner.many (separated ',' item) (consumes_separated ',' h)) fun others =>
          andThen gap fun _ => andThen (optional (symbol ',')) fun _ =>
          Scanner.succeed (first :: others)) (List.Forall₂ P (b :: bs)) s tail := by
        refine (complete.reads _ _ _ first (others.follow follow last)).andThen fun a good =>
          Reads.gap_andThen (many.andThen fun as goods => Reads.gap_andThen ?_)
        rw [same]
        exact comma.andThen fun _ _ => .succeed (.cons good goods) _
      refine list.optional.andThen ?_
      rintro _ ⟨as, rfl, goods⟩
      refine Reads.gap_andThen ?_
      rw [closed]
      exact (reads_ended.named _).andThen fun _ _ => .succeed goods _

theorem fails_nodeRef_nil : Fails nodeRef [] :=
  fun _ => rfl

theorem fails_countsEntry_nil : Fails countsEntry [] :=
  fun _ => rfl

end DumpRules.Grammar

namespace DumpRules

open Grammar

/-- What a list scanner reads without fault is what its reader returns. -/
theorem readList_of_reads {α : Type} {list : ListKind} {scanner : Scanner (List α)}
    {faults : α → List (Span × Fault)} {clause : α → Clause} {source : String}
    {items : List Content}
    (read : Reads scanner (List.Forall₂ (fun x e => faults e = [] ∧ (clause e).content = x) items)
      source.toList []) :
    ∃ cs, readList list scanner faults clause source = .ok cs ∧
      cs.map Clause.content = items := by
  obtain ⟨es, stop, scanned, alike⟩ := read 0
  refine ⟨es.map clause, readList_eq_ok_iff.2 ⟨es, _, scanned, fun e member => ?_, rfl⟩, ?_⟩
  · obtain ⟨x, good, -⟩ := exists_of_forall₂ alike e member
    exact good
  · have same : es.map (Clause.content ∘ clause) = items.map id :=
      map_eq_of_forall₂ (List.Forall₂.imp (fun _ _ means => means.2) alike)
    rw [List.map_map, same, List.map_id]

/-- **The readers accept exactly the written lists.** A list is read, as clauses that say certain
things in a certain order, iff its text is a written form of a list that says just these things. -/
theorem read_iff_listWritten (source : String) (items : List Content) :
    ((∃ cs, readCounts source = .ok cs ∧ cs.map Clause.content = items) ↔
      ListWritten CountsWritten items source.toList) ∧
    ((∃ cs, readFailOn source = .ok cs ∧ cs.map Clause.content = items) ↔
      ListWritten FailOnWritten items source.toList) := by
  refine ⟨⟨?_, fun written => ?_⟩, ⟨?_, fun written => ?_⟩⟩
  · rintro ⟨cs, read, rfl⟩
    exact readCounts_written read
  · exact readList_of_reads (reads_wholeList complete_countsEntry fails_countsEntry_nil written)
  · rintro ⟨cs, read, rfl⟩
    exact readFailOn_written read
  · exact readList_of_reads (reads_wholeList complete_failOnEntry fails_nodeRef_nil written)

-- Tokens that touch: a separator before white space, a name of a comparator, and two signed bounds.
example : (readCounts "CCP1 | MATCHING :A lt4+5,_.$@ 1+2").map (List.map Clause.content) =
    .ok [⟨some [.ccp1, .matching], "A", .counts [⟨.lt, 4⟩, ⟨.eq, 5⟩]⟩,
      ⟨none, "_.$@", .counts [⟨.eq, 1⟩, ⟨.eq, 2⟩]⟩] := by
  decide +kernel

end DumpRules
