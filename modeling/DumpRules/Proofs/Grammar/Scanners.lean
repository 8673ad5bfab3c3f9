import DumpRules.Proofs.Grammar.Derivation

/-!
# What each scanner reads

One equation for each scanner, which says exactly when it succeeds, with what value and at which
place it stops. Nothing later unfolds a scanner. The record of attempts plays no part here: a
scanner's result does not depend on it.
-/

namespace DumpRules.Grammar

set_option autoImplicit false

variable {α β : Type}

/-! ## Runs of characters -/

theorem ends_iff {P : Char → Prop} {rest : List Char} :
    Ends P rest ↔ ∀ c ∈ rest.head?, ¬P c := by
  cases rest with
  | nil => simp [Ends]
  | cons c later => simp [Ends]

/-- A run of a class has the length of a text iff the text is of the class and what follows does not
extend it. -/
theorem runLength_append_iff {p : Char → Bool} {P : Char → Prop} (same : ∀ c, p c = true ↔ P c)
    {text rest : List Char} :
    runLength p (text ++ rest) = text.length ↔ (∀ c ∈ text, P c) ∧ Ends P rest := by
  unfold runLength
  induction text with
  | nil =>
      cases rest with
      | nil => simp [Ends]
      | cons c later => by_cases h : p c <;> simp [Ends, h, ← same]
  | cons c text ih =>
      by_cases h : p c
      · simp [h, ih, (same c).1 h]
      · simp [h, ← same]

theorem wordLength_append_iff {first later : Char → Bool} {P Q : Char → Prop}
    (sameFirst : ∀ c, first c = true ↔ P c) (sameLater : ∀ c, later c = true ↔ Q c)
    {c : Char} {cs rest : List Char} :
    wordLength first later (c :: cs ++ rest) = (c :: cs).length ↔
      P c ∧ (∀ x ∈ cs, Q x) ∧ Ends Q rest := by
  by_cases h : first c
  · simp [wordLength, h, (sameFirst c).1 h, runLength_append_iff sameLater]
  · simp [wordLength, h, ← sameFirst]

/-! ## Combinators -/

namespace Scanner

theorem andThen_eq_some {p : Scanner α} {q : α → Scanner β} {cur cur' : Cursor} {b : β} :
    (p.andThen q cur).result = some (b, cur') ↔
      ∃ a mid, (p cur).result = some (a, mid) ∧ (q a mid).result = some (b, cur') := by
  rw [andThen_result, Option.bind_eq_some_iff]
  constructor
  · rintro ⟨⟨a, mid⟩, read, rest⟩
    exact ⟨a, mid, read, rest⟩
  · rintro ⟨a, mid, read, rest⟩
    exact ⟨(a, mid), read, rest⟩

theorem succeed_eq_some {a b : α} {cur cur' : Cursor} :
    (succeed a cur).result = some (b, cur') ↔ a = b ∧ cur = cur' := by
  simp [succeed]

theorem gap_andThen_result (q : Unit → Scanner α) (cur : Cursor) :
    (gap.andThen q cur).result = (q () cur.skipGap).result := rfl

theorem named_result (rule : Rule) (p : Scanner α) (cur : Cursor) :
    (p.named rule cur).result = (p cur).result := rfl

theorem spanned_eq_some {p : Scanner α} {cur cur' : Cursor} {x : Span × α} :
    (p.spanned cur).result = some (x, cur') ↔
      (p cur).result = some (x.2, cur') ∧ x.1 = ⟨cur.offset, cur'.offset⟩ := by
  obtain ⟨span, a⟩ := x
  simp only [spanned, Option.map_eq_some_iff, Prod.exists, Prod.mk.injEq]
  constructor
  · rintro ⟨b, stop, read, ⟨rfl, rfl⟩, rfl⟩
    exact ⟨read, rfl⟩
  · rintro ⟨read, rfl⟩
    exact ⟨a, cur', read, ⟨rfl, rfl⟩, rfl⟩

theorem optional_eq_some {p : Scanner α} {cur cur' : Cursor} {x : Option α} :
    (p.optional cur).result = some (x, cur') ↔
      (∃ a, x = some a ∧ (p cur).result = some (a, cur')) ∨
        x = none ∧ (p cur).result = none ∧ cur = cur' := by
  rw [optional_result]
  cases read : (p cur).result with
  | none => simp [eq_comm]
  | some y =>
      obtain ⟨a, stop⟩ := y
      simp only [Option.some.injEq, Prod.mk.injEq, reduceCtorEq, false_and, and_false, or_false]
      constructor
      · rintro ⟨rfl, rfl⟩
        exact ⟨a, rfl, rfl, rfl⟩
      · rintro ⟨b, rfl, rfl, rfl⟩
        exact ⟨rfl, rfl⟩

theorem orElse_eq_some {p q : Scanner α} {cur cur' : Cursor} {a : α} :
    (p.orElse q cur).result = some (a, cur') ↔
      (p cur).result = some (a, cur') ∨
        (p cur).result = none ∧ (q cur).result = some (a, cur') := by
  unfold orElse
  cases read : (p cur).result <;> simp [read]

theorem symbol_eq_some {c : Char} {cur cur' : Cursor} {u : Unit} :
    (symbol c cur).result = some (u, cur') ↔
      cur.rest = c :: cur'.rest ∧ cur'.offset = cur.offset + c.utf8Size := by
  obtain ⟨offset, rest⟩ := cur
  obtain ⟨offset', rest'⟩ := cur'
  cases rest with
  | nil => simp [symbol]
  | cons d later =>
      by_cases same : d = c
      · subst same
        simp only [symbol, if_true, Cursor.advance, List.take_succ_cons, List.take_zero, byteLength,
          Nat.add_zero, List.drop_succ_cons, List.drop_zero, Option.some.injEq, Prod.mk.injEq,
          Cursor.mk.injEq, List.cons.injEq, true_and]
        rw [and_comm, eq_comm (a := offset')]
      · simp [symbol, same]

theorem symbol_eq_none {c : Char} {cur : Cursor} :
    (symbol c cur).result = none ↔ ∀ d ∈ cur.rest.head?, d ≠ c := by
  obtain ⟨offset, rest⟩ := cur
  cases rest with
  | nil => simp [symbol]
  | cons d later => by_cases same : d = c <;> simp [symbol, same]

theorem ended_eq_some {cur cur' : Cursor} {u : Unit} :
    (ended cur).result = some (u, cur') ↔ cur.rest = [] ∧ cur = cur' := by
  obtain ⟨offset, rest⟩ := cur
  cases rest <;> simp [ended]

theorem more_of_none {item : Scanner α} (h : item.Consumes) {cur : Cursor}
    (failed : (item cur.skipGap).result = none) : (more item h cur).result = some ([], cur) := by
  rw [more]
  split
  · rfl
  · rename_i read
    rw [failed] at read
    cases read

theorem more_result_of_some {item : Scanner α} (h : item.Consumes) {cur next : Cursor} {a : α}
    (read : (item cur.skipGap).result = some (a, next)) :
    (more item h cur).result = (more item h next).result.map fun x => (a :: x.1, x.2) := by
  rw [more]
  split
  · rename_i failed
    rw [read] at failed
    cases failed
  · rename_i read'
    rw [read] at read'
    cases read'
    rfl

theorem more_of_some {item : Scanner α} (h : item.Consumes) {cur next cur' : Cursor} {a : α}
    {later : List α} (read : (item cur.skipGap).result = some (a, next))
    (rest : (more item h next).result = some (later, cur')) :
    (more item h cur).result = some (a :: later, cur') := by
  rw [more_result_of_some h read, rest]
  rfl

theorem lexeme_eq_some {length : List Char → Nat} (fits : ∀ cs, length cs ≤ cs.length)
    {cur cur' : Cursor} {text : List Char} :
    (lexeme length cur).result = some (text, cur') ↔
      text ≠ [] ∧ cur.rest = text ++ cur'.rest ∧ length cur.rest = text.length ∧
        cur'.offset = cur.offset + byteLength text := by
  obtain ⟨offset, rest⟩ := cur
  obtain ⟨offset', rest'⟩ := cur'
  cases rest with
  | nil =>
      simp only [lexeme, reduceCtorEq, false_iff]
      rintro ⟨filled, split, -⟩
      exact filled (List.append_eq_nil_iff.1 split.symm).1
  | cons c later =>
      cases size : length (c :: later) with
      | zero =>
          simp only [lexeme, size, reduceCtorEq, false_iff]
          rintro ⟨filled, -, long, -⟩
          exact filled (List.length_eq_zero_iff.1 long.symm)
      | succ n =>
          simp only [lexeme, size, Cursor.advance, Option.some.injEq, Prod.mk.injEq,
            Cursor.mk.injEq]
          constructor
          · rintro ⟨rfl, rfl, rfl⟩
            have bounded := fits (c :: later)
            rw [size] at bounded
            exact ⟨by simp, (List.take_append_drop (n + 1) _).symm,
              (List.length_take_of_le bounded).symm, rfl⟩
          · rintro ⟨-, split, long, rfl⟩
            rw [split, long, List.take_left, List.drop_left]
            exact ⟨rfl, rfl, rfl⟩

end Scanner

/-- A token is a text of just the length that its class gives it. -/
theorem token_eq_some {rule : Rule} {length : List Char → Nat}
    (fits : ∀ cs, length cs ≤ cs.length) {cur cur' : Cursor} {t : Token} :
    (token rule length cur).result = some (t, cur') ↔
      ∃ text, text ≠ [] ∧ cur.rest = text ++ cur'.rest ∧ length cur.rest = text.length ∧
        cur'.offset = cur.offset + byteLength text ∧
        t = ⟨String.ofList text, ⟨cur.offset, cur'.offset⟩⟩ := by
  unfold token
  rw [Scanner.named_result, Scanner.andThen_eq_some]
  constructor
  · rintro ⟨⟨span, text⟩, mid, read, made⟩
    obtain ⟨lexed, spans⟩ := Scanner.spanned_eq_some.1 read
    obtain ⟨rfl, rfl⟩ := Scanner.succeed_eq_some.1 made
    obtain ⟨filled, split, long, moved⟩ := (Scanner.lexeme_eq_some fits).1 lexed
    exact ⟨text, filled, split, long, moved, by simp_all⟩
  · rintro ⟨text, filled, split, long, moved, rfl⟩
    refine ⟨(⟨cur.offset, cur'.offset⟩, text), cur', ?_, Scanner.succeed_eq_some.2 ⟨rfl, rfl⟩⟩
    exact Scanner.spanned_eq_some.2
      ⟨(Scanner.lexeme_eq_some fits).2 ⟨filled, split, long, moved⟩, rfl⟩

/-! ## References, relations and entries -/

open Scanner

theorem phasePrefix_eq_some {cur cur' : Cursor} {ts : List Token} :
    (phasePrefix cur).result = some (ts, cur') ↔ ∃ first others m₁ m₂, ts = first :: others ∧
      (phaseName cur).result = some (first, m₁) ∧
      (many (separated '|' phaseName) (consumes_separated '|' (consumes_token _ _))
        m₁.skipGap).result = some (others, m₂) ∧
      (symbol ':' m₂.skipGap).result = some ((), cur') := by
  simp only [phasePrefix, named_result, andThen_eq_some, gap_andThen_result, succeed_eq_some]
  constructor
  · rintro ⟨first, m₁, name, others, m₂, names, _, m₃, colon, rfl, rfl⟩
    exact ⟨first, others, m₁, m₂, rfl, name, names, colon⟩
  · rintro ⟨first, others, m₁, m₂, rfl, name, names, colon⟩
    exact ⟨first, m₁, name, others, m₂, names, (), cur', colon, rfl, rfl⟩

theorem nodeRef_eq_some {cur cur' : Cursor} {r : NodeRef} :
    (nodeRef cur).result = some (r, cur') ↔ ∃ m,
      (optional phasePrefix cur).result = some (r.phases, m) ∧
      (nodeIdent m.skipGap).result = some (r.node, cur') ∧ r.span = ⟨cur.offset, cur'.offset⟩ := by
  simp only [nodeRef, named_result, andThen_eq_some, gap_andThen_result, succeed_eq_some,
    spanned_eq_some]
  constructor
  · rintro ⟨⟨span, phases, node⟩, _, ⟨⟨_, m, tried, _, _, ident, same, rfl⟩, spans⟩, rfl, rfl⟩
    obtain ⟨rfl, rfl⟩ := Prod.mk.inj same
    exact ⟨m, tried, ident, spans⟩
  · rintro ⟨m, tried, ident, spans⟩
    exact ⟨(r.span, r.phases, r.node), cur', ⟨⟨_, m, tried, _, cur', ident, rfl, rfl⟩, spans⟩,
      rfl, rfl⟩

theorem relation_eq_some {cur cur' : Cursor} {t : RelationTerm} :
    (relation cur).result = some (t, cur') ↔ t.span = ⟨cur.offset, cur'.offset⟩ ∧
      ((∃ c m, t.comparator = some c ∧ (comparator cur).result = some (c, m) ∧
          (optional bound m.skipGap).result = some (t.bound, cur')) ∨
        (comparator cur).result = none ∧
          ∃ b, t.comparator = none ∧ t.bound = some b ∧ (bound cur).result = some (b, cur')) := by
  -- Behind a comparator nothing more is needed, so the first choice fails only without one.
  have first : (andThen comparator (fun c => andThen gap fun _ => andThen (optional bound) fun b =>
      succeed (some c, b)) cur).result = none ↔ (comparator cur).result = none := by
    cases found : (comparator cur).result with
    | none => simp [andThen_result, found]
    | some x =>
        rw [andThen_result, found, Option.bind_some, gap_andThen_result, andThen_result,
          optional_result]
        cases (bound x.2.skipGap).result <;> simp [succeed]
  simp only [relation, named_result, andThen_eq_some, succeed_eq_some, spanned_eq_some,
    orElse_eq_some, gap_andThen_result, first]
  constructor
  · rintro ⟨⟨span, c, b⟩, _, ⟨read, spans⟩, rfl, rfl⟩
    refine ⟨spans, ?_⟩
    rcases read with ⟨x, m, token, _, _, tried, same, rfl⟩ | ⟨absent, x, _, token, same, rfl⟩
    · obtain ⟨rfl, rfl⟩ := Prod.mk.inj same
      exact .inl ⟨x, m, rfl, token, tried⟩
    · obtain ⟨rfl, rfl⟩ := Prod.mk.inj same
      exact .inr ⟨absent, x, rfl, rfl, token⟩
  · obtain ⟨c, b, span⟩ := t
    rintro ⟨spans, ⟨x, m, rfl, token, tried⟩ | ⟨absent, x, rfl, rfl, token⟩⟩
    · exact ⟨(span, some x, b), cur', ⟨.inl ⟨x, m, token, b, cur', tried, rfl, rfl⟩, spans⟩,
        rfl, rfl⟩
    · exact ⟨(span, none, some x), cur', ⟨.inr ⟨absent, x, cur', token, rfl, rfl⟩, spans⟩,
        rfl, rfl⟩

theorem countsEntry_eq_some {cur cur' : Cursor} {e : Entry} :
    (countsEntry cur).result = some (e, cur') ↔ ∃ m,
      (nodeRef cur).result = some (e.ref, m) ∧
      (many relation consumes_relation m.skipGap).result = some (e.relations, cur') ∧
      e.span = ⟨cur.offset, cur'.offset⟩ := by
  simp only [countsEntry, named_result, andThen_eq_some, gap_andThen_result, succeed_eq_some,
    spanned_eq_some]
  constructor
  · rintro ⟨⟨span, ref, terms⟩, _, ⟨⟨_, m, refRead, _, _, termsRead, same, rfl⟩, spans⟩, rfl, rfl⟩
    obtain ⟨rfl, rfl⟩ := Prod.mk.inj same
    exact ⟨m, refRead, termsRead, spans⟩
  · rintro ⟨m, refRead, termsRead, spans⟩
    exact ⟨(e.span, e.ref, e.relations), cur',
      ⟨⟨_, m, refRead, _, cur', termsRead, rfl, rfl⟩, spans⟩, rfl, rfl⟩

end DumpRules.Grammar
