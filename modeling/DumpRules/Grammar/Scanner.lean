import DumpRules.Grammar.Attempt
import DumpRules.Clause.Basic

/-!
Scanners: functions that read something off the front of a text and report what they tried. A
scanner's answer does not depend on what was tried before it, so the record of attempts can be
ignored wherever only acceptance matters. `Consumes` says that a scanner takes at least one character
whenever it succeeds; repetition asks for it, and ends by it.
-/

namespace DumpRules.Grammar

set_option autoImplicit false

/-- The number of bytes of a text. -/
def byteLength : List Char → Nat
  | [] => 0
  | c :: later => c.utf8Size + byteLength later

/-- A place in a text: the number of bytes before it and the characters behind it. -/
structure Cursor where
  offset : Nat
  rest : List Char

/-- The four characters that may stand between tokens. -/
def isGap (c : Char) : Bool :=
  c == ' ' || c == '\t' || c == '\r' || c == '\n'

namespace Cursor

/-- Moves on by `n` characters. -/
def advance (cur : Cursor) (n : Nat) : Cursor :=
  ⟨cur.offset + byteLength (cur.rest.take n), cur.rest.drop n⟩

/-- Moves on to the next character that is no white space. -/
def skipGap (cur : Cursor) : Cursor :=
  ⟨cur.offset + byteLength (cur.rest.takeWhile isGap), cur.rest.dropWhile isGap⟩

theorem length_rest_skipGap_le (cur : Cursor) : cur.skipGap.rest.length ≤ cur.rest.length :=
  (List.dropWhile_sublist isGap).length_le

end Cursor

/-- What came of a scan: a value and the place behind it, if it succeeded, and all that was tried. -/
structure Scan (α : Type) where
  result : Option (α × Cursor)
  tried : List Attempt := []

/-- A function that reads something off the front of a text. -/
def Scanner (α : Type) := Cursor → Scan α

variable {α β : Type}

namespace Scanner

/-- Succeeds without reading. -/
def succeed (a : α) : Scanner α := fun cur =>
  { result := some (a, cur) }

/-- One scanner after the other. -/
def andThen (p : Scanner α) (q : α → Scanner β) : Scanner β := fun cur =>
  let s := p cur
  match s.result with
  | none => { result := none, tried := s.tried }
  | some (a, cur) =>
    let t := q a cur
    { result := t.result, tried := s.tried ++ t.tried }

instance : Monad Scanner where
  pure := succeed
  bind := andThen

/-- The second scanner where the first fails. -/
def orElse (p q : Scanner α) : Scanner α := fun cur =>
  let s := p cur
  match s.result with
  | some _ => s
  | none =>
    let t := q cur
    { result := t.result, tried := s.tried ++ t.tried }

/-- A scanner that need not succeed. -/
def optional (p : Scanner α) : Scanner (Option α) := fun cur =>
  let s := p cur
  match s.result with
  | some (a, cur) => { result := some (some a, cur), tried := s.tried }
  | none => { result := some (none, cur), tried := s.tried }

/-- A scanner on record under the name of a rule. -/
def named (rule : Rule) (p : Scanner α) : Scanner α := fun cur =>
  let s := p cur
  { result := s.result, tried := [.mk rule cur.offset s.result.isNone s.tried] }

/-- Passes over white space. -/
def gap : Scanner Unit := fun cur =>
  { result := some ((), cur.skipGap) }

/-- Reads as many characters as `length` says, at least one; nothing within a token is on record. -/
def lexeme (length : List Char → Nat) : Scanner (List Char) := fun cur =>
  match cur.rest, length cur.rest with
  | _ :: _, n + 1 => { result := some (cur.rest.take (n + 1), cur.advance (n + 1)) }
  | _, _ => { result := none }

/-- Reads one given character. -/
def symbol (c : Char) : Scanner Unit := fun cur =>
  match cur.rest with
  | d :: _ => if d = c then { result := some ((), cur.advance 1) } else { result := none }
  | [] => { result := none }

/-- Succeeds at the end of the text only. -/
def ended : Scanner Unit := fun cur =>
  match cur.rest with
  | [] => { result := some ((), cur) }
  | _ :: _ => { result := none }

/-- Adds the stretch of text that was read. -/
def spanned (p : Scanner α) : Scanner (Span × α) := fun cur =>
  let s := p cur
  { result := s.result.map fun (a, stop) => ((⟨cur.offset, stop.offset⟩, a), stop),
    tried := s.tried }

/-- A scanner that reads at least one character whenever it succeeds. -/
def Consumes (p : Scanner α) : Prop :=
  ∀ cur a cur', (p cur).result = some (a, cur') → cur'.rest.length < cur.rest.length

/-- A scanner that never puts characters back. -/
def Forward (p : Scanner α) : Prop :=
  ∀ cur a cur', (p cur).result = some (a, cur') → cur'.rest.length ≤ cur.rest.length

/-- Further items, each after optional white space. White space that no item follows is not read. -/
def more (item : Scanner α) (h : item.Consumes) (cur : Cursor) : Scan (List α) :=
  let s := item cur.skipGap
  match _hs : s.result with
  | none => { result := some ([], cur), tried := s.tried }
  | some (a, next) =>
    let t := more item h next
    { result := t.result.map fun (as, stop) => (a :: as, stop), tried := s.tried ++ t.tried }
termination_by cur.rest.length
decreasing_by
  have := h _ _ _ _hs
  have := cur.length_rest_skipGap_le
  omega

/-- Any number of items with optional white space between them. -/
def many (item : Scanner α) (h : item.Consumes) : Scanner (List α) :=
  (optional item).andThen fun
    | none => succeed []
    | some a => andThen (more item h) fun as => succeed (a :: as)

/-! ### What scanners read -/

theorem Consumes.forward {p : Scanner α} (h : p.Consumes) : p.Forward :=
  fun cur a cur' e => Nat.le_of_lt (h cur a cur' e)

theorem andThen_result (p : Scanner α) (q : α → Scanner β) (cur : Cursor) :
    (p.andThen q cur).result = (p cur).result.bind fun x => (q x.1 x.2).result := by
  unfold andThen
  cases h : (p cur).result <;> simp [h]

theorem Consumes.andThen {p : Scanner α} {q : α → Scanner β} (hp : p.Consumes)
    (hq : ∀ a, (q a).Forward) : (p.andThen q).Consumes := by
  intro cur b cur' e
  rw [andThen_result] at e
  obtain ⟨⟨a, mid⟩, ha, hb⟩ := Option.bind_eq_some_iff.1 e
  exact Nat.lt_of_le_of_lt (hq a mid b cur' hb) (hp cur a mid ha)

theorem Forward.andThen {p : Scanner α} {q : α → Scanner β} (hp : p.Forward)
    (hq : ∀ a, (q a).Forward) : (p.andThen q).Forward := by
  intro cur b cur' e
  rw [andThen_result] at e
  obtain ⟨⟨a, mid⟩, ha, hb⟩ := Option.bind_eq_some_iff.1 e
  exact Nat.le_trans (hq a mid b cur' hb) (hp cur a mid ha)

theorem Forward.andThen_consumes {p : Scanner α} {q : α → Scanner β} (hp : p.Forward)
    (hq : ∀ a, (q a).Consumes) : (p.andThen q).Consumes := by
  intro cur b cur' e
  rw [andThen_result] at e
  obtain ⟨⟨a, mid⟩, ha, hb⟩ := Option.bind_eq_some_iff.1 e
  exact Nat.lt_of_lt_of_le (hq a mid b cur' hb) (hp cur a mid ha)

theorem forward_succeed (a : α) : (succeed a).Forward := by
  intro cur b cur' e
  simp only [succeed, Option.some.injEq, Prod.mk.injEq] at e
  simp [e.2]

theorem forward_gap : gap.Forward := by
  intro cur b cur' e
  simp only [gap, Option.some.injEq, Prod.mk.injEq] at e
  exact e.2 ▸ cur.length_rest_skipGap_le

theorem consumes_lexeme (length : List Char → Nat) : (lexeme length).Consumes := by
  intro cur b cur' e
  unfold lexeme at e
  split at e
  · next h _ =>
    simp only [Option.some.injEq, Prod.mk.injEq] at e
    simp only [← e.2, Cursor.advance, h, List.length_drop, List.length_cons]
    omega
  · simp at e

theorem consumes_symbol (c : Char) : (symbol c).Consumes := by
  intro cur b cur' e
  unfold symbol at e
  split at e
  · next h =>
    split at e
    · simp only [Option.some.injEq, Prod.mk.injEq] at e
      simp [← e.2, Cursor.advance, h]
    · simp at e
  · simp at e

theorem optional_result (p : Scanner α) (cur : Cursor) :
    (p.optional cur).result =
      match (p cur).result with
      | some (a, cur') => some (some a, cur')
      | none => some (none, cur) := by
  unfold optional
  split <;> simp_all

theorem Forward.optional {p : Scanner α} (h : p.Forward) : p.optional.Forward := by
  intro cur b cur' e
  rw [optional_result] at e
  split at e
  · next h' =>
    simp only [Option.some.injEq, Prod.mk.injEq] at e
    exact e.2 ▸ h _ _ _ h'
  · simp only [Option.some.injEq, Prod.mk.injEq] at e
    simp [e.2]

theorem Consumes.orElse {p q : Scanner α} (hp : p.Consumes) (hq : q.Consumes) :
    (p.orElse q).Consumes := by
  intro cur b cur' e
  simp only [Scanner.orElse] at e
  split at e
  · exact hp _ _ _ e
  · exact hq _ _ _ e

theorem Consumes.named {p : Scanner α} (rule : Rule) (h : p.Consumes) :
    (p.named rule).Consumes :=
  fun cur a cur' e => h cur a cur' e

theorem Consumes.spanned {p : Scanner α} (h : p.Consumes) : p.spanned.Consumes := by
  intro cur b cur' e
  simp only [Scanner.spanned] at e
  obtain ⟨⟨a, stop⟩, ha, hb⟩ := Option.map_eq_some_iff.1 e
  simp only [Prod.mk.injEq] at hb
  exact hb.2 ▸ h _ _ _ ha

theorem forward_more (item : Scanner α) (h : item.Consumes) : Forward (more item h) := by
  intro cur as cur' e
  fun_induction more item h cur generalizing as with
  | case1 cur s hs =>
    simp only [Option.some.injEq, Prod.mk.injEq] at e
    simp [e.2]
  | case2 cur s a next hs t ih =>
    obtain ⟨⟨bs, stop⟩, hb, hc⟩ := Option.map_eq_some_iff.1 e
    simp only [Prod.mk.injEq] at hc
    have h1 := ih bs (hc.2 ▸ hb)
    have h2 := h _ _ _ hs
    have h3 := cur.length_rest_skipGap_le
    omega

theorem forward_many (item : Scanner α) (h : item.Consumes) : (many item h).Forward :=
  h.forward.optional.andThen fun
    | none => forward_succeed []
    | some a => (forward_more item h).andThen fun as => forward_succeed (a :: as)

end Scanner

end DumpRules.Grammar
