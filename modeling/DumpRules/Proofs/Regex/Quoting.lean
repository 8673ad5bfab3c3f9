import DumpRules.Catalog.Pattern
import Mathlib.Data.List.Basic
import Mathlib.Tactic.FinCases

/-!
# Quoted names are read as themselves

A quoted text, between the marks of word edges that a name may have at its ends, is read back as an
expression in which every character of the text stands for itself, whatever characters they are
(`denotes_wordChars`). Reading goes one character at a time, so each part is read with any text
behind it; the only such text that could change the meaning of a mark is an opening brace, and a
quoted text never starts with one.
-/

namespace DumpRules.Regex

set_option autoImplicit false

/-- A pattern, read to its end and whatever its size, stands for an expression. -/
def Denotes (pattern : String) (e : Expr) : Prop :=
  ∃ item, Reading.readAll { here := { flags := {} } } pattern.toList = some item ∧
    item.depth ≤ maxDepth ∧ item.expr = e

/-- A pattern is accepted as what it stands for unless that is too large. -/
theorem Denotes.parse? {pattern : String} {e : Expr} (denotes : Denotes pattern e) :
    parse? pattern = if e.states ≤ maxStates then some e else none := by
  obtain ⟨item, read, shallow, rfl⟩ := denotes
  simp only [Regex.parse?, read, shallow, true_and]

/-! ## The parts of a word -/

/-- The edge of a word, if one is asked for. -/
def edgePart (asked : Bool) : List Expr :=
  if asked then [.look .wordBoundary] else []

/-- The characters of a name between the edges that are asked for. -/
def wordParts (start stop : Bool) (name : List Char) : List Expr :=
  edgePart start ++ name.map .char ++ edgePart stop

theorem wordExpr_eq (name : List Char) :
    Pattern.wordExpr name =
      .sequence (wordParts (Pattern.needsEdge name.head?) (Pattern.needsEdge name.getLast?) name) :=
  rfl

/-! ## One item at a time -/

namespace Reading

variable {r r' : Reading}

/-- A reading with more expressions at the end of the present alternative. -/
def addAll (r : Reading) (es : List Expr) : Reading :=
  let read := es.map fun e => { expr := e }
  { r with here := { r.here with items := read.reverse ++ r.here.items } }

theorem addAll_append (r : Reading) (es es' : List Expr) :
    r.addAll (es ++ es') = (r.addAll es).addAll es' := by
  simp [addAll]

theorem readAll_cons (plain : r.here.flags.verbose = false) {c : Char} {later rest : List Char}
    (step : r.step c later = some (r', rest)) (shorter : rest.length ≤ later.length) :
    r.readAll (c :: later) = r'.readAll rest := by
  have bound : rest.length < (c :: later).length := Nat.lt_succ_of_le shorter
  rw [readAll, plain]
  simp only [skip, Bool.false_eq_true, if_false, step, bound, dif_pos]

theorem step_of_not_isMeta {c : Char} (ordinary : isMeta c = false)
    (sensitive : r.here.flags.anyCase = false) (rest : List Char) :
    r.step c rest = some (r.addAll [.char c], rest) := by
  unfold step
  split
  case h_13 =>
    simp only [OpenGroup.pushAtom, OpenGroup.pushChar, sensitive, Bool.false_eq_true, if_false]
    rfl
  all_goals exact absurd ordinary (by decide)

theorem readEscape_of_isMeta {c : Char} (special : isMeta c = true) (rest : List Char) :
    readEscape false (c :: rest) = some (.literal c, rest) := by
  have among : c ∈ "\\.+*?()|[]\x7b\x7d^$#&-~".toList := List.contains_iff_mem.1 special
  fin_cases among <;> rfl

theorem step_backslash (plain : r.here.flags.verbose = false) {c : Char} {rest rest' : List Char}
    {a : Atom} (escape : readEscape false (c :: rest) = some (a, rest')) :
    r.step '\\' (c :: rest) = some ({ r with here := r.here.pushAtom a }, rest') := by
  simp only [step, plain, escape]
  rfl

/-- A quoted character is read as itself. -/
theorem readAll_quoted (plain : r.here.flags.verbose = false)
    (sensitive : r.here.flags.anyCase = false) (c : Char) (rest : List Char) :
    r.readAll ((if isMeta c then ['\\', c] else [c]) ++ rest) =
      (r.addAll [.char c]).readAll rest := by
  cases special : isMeta c with
  | true =>
      have step := step_backslash plain (readEscape_of_isMeta special rest)
      have pushed : { r with here := r.here.pushAtom (.literal c) } = r.addAll [.char c] := by
        simp only [OpenGroup.pushAtom, OpenGroup.pushChar, sensitive, Bool.false_eq_true, if_false]
        rfl
      rw [pushed] at step
      exact readAll_cons plain step (Nat.le_succ _)
  | false => exact readAll_cons plain (step_of_not_isMeta special sensitive rest) (Nat.le_refl _)

theorem readAll_quoteChars (plain : r.here.flags.verbose = false)
    (sensitive : r.here.flags.anyCase = false) (cs rest : List Char) :
    r.readAll (quoteChars cs ++ rest) = (r.addAll (cs.map .char)).readAll rest := by
  induction cs generalizing r with
  | nil => rfl
  | cons c cs ih =>
      have one : quoteChars (c :: cs) ++ rest =
          (if isMeta c then ['\\', c] else [c]) ++ (quoteChars cs ++ rest) := by
        simp [quoteChars]
      rw [one, readAll_quoted plain sensitive, ih (by exact plain) (by exact sensitive),
        ← addAll_append]
      rfl

/-- The mark of a word edge is read as one, unless a brace follows. -/
theorem readAll_edge (plain : r.here.flags.verbose = false) (edge : Bool) (rest : List Char)
    (unbraced : rest.head? ≠ some '\x7b') :
    r.readAll ((if edge then ['\\', 'b'] else []) ++ rest) =
      (r.addAll (edgePart edge)).readAll rest := by
  cases edge with
  | false => rfl
  | true =>
      have escape : readEscape false ('b' :: rest) = some (.look .wordBoundary, rest) := by
        cases rest with
        | nil => rfl
        | cons c later =>
            have other : c ≠ '\x7b' := fun same => unbraced (by rw [same]; rfl)
            simp [readEscape, wordEdge, other]
      exact readAll_cons plain (step_backslash plain escape) (Nat.le_succ _)

theorem head?_quoteChars_append {cs rest : List Char} (unbraced : rest.head? ≠ some '\x7b') :
    (quoteChars cs ++ rest).head? ≠ some '\x7b' := by
  cases cs with
  | nil => exact unbraced
  | cons c cs =>
      cases special : isMeta c with
      | true => simp [quoteChars, special]
      | false =>
          simp only [quoteChars, List.flatMap_cons, special, Bool.false_eq_true, if_false]
          rintro ⟨⟩
          revert special
          decide

theorem joinItems_sequence (es : List Expr) :
    (joinItems .sequence (es.map fun e => { expr := e })).depth ≤ 1 ∧
      (joinItems .sequence (es.map fun e => { expr := e })).expr = .sequence es := by
  have flat : ∀ ds : List Expr, (ds.map fun _ => 0).foldl max 0 = 0 := by
    intro ds
    induction ds with
    | nil => rfl
    | cons d ds ih => exact ih
  match es with
  | [] => exact ⟨Nat.zero_le _, rfl⟩
  | [e] => exact ⟨Nat.zero_le _, rfl⟩
  | e :: e' :: es =>
      simp only [joinItems, List.map_cons, List.map_map, Function.comp_def, List.map_id', and_true]
      exact Nat.le_of_eq (congrArg (· + 1) (flat (e :: e' :: es)))

/-- Expressions that were read one after the other are one sequence. -/
theorem finish_addAll (es : List Expr) :
    ∃ item, (addAll { here := { flags := {} } } es).finish = some item ∧
      item.depth ≤ maxDepth ∧ item.expr = .sequence es := by
  have items : (addAll { here := { flags := {} } } es).here.alternative =
      joinItems .sequence (es.map fun e => { expr := e }) := by
    simp [addAll, OpenGroup.alternative]
  obtain ⟨shallow, expr⟩ := joinItems_sequence es
  rw [← items] at shallow expr
  exact ⟨_, rfl, Nat.le_trans shallow (by decide), expr⟩

theorem readAll_nil (r : Reading) (plain : r.here.flags.verbose = false) :
    r.readAll [] = r.finish := by
  rw [readAll, plain]
  rfl

end Reading

/-- The notation for a name as a whole word stands for the name as a whole word. -/
theorem denotes_wordChars (name : List Char) :
    Denotes (String.ofList (Pattern.wordChars name)) (Pattern.wordExpr name) := by
  have mark : ∀ edge : Bool,
      (if edge then ['\\', 'b'] else [] : List Char).head? ≠ some '\x7b' := by decide
  obtain ⟨item, finished, shallow, expr⟩ := Reading.finish_addAll
    (wordParts (Pattern.needsEdge name.head?) (Pattern.needsEdge name.getLast?) name)
  refine ⟨item, ?_, shallow, expr⟩
  rw [wordParts, Reading.addAll_append, Reading.addAll_append] at finished
  rw [String.toList_ofList, Pattern.wordChars, List.append_assoc,
    Reading.readAll_edge rfl _ _ (Reading.head?_quoteChars_append (mark _)),
    Reading.readAll_quoteChars rfl rfl, ← finished, ← Reading.readAll_nil _ rfl]
  simpa using Reading.readAll_edge rfl (Pattern.needsEdge name.getLast?) [] (by simp)

end DumpRules.Regex
