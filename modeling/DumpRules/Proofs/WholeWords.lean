import DumpRules.Proofs.Regex.Quoting
import DumpRules.Proofs.Regex.Straight
import DumpRules.Proofs.RoundTrip
import Mathlib.Tactic.FinCases

/-!
# Names are counted as whole words

The pattern of a name is an expression that is run by the search for any expression; `wholeCount` is
the scan that one would write by hand for names. It goes through the text once, compares letter by
letter and looks at one character on either side. The pattern of a name is straight, so there is at
most one match at a place and its length is that of the name (`matchLength?_wordExpr`); that the
two scans agree is then a matter of the characters at the ends of an identifier (`Wordlike`).
-/

namespace DumpRules

set_option autoImplicit false

open Grammar Regex

/-! ## The direct scan -/

/-- Whether a name ends in a letter, a digit or an underscore. -/
def endsInWord (name : List Char) : Bool :=
  name.getLast?.any fun c => c.isAlphanum || c == '_'

/-- Whether a name stands between `before` and `text` with no word character before it, and, if it
ends like a word itself, none behind it. -/
def standsAt (name : List Char) (before : Option Char) (text : List Char) : Bool :=
  name.isPrefixOf text && !before.any Text.isWordChar &&
    (!endsInWord name || !(text.drop name.length).head?.any Text.isWordChar)

/-- The number of places where a name stands, from the left: behind an occurrence the scan goes on
after it, and otherwise with the next character. -/
def wholeCount (name : List Char) (before : Option Char) (text : List Char) : Nat :=
  match text with
  | [] => 0
  | c :: later =>
    if standsAt name before (c :: later) then
      1 + wholeCount name name.getLast? (later.drop (name.length - 1))
    else wholeCount name (some c) later
termination_by text.length

theorem prefix_of_standsAt {name : List Char} {before : Option Char} {text : List Char}
    (stands : standsAt name before text = true) : name <+: text := by
  simp only [standsAt, Bool.and_eq_true] at stands
  exact List.isPrefixOf_iff_prefix.1 stands.1.1

theorem standsAt_nil {name : List Char} (filled : name ≠ []) (before : Option Char) :
    standsAt name before [] = false := by
  obtain ⟨c, rest, rfl⟩ := List.exists_cons_of_ne_nil filled
  rfl

theorem wholeCount_nil (name : List Char) (before : Option Char) :
    wholeCount name before [] = 0 := by
  rw [wholeCount]

theorem wholeCount_of_stands {name : List Char} {before : Option Char} {c : Char}
    {later : List Char} (stands : standsAt name before (c :: later) = true) :
    wholeCount name before (c :: later) =
      1 + wholeCount name name.getLast? (later.drop (name.length - 1)) := by
  rw [wholeCount, if_pos stands]

theorem wholeCount_of_misses {name : List Char} {before : Option Char} {c : Char}
    {later : List Char} (misses : ¬standsAt name before (c :: later) = true) :
    wholeCount name before (c :: later) = wholeCount name (some c) later := by
  rw [wholeCount, if_neg misses]

/-! ## The one match at a place -/

theorem forall_mem_wordParts {P : Expr → Prop} (edge : P (.look .wordBoundary))
    (char : ∀ c, P (.char c)) (start stop : Bool) (name : List Char) :
    ∀ e ∈ wordParts start stop name, P e := by
  have side : ∀ asked : Bool, ∀ e ∈ edgePart asked, P e := by
    intro asked e member
    cases asked with
    | false => exact absurd member List.not_mem_nil
    | true => exact List.mem_singleton.1 member ▸ edge
  simp only [wordParts, List.forall_mem_append, List.forall_mem_map]
  exact ⟨⟨side start, fun c _ => char c⟩, side stop⟩

theorem straight_wordExpr (name : List Char) : (Pattern.wordExpr name).Straight := by
  rw [wordExpr_eq]
  exact Expr.straight_sequence (forall_mem_wordParts trivial (fun _ => trivial) _ _ name)

theorem states_wordExpr_le {name : List Char} (filled : name ≠ []) :
    (Pattern.wordExpr name).states ≤ name.length + 2 := by
  have side : ∀ asked : Bool, (edgePart asked).length ≤ 1 := by decide
  have start := side (Pattern.needsEdge name.head?)
  have stop := side (Pattern.needsEdge name.getLast?)
  rw [wordExpr_eq, Expr.states_sequence (by simp [wordParts, filled])
    (forall_mem_wordParts (P := fun e => e.states = 1) rfl (fun _ => rfl) _ _ name)]
  simp only [wordParts, List.length_append, List.length_map]
  omega

/-- Whether there is an edge of a word at a place, where one is asked for. -/
def edgeFits (edge : Bool) (before after : Option Char) : Bool :=
  !edge || Look.wordBoundary.holds before after

theorem follow_edge (edge : Bool) (before : Option Char) (steps : List Step) (text : List Char) :
    follow before ((edgePart edge).flatMap Expr.steps ++ steps) text =
      if edgeFits edge before text.head? then follow before steps text else none := by
  cases edge <;> rfl

theorem follow_chars (name : List Char) (before : Option Char) (steps : List Step)
    (text : List Char) :
    follow before (name.map (fun c => .ask (.single c)) ++ steps) text =
      if name.isPrefixOf text then
        (follow (name.getLast?.or before) steps (text.drop name.length)).map (· + name.length)
      else none := by
  induction name generalizing before text with
  | nil => simp
  | cons c name ih =>
      cases text with
      | nil => rfl
      | cons d text =>
          have last : (c :: name).getLast?.or before = name.getLast?.or (some c) := by
            cases name with
            | nil => rfl
            | cons d name =>
                rw [List.getLast?_cons_cons,
                  List.getLast?_eq_some_getLast (List.cons_ne_nil d name)]
                rfl
          simp only [List.map_cons, List.cons_append, follow, CharSet.contains_single, ih, last,
            List.isPrefixOf_cons_cons, List.length_cons, List.drop_succ_cons]
          by_cases same : d = c
          · subst same
            by_cases front : name.isPrefixOf text = true
            · simp [front, Option.map_map, Function.comp_def, Nat.add_assoc]
            · simp [front]
          · have other : (c == d) = false := beq_false_of_ne (Ne.symm same)
            simp [same, other]

/-- The pattern of a name matches at a place iff the name stands there between the edges that it
asks for, and then it takes the name. -/
theorem matchLength?_wordExpr {name : List Char} (filled : name ≠ []) (before : Option Char)
    (text : List Char) :
    matchLength? (Pattern.wordExpr name) before text =
      if edgeFits (Pattern.needsEdge name.head?) before text.head? && name.isPrefixOf text &&
          edgeFits (Pattern.needsEdge name.getLast?) name.getLast? (text.drop name.length).head?
      then some name.length else none := by
  have chars : (name.map Expr.char).flatMap Expr.steps = name.map fun c => .ask (.single c) := by
    rw [List.flatMap_map, List.map_eq_flatMap]
    rfl
  have steps : (Pattern.wordExpr name).steps =
      (edgePart (Pattern.needsEdge name.head?)).flatMap Expr.steps ++
        (name.map (fun c => .ask (.single c)) ++
          ((edgePart (Pattern.needsEdge name.getLast?)).flatMap Expr.steps ++ [])) := by
    rw [wordExpr_eq, Expr.steps_sequence, wordParts, List.flatMap_append, List.flatMap_append,
      chars, List.append_nil, List.append_assoc]
  have last : name.getLast?.or before = name.getLast? := by
    simp [List.getLast?_eq_some_getLast filled]
  rw [matchLength?_straight (straight_wordExpr name), steps, follow_edge, follow_chars, follow_edge,
    last, follow]
  generalize edgeFits _ before _ = start
  generalize edgeFits _ name.getLast? _ = stop
  cases start <;> cases stop <;> cases name.isPrefixOf text <;> simp

/-! ## One place of a search -/

theorem countFrom_nil {e : Expr} {before : Option Char}
    (unmatched : matchLength? e before [] = none) (seam : Bool) :
    countFrom e before [] seam = 0 := by
  rw [countFrom.eq_def, unmatched]

theorem countFrom_cons {e : Expr} {before : Option Char} {c : Char} {later : List Char}
    (unmatched : matchLength? e before (c :: later) = none) (seam : Bool) :
    countFrom e before (c :: later) seam = countFrom e (some c) later false := by
  rw [countFrom.eq_def, unmatched]

/-- Behind a match of some text, the search goes on with what follows that text. -/
theorem countFrom_of_some {e : Expr} {before : Option Char} {name tail : List Char}
    (filled : name ≠ []) (found : matchLength? e before (name ++ tail) = some name.length)
    (seam : Bool) :
    countFrom e before (name ++ tail) seam = 1 + countFrom e name.getLast? tail true := by
  obtain ⟨body, last, rfl⟩ := (List.eq_nil_or_concat' name).resolve_left filled
  have length : (body ++ [last]).length = body.length + 1 := by simp
  have behind : (body ++ [last] ++ tail).drop body.length = last :: tail := by
    rw [List.append_assoc, List.drop_left]
    rfl
  rw [countFrom.eq_def, found, length, List.getLast?_concat]
  simp only
  split
  · rename_i past
    cases behind.symm.trans past
  · rename_i inside
    cases behind.symm.trans inside
    rfl

/-! ## Identifiers -/

/-- What tells an identifier from other names: it starts like a word, an edge is asked for at its
end just if it ends like a word, and it keeps to one line. -/
structure Wordlike (name : List Char) : Prop where
  filled : name ≠ []
  starts : isWordAt name.head? = true
  startEdge : Pattern.needsEdge name.head? = true
  endEdge : Pattern.needsEdge name.getLast? = endsInWord name
  ends : endsInWord name = true → isWordAt name.getLast? = true
  line : '\n' ∉ name

theorem isAlphanum_of_nodeFirst {c : Char} (first : NodeFirst c) :
    (c.isAlphanum || c == '_') = true := by
  rcases first with letter | rfl
  · simp [Char.isAlphanum, (isAlpha_iff c).2 letter]
  · rfl

/-- The characters of an identifier are those that the two notions of a word agree on. -/
theorem needsEdge_of_nodeLater {c : Char} (later : NodeLater c) :
    Pattern.needsEdge (some c) = (c.isAlphanum || c == '_') := by
  have ascii : ∀ d : Char, d.isAlphanum = true → Pattern.needsEdge (some d) = true := by
    intro d alphanum
    simp [Pattern.needsEdge, Text.isAlphanumeric_of_isAlphanum alphanum]
  rcases later with letter | digit | other
  · have alphanum : c.isAlphanum = true := by simp [Char.isAlphanum, (isAlpha_iff c).2 letter]
    rw [ascii c alphanum, alphanum, Bool.true_or]
  · have alphanum : c.isAlphanum = true := by simp [Char.isAlphanum, (isDigit_iff c).2 digit]
    rw [ascii c alphanum, alphanum, Bool.true_or]
  · fin_cases other <;> rfl

theorem isWordChar_of_alphanum {c : Char} (alphanum : (c.isAlphanum || c == '_') = true) :
    Text.isWordChar c = true := by
  simp only [Text.isWordChar, alphanum, Bool.true_or]

theorem nodeLater_of_nodeFirst {c : Char} (first : NodeFirst c) : NodeLater c := by
  rcases first with letter | rfl
  · exact .inl letter
  · decide

theorem IsIdent.wordlike {node : String} (ident : IsIdent node) : Wordlike node.toList := by
  obtain ⟨c, cs, text, first, later⟩ := ident
  have all : ∀ x ∈ c :: cs, NodeLater x :=
    List.forall_mem_cons.2 ⟨nodeLater_of_nodeFirst first, later⟩
  have start := isAlphanum_of_nodeFirst first
  have last : ∀ x, (c :: cs).getLast? = some x → NodeLater x :=
    fun x found => all x (List.mem_of_getLast? found)
  rw [text]
  constructor
  case filled => exact List.cons_ne_nil c cs
  case starts => exact isWordChar_of_alphanum start
  case startEdge => exact (needsEdge_of_nodeLater (all c List.mem_cons_self)).trans start
  case endEdge =>
    rw [endsInWord]
    rw [List.getLast?_eq_some_getLast (List.cons_ne_nil c cs)] at last ⊢
    exact needsEdge_of_nodeLater (last _ rfl)
  case ends =>
    rw [endsInWord, isWordAt, List.getLast?_eq_some_getLast (List.cons_ne_nil c cs)]
    exact isWordChar_of_alphanum
  case line => exact fun member => absurd (all _ member) (by decide)

/-! ## The two scans -/

theorem edgeFits_of_isWordAt_before {before : Option Char} (word : isWordAt before = true)
    (edge : Bool) (after : Option Char) :
    edgeFits edge before after = (!edge || !isWordAt after) := by
  simp [edgeFits, Look.holds, word]

theorem edgeFits_of_isWordAt_after {after : Option Char} (word : isWordAt after = true)
    (edge : Bool) (before : Option Char) :
    edgeFits edge before after = (!edge || !isWordAt before) := by
  simp [edgeFits, Look.holds, word]

/-- The pattern of an identifier matches just where the identifier stands as a whole word. -/
theorem Wordlike.matchLength? {name : List Char} (word : Wordlike name) (before : Option Char)
    (text : List Char) :
    Regex.matchLength? (Pattern.wordExpr name) before text =
      if standsAt name before text then some name.length else none := by
  rw [matchLength?_wordExpr word.filled]
  congr 2
  cases found : name.isPrefixOf text with
  | false => simp [standsAt, found]
  | true =>
      obtain ⟨tail, rfl⟩ := List.isPrefixOf_iff_prefix.1 found
      have first : (name ++ tail).head? = name.head? := by
        rw [List.head?_append_of_ne_nil name word.filled]
      have ending : edgeFits (Pattern.needsEdge name.getLast?) name.getLast? tail.head? =
          (!endsInWord name || !isWordAt tail.head?) := by
        rw [word.endEdge]
        cases ends : endsInWord name with
        | false => rfl
        | true => exact edgeFits_of_isWordAt_before (word.ends ends) true tail.head?
      rw [first, word.startEdge, edgeFits_of_isWordAt_after word.starts, List.drop_left, ending]
      simp [standsAt, found, isWordAt]

/-- The search for the pattern of an identifier is the direct scan, whether or not there is a match
just before. -/
theorem Wordlike.countFrom {name : List Char} (word : Wordlike name) (before : Option Char)
    (text : List Char) (seam : Bool) :
    Regex.countFrom (Pattern.wordExpr name) before text seam = wholeCount name before text := by
  induction before, text using wholeCount.induct name generalizing seam with
  | case1 before =>
      have unmatched : Regex.matchLength? (Pattern.wordExpr name) before [] = none := by
        simp [word.matchLength?, standsAt_nil word.filled]
      rw [wholeCount_nil, countFrom_nil unmatched]
  | case2 before c later stands ih =>
      have found : Regex.matchLength? (Pattern.wordExpr name) before (c :: later) =
          some name.length := by rw [word.matchLength?, if_pos stands]
      obtain ⟨tail, text⟩ := prefix_of_standsAt stands
      have onward : later.drop (name.length - 1) = tail := by
        rw [← List.drop_succ_cons (a := c), ← text,
          Nat.sub_add_cancel (List.length_pos_iff.2 word.filled), List.drop_left]
      rw [wholeCount_of_stands stands, ← ih true, onward]
      rw [← text] at found ⊢
      exact countFrom_of_some word.filled found seam
  | case3 before c later misses ih =>
      have unmatched : Regex.matchLength? (Pattern.wordExpr name) before (c :: later) = none := by
        rw [word.matchLength?, if_neg misses]
      rw [wholeCount_of_misses misses, ← ih false, countFrom_cons unmatched]

/-! ## Default patterns -/

/-- A pattern that stands for a name as a whole word. -/
structure Pattern.Whole (p : Pattern) (name : List Char) : Prop where
  /-- Each character of the name stands for itself, between edges of words. -/
  literal : p.expr = .sequence (wordParts true (endsInWord name) name)
  /-- The notation of the pattern is read as just that. -/
  read : Regex.Denotes p.source p.expr
  accepted : name.length + 2 ≤ maxStates → Regex.parse? p.source = some p.expr
  counts : ∀ text : String, p.count text = wholeCount name none text.toList

/-- **A default pattern counts a name as a whole word.** The default pattern of an identifier is
made of its characters, whatever they mean in a pattern, and counts it where it stands as a whole
word. `counts` is about the expression, of whatever size; reading its notation with `Regex.parse?` gives
that expression only up to the limit on sizes, as `accepted` says, and a name beyond the limit has a
pattern that counts though its notation is not accepted. -/
theorem word_whole {name : String} (ident : IsIdent name) :
    (Pattern.word name).Whole name.toList := by
  have word := ident.wordlike
  have literal : (Pattern.word name).expr =
      .sequence (wordParts true (endsInWord name.toList) name.toList) := by
    rw [Pattern.word, wordExpr_eq, word.startEdge, word.endEdge]
  have read : Regex.Denotes (Pattern.word name).source (Pattern.word name).expr :=
    denotes_wordChars name.toList
  refine ⟨literal, read, ?_, fun text => word.countFrom none text.toList false⟩
  intro short
  have fits := (states_wordExpr_le word.filled).trans short
  rw [read.parse?]
  exact if_pos fits

theorem isIdent_dotted : IsIdent "a.a" := by
  refine ⟨'a', ['.', 'a'], by decide, by decide, ?_⟩
  rw [List.forall_mem_cons, List.forall_mem_singleton]
  exact ⟨by decide, by decide⟩

/-- A dot is a dot, word characters are those of any script, and a place that is passed over may
reach into one that counts. -/
theorem word_whole_dotted :
    IsIdent "a.a" ∧ (Pattern.word "a.a").count "xa.a.a a.a.a axa éa.a a.aé" = 2 := by
  refine ⟨isIdent_dotted, ?_⟩
  rw [(word_whole isIdent_dotted).counts]
  decide +kernel

end DumpRules
