import DumpRules.Proofs.RepeatedDumps

/-!
# Names found in themselves

The default pattern of a name asks for the edge of a word beside a letter, a number or an
underscore, and a search then finds such an edge beside a word character. Some numbers are no word
characters: fractions, superscripts, circled digits. A name that starts or ends with one of these
asks for an edge that its own text has not, and is found nowhere in copies of itself; any other name
is found once in each copy (`word_finds_itself`).

In a text of copies the scan has only one place to stand at in each of them. Behind the start of a
copy there is too little left of it for the whole name, and no name that keeps to one line reaches
across a line break (`CopyTail.countFrom_copy`).
-/

namespace DumpRules

set_option autoImplicit false

open Regex

/-! ## Ends without an edge -/

/-- Whether a character is a number that is no part of a word. -/
def Text.isLooseNumber (c : Char) : Bool :=
  Text.isNumber c && !Text.isWordChar c

/-- Whether a name starts or ends with a number that is no part of a word. -/
def hasLooseEnd (name : List Char) : Bool :=
  name.head?.any Text.isLooseNumber || name.getLast?.any Text.isLooseNumber

/-- The loose numbers are all that the two notions of a word character disagree on where an edge is
asked for. -/
theorem needsEdge_imp_isWordAt (end? : Option Char) :
    (!Pattern.needsEdge end? || isWordAt end?) = !end?.any Text.isLooseNumber := by
  cases end? with
  | none => rfl
  | some c =>
      cases word : Text.isWordChar c with
      | true => simp [isWordAt, Text.isLooseNumber, word]
      | false =>
          have outside := word
          simp only [Text.isWordChar, Bool.or_eq_false_iff] at outside
          obtain ⟨⟨⟨⟨⟨⟨ascii, underscore⟩, letter⟩, -⟩, -⟩, -⟩, -⟩ := outside
          simp [Pattern.needsEdge, Text.isAlphanumeric, Text.isLooseNumber, isWordAt, ascii,
            underscore, letter, word]

/-- A name between places where no word goes on is matched unless it has a loose end. -/
theorem matchLength?_copy {name tail : List Char} (filled : name ≠ []) {before : Option Char}
    (start : isWordAt before = false) (stop : isWordAt tail.head? = false) :
    matchLength? (Pattern.wordExpr name) before (name ++ tail) =
      if hasLooseEnd name then none else some name.length := by
  have front : edgeFits (Pattern.needsEdge name.head?) before name.head? =
      !name.head?.any Text.isLooseNumber := by
    rw [← needsEdge_imp_isWordAt, edgeFits, Look.holds, start, Bool.false_bne]
  have back : edgeFits (Pattern.needsEdge name.getLast?) name.getLast? tail.head? =
      !name.getLast?.any Text.isLooseNumber := by
    rw [← needsEdge_imp_isWordAt, edgeFits, Look.holds, stop, Bool.bne_false]
  have own : name.isPrefixOf (name ++ tail) = true :=
    List.isPrefixOf_iff_prefix.2 (List.prefix_append name tail)
  rw [matchLength?_wordExpr filled, List.head?_append_of_ne_nil name filled, List.drop_left, front,
    own, back, hasLooseEnd]
  cases name.head?.any Text.isLooseNumber <;> cases name.getLast?.any Text.isLooseNumber <;> rfl

theorem matchLength?_of_not_prefix {name text : List Char} (filled : name ≠ [])
    (elsewhere : ¬name <+: text) (before : Option Char) :
    matchLength? (Pattern.wordExpr name) before text = none := by
  have missing : name.isPrefixOf text = false :=
    Bool.eq_false_iff.2 (mt List.isPrefixOf_iff_prefix.1 elsewhere)
  simp [matchLength?_wordExpr filled, missing]

/-! ## The scan of one copy -/

/-- What stands behind a copy of a name: no word goes on there, no end of the copy makes the name
together with it, and a scan finds the same number of occurrences in it however it comes there. -/
structure CopyTail (name tail : List Char) (total : Nat) : Prop where
  stop : isWordAt tail.head? = false
  short : ∀ part : List Char, part.length < name.length → ¬name <+: part ++ tail
  onward : ∀ before seam, countFrom (Pattern.wordExpr name) before tail seam = total

/-- Within a copy, behind its start, nothing is found. -/
theorem CopyTail.countFrom_part {name tail : List Char} {total : Nat} (filled : name ≠ [])
    (behind : CopyTail name tail total) {part : List Char} (within : part.length < name.length)
    (before : Option Char) (seam : Bool) :
    countFrom (Pattern.wordExpr name) before (part ++ tail) seam = total := by
  induction part generalizing before seam with
  | nil => exact behind.onward before seam
  | cons c part ih =>
      have unmatched := matchLength?_of_not_prefix filled (behind.short _ within) before
      rw [List.cons_append] at unmatched ⊢
      rw [countFrom_cons unmatched]
      exact ih (Nat.lt_of_succ_lt within) (some c) false

/-- The scan finds a copy at its start or not at all, and comes to what stands behind it. -/
theorem CopyTail.countFrom_copy {name tail : List Char} {total : Nat} (filled : name ≠ [])
    (behind : CopyTail name tail total) {before : Option Char} (start : isWordAt before = false)
    (seam : Bool) :
    countFrom (Pattern.wordExpr name) before (name ++ tail) seam =
      (if hasLooseEnd name then 0 else 1) + total := by
  have found := matchLength?_copy filled start behind.stop
  cases loose : hasLooseEnd name with
  | true =>
      obtain ⟨c, rest, rfl⟩ := List.exists_cons_of_ne_nil filled
      have unmatched := found.trans (if_pos loose)
      rw [List.cons_append] at unmatched ⊢
      rw [countFrom_cons unmatched, behind.countFrom_part filled (Nat.lt_succ_self _), if_pos rfl,
        Nat.zero_add]
  | false =>
      rw [loose] at found
      rw [countFrom_of_some filled found, behind.onward]
      rfl

/-! ## Copies on lines of their own -/

/-- Further copies of a name, each behind a line break. -/
def furtherCopies (name : List Char) (n : Nat) : List Char :=
  (List.replicate n name).flatMap fun copy => '\n' :: copy

theorem furtherCopies_succ (name : List Char) (n : Nat) :
    furtherCopies name (n + 1) = '\n' :: (name ++ furtherCopies name n) := rfl

theorem copyTail_nil {name : List Char} (filled : name ≠ []) : CopyTail name [] 0 := by
  have short : ∀ part : List Char, part.length < name.length → ¬name <+: part ++ [] := by
    intro part within found
    rw [List.append_nil] at found
    exact absurd found.length_le (Nat.not_le.2 within)
  refine ⟨rfl, short, fun before seam => countFrom_nil ?_ seam⟩
  exact matchLength?_of_not_prefix filled (short [] (List.length_pos_iff.2 filled)) before

theorem copyTail_newline {name text : List Char} (filled : name ≠ []) (line : '\n' ∉ name) :
    CopyTail name ('\n' :: text) (countFrom (Pattern.wordExpr name) (some '\n') text false) := by
  have short : ∀ part : List Char, part.length < name.length → ¬name <+: part ++ '\n' :: text := by
    intro part within found
    exact absurd (prefix_of_prefix_append_newline line found).length_le (Nat.not_le.2 within)
  refine ⟨not_isWordChar_newline, short, fun before seam => countFrom_cons ?_ seam⟩
  exact matchLength?_of_not_prefix filled (short [] (List.length_pos_iff.2 filled)) before

/-- Each copy is found or none is. -/
theorem countFrom_copies {name : List Char} (filled : name ≠ []) (line : '\n' ∉ name) (n : Nat)
    {before : Option Char} (start : isWordAt before = false) (seam : Bool) :
    countFrom (Pattern.wordExpr name) before (name ++ furtherCopies name n) seam =
      if hasLooseEnd name then 0 else n + 1 := by
  induction n generalizing before seam with
  | zero =>
      rw [furtherCopies, List.replicate_zero, List.flatMap_nil,
        (copyTail_nil filled).countFrom_copy filled start]
      rfl
  | succ n ih =>
      have anew : isWordAt (some '\n') = false := not_isWordChar_newline
      rw [furtherCopies_succ, (copyTail_newline filled line).countFrom_copy filled start, ih anew]
      split
      · rfl
      · exact Nat.add_comm 1 (n + 1)

/-- The lines of a text, each of them the same name. -/
def copies (name : String) (n : Nat) : String :=
  "\n".intercalate (List.replicate n name)

theorem toList_copies_succ (name : String) (n : Nat) :
    (copies name (n + 1)).toList = name.toList ++ furtherCopies name.toList n := by
  rw [copies, List.replicate_succ, toList_intercalate_cons, furtherCopies, ← List.map_replicate,
    List.flatMap_map]
  rfl

/-- **A name is found in itself, and once in each of its copies on lines of their own, unless it
starts or ends with a number that is no part of a word; then it is found in none of them.** -/
theorem word_finds_itself {name : String} (filled : name ≠ "") :
    (Pattern.word name).count name = (if hasLooseEnd name.toList then 0 else 1) ∧
      ('\n' ∉ name.toList → ∀ n, (Pattern.word name).count (copies name n) =
        if hasLooseEnd name.toList then 0 else n) := by
  have some_char : name.toList ≠ [] := mt String.toList_eq_nil_iff.1 filled
  have start : isWordAt none = false := rfl
  refine ⟨?_, fun line n => ?_⟩
  · have alone := (copyTail_nil some_char).countFrom_copy some_char start false
    rwa [List.append_nil] at alone
  · cases n with
    | zero =>
        rw [ite_self]
        exact (copyTail_nil some_char).onward none false
    | succ n =>
        have found := countFrom_copies some_char line n start false
        rwa [← toList_copies_succ] at found

/-- A fraction within a name is no obstacle, nor are marks and signs at its ends. -/
theorem word_finds_itself_within :
    "\u0301a½-" ≠ "" ∧ '\n' ∉ "\u0301a½-".toList ∧
      (Pattern.word "\u0301a½-").count (copies "\u0301a½-" 3) = 3 := by
  have filled : "\u0301a½-" ≠ "" := by decide
  have line : '\n' ∉ "\u0301a½-".toList := by decide
  refine ⟨filled, line, ((word_finds_itself filled).2 line 3).trans ?_⟩
  decide +kernel

/-- The pattern of a fraction asks for edges of a word, and a fraction is no word. -/
theorem word_misses_fraction : "½" ≠ "" ∧ (Pattern.word "½").count "½" = 0 := by
  refine ⟨by decide, ?_⟩
  decide +kernel

end DumpRules
