import DumpRules.Dumps
import DumpRules.Proofs.WholeWords

/-!
# Counts add up over repeated dumps

The texts of a phase are joined by line breaks, and no identifier reaches across one: the scan of a
text comes to a line break as it would come to the end, and leaves it as it would start
(`wholeCount_append_newline`). So the default pattern of an identifier is `Seamless`, and whatever a
sequence of dumps does to other phases in between, the count in a phase is the sum of the counts in
its own texts (`counts_add_up`).
-/

namespace DumpRules

set_option autoImplicit false

/-! ## Scans across a line break -/

theorem not_isWordChar_newline : Text.isWordChar '\n' = false := by decide +kernel

theorem prefix_of_prefix_append_newline {name first second : List Char} (line : '\n' ∉ name)
    (found : name <+: first ++ '\n' :: second) : name <+: first := by
  rcases List.prefix_or_prefix_of_prefix found (List.prefix_append first _) with inside | beyond
  · exact inside
  · obtain ⟨more, rfl⟩ := beyond
    cases more with
    | nil => simp
    | cons c more =>
        have next := (List.prefix_append_right_inj first).1 found
        obtain ⟨rfl, -⟩ := List.cons_prefix_cons.1 next
        exact absurd (by simp) line

/-- A name that keeps to one line stands before a line break just where it stands before the end. -/
theorem standsAt_append_newline {name : List Char} (line : '\n' ∉ name) (before : Option Char)
    (first second : List Char) :
    standsAt name before (first ++ '\n' :: second) = standsAt name before first := by
  have front : name.isPrefixOf (first ++ '\n' :: second) = name.isPrefixOf first := by
    rw [Bool.eq_iff_iff, List.isPrefixOf_iff_prefix, List.isPrefixOf_iff_prefix]
    exact ⟨prefix_of_prefix_append_newline line,
      fun inside => inside.trans (List.prefix_append first _)⟩
  cases found : name.isPrefixOf first with
  | false => simp [standsAt, front, found]
  | true =>
      obtain ⟨tail, rfl⟩ := List.isPrefixOf_iff_prefix.1 found
      have behind : (tail ++ '\n' :: second).head?.any Text.isWordChar =
          tail.head?.any Text.isWordChar := by
        cases tail with
        | nil => exact not_isWordChar_newline
        | cons => rfl
      rw [standsAt, standsAt, front, List.append_assoc, List.drop_left, List.drop_left, behind]

theorem wholeCount_behind (name : List Char) {c : Char} (other : Text.isWordChar c = false)
    (text : List Char) : wholeCount name (some c) text = wholeCount name none text := by
  have same : standsAt name (some c) text = standsAt name none text := by
    rw [standsAt, standsAt, Option.any_some, other, Option.any_none]
  cases text with
  | nil => rw [wholeCount_nil, wholeCount_nil]
  | cons d later =>
      by_cases stands : standsAt name none (d :: later) = true
      · rw [wholeCount_of_stands (same.trans stands), wholeCount_of_stands stands]
      · rw [wholeCount_of_misses (same ▸ stands), wholeCount_of_misses stands]

/-- Whatever the scan makes of the text before a line break, it starts anew behind it. -/
theorem wholeCount_append_newline {name : List Char} (filled : name ≠ []) (line : '\n' ∉ name)
    (before : Option Char) (first second : List Char) :
    wholeCount name before (first ++ '\n' :: second) =
      wholeCount name before first + wholeCount name none second := by
  have across := fun before text => standsAt_append_newline line before text second
  induction before, first using wholeCount.induct name with
  | case1 before =>
      have misses : ¬standsAt name before ('\n' :: second) = true :=
        (across before []).trans (standsAt_nil filled before) ▸ Bool.false_ne_true
      rw [List.nil_append, wholeCount_of_misses misses, wholeCount_nil, Nat.zero_add,
        wholeCount_behind name not_isWordChar_newline]
  | case2 before c later stands ih =>
      have room : name.length - 1 ≤ later.length := by
        have := (prefix_of_standsAt stands).length_le
        rw [List.length_cons] at this
        omega
      have joined := (across before (c :: later)).trans stands
      rw [List.cons_append] at joined ⊢
      rw [wholeCount_of_stands joined, List.drop_append_of_le_length room, ih,
        wholeCount_of_stands stands, Nat.add_assoc]
  | case3 before c later misses ih =>
      have joined := (across before (c :: later)).symm ▸ misses
      rw [List.cons_append] at joined ⊢
      rw [wholeCount_of_misses joined, ih, wholeCount_of_misses misses]

/-! ## Joined texts -/

/-- A pattern of which joining texts neither makes nor breaks an occurrence. -/
def Pattern.Seamless (pattern : Pattern) : Prop :=
  ∀ first second : String,
    pattern.count (Dumps.join first second) = pattern.count first + pattern.count second

theorem seamless_word {name : String} (ident : IsIdent name) : (Pattern.word name).Seamless := by
  have word := ident.wordlike
  have counts : ∀ text : String, (Pattern.word name).count text =
      wholeCount name.toList none text.toList := fun text => word.countFrom none text.toList false
  have broken := wholeCount_append_newline word.filled word.line none
  intro first second
  rw [counts, counts, counts, Dumps.join]
  split
  · rename_i ended
    obtain ⟨body, lines⟩ := List.getLast?_eq_some_iff.1 ended
    rw [String.toList_append, lines, List.append_assoc, List.singleton_append, broken, broken,
      wholeCount_nil, Nat.add_zero]
  · rw [String.toList_append, String.toList_append, List.append_assoc]
    exact broken first.toList second.toList

/-! ## Sequences of dumps -/

namespace Dumps

/-- The text of a phase once one more has come. -/
def grow : Option String → String → Option String
  | none, text => some text
  | some old, text => some (join old text)

/-- The texts that a sequence has for a phase, in order. -/
def textsFor (p : Phase) (texts : List (Phase × String)) : List String :=
  texts.filterMap fun entry => if entry.1 = p then some entry.2 else none

theorem text?_insert (d : Dumps) (phase p : Phase) (text : String) :
    (d.insert phase text).text? p =
      if phase = p then grow (d.text? p) text else d.text? p := by
  by_cases same : phase = p
  · subst same
    rw [if_pos rfl]
    cases known : d.text? phase with
    | none => rw [d.text?_insert_of_eq_none text known, grow]
    | some old => rw [d.text?_insert_of_eq_some text known, grow]
  · rw [if_neg same, d.text?_insert_of_ne text (Ne.symm same)]

/-- A phase has the texts that were meant for it, whatever came in between. -/
theorem text?_insertAll (d : Dumps) (texts : List (Phase × String)) (p : Phase) :
    (d.insertAll texts).text? p = (textsFor p texts).foldl grow (d.text? p) := by
  induction texts generalizing d with
  | nil => rfl
  | cons entry later ih =>
      obtain ⟨phase, text⟩ := entry
      have step : d.insertAll ((phase, text) :: later) = (d.insert phase text).insertAll later :=
        rfl
      rw [step, ih, text?_insert]
      by_cases same : phase = p <;> simp [textsFor, same]

end Dumps

/-- Texts that come behind another add their counts to its own. -/
theorem Pattern.Seamless.foldl_grow {pattern : Pattern} (seamless : pattern.Seamless)
    (old : String) (later : List String) :
    ∃ out, later.foldl Dumps.grow (some old) = some out ∧
      pattern.count out = pattern.count old + (later.map pattern.count).sum := by
  induction later generalizing old with
  | nil => exact ⟨old, rfl, rfl⟩
  | cons text later ih =>
      obtain ⟨out, joined, total⟩ := ih (Dumps.join old text)
      refine ⟨out, joined, ?_⟩
      rw [total, seamless, List.map_cons, List.sum_cons, Nat.add_assoc]

theorem Pattern.Seamless.insertAll {pattern : Pattern} (seamless : pattern.Seamless)
    {texts : List (Phase × String)} {p : Phase} (received : Dumps.textsFor p texts ≠ []) :
    ∃ out, (Dumps.empty.insertAll texts).text? p = some out ∧
      pattern.count out = ((Dumps.textsFor p texts).map pattern.count).sum := by
  rw [Dumps.text?_insertAll]
  obtain ⟨text, later, own⟩ := List.exists_cons_of_ne_nil received
  rw [own]
  exact seamless.foldl_grow text later

/-- What a phase has after a sequence of dumps, as far as a pattern goes: the counts of its own
texts together, with regard neither to their order nor to other phases. -/
structure Dumps.AddUp (texts : List (Phase × String)) (p : Phase) (pattern : Pattern)
    (out : String) : Prop where
  dumped : (empty.insertAll texts).text? p = some out
  total : pattern.count out = ((textsFor p texts).map pattern.count).sum
  apart : ∀ others, textsFor p others = textsFor p texts →
    (empty.insertAll others).text? p = some out
  reordered : ∀ others, (textsFor p others).Perm (textsFor p texts) →
    ∃ other, (empty.insertAll others).text? p = some other ∧
      pattern.count other = pattern.count out

/-- **Counts of repeated dumps add up.** The count of an identifier in a phase is the sum of its
counts in the texts that were dumped for the phase. -/
theorem counts_add_up {name : String} (ident : IsIdent name) {texts : List (Phase × String)}
    {p : Phase} {text : String} (received : (p, text) ∈ texts) :
    ∃ out, Dumps.AddUp texts p (Pattern.word name) out := by
  have seamless := seamless_word ident
  have some_text : Dumps.textsFor p texts ≠ [] :=
    List.ne_nil_of_mem (List.mem_filterMap.2 ⟨(p, text), received, if_pos rfl⟩)
  obtain ⟨out, dumped, total⟩ := seamless.insertAll some_text
  refine ⟨out, dumped, total, ?_, ?_⟩
  · intro others same
    rw [← dumped, Dumps.text?_insertAll, Dumps.text?_insertAll, same]
  · intro others perm
    have other_text : Dumps.textsFor p others ≠ [] :=
      fun empty => some_text (List.perm_nil.1 (empty ▸ perm.symm))
    obtain ⟨other, dumped_other, total_other⟩ := seamless.insertAll other_text
    refine ⟨other, dumped_other, ?_⟩
    rw [total, total_other]
    exact (perm.map _).sum_nat

/-- An empty text, one that ends its line, one for another phase in between, and the two halves of a
name. -/
def halvedDumps : List (Phase × String) :=
  [(.ccp1, ""), (.ccp1, "a.a.a\n"), (.finalCode, "a.a"), (.ccp1, "a."), (.ccp1, "a")]

theorem counts_add_up_halves :
    IsIdent "a.a" ∧ (.ccp1, "") ∈ halvedDumps ∧
      ∃ out, Dumps.AddUp halvedDumps .ccp1 (Pattern.word "a.a") out ∧
        (Pattern.word "a.a").count out = 1 := by
  have received : (.ccp1, "") ∈ halvedDumps := List.mem_cons_self
  obtain ⟨out, sums⟩ := counts_add_up isIdent_dotted received
  refine ⟨isIdent_dotted, received, out, sums, ?_⟩
  rw [sums.total]
  decide +kernel

end DumpRules
