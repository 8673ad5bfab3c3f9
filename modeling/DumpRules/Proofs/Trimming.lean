import DumpRules.Text.Blank
import Mathlib.Data.List.DropRight

/-!
# Trimmed texts

What is left of a text without the white space at its ends is the one text that is found in it
between white space and has none at its own ends (`Text.trimChars_eq_iff`).
-/

namespace DumpRules

set_option autoImplicit false

/-- What is dropped at the end of a list is all that may be dropped there, and nothing else. -/
theorem rdropWhile_append {α : Type} {p : α → Bool} {kept dropped : List α}
    (all : ∀ a ∈ dropped, p a = true) (last : ∀ a ∈ kept.getLast?, ¬p a = true) :
    (kept ++ dropped).rdropWhile p = kept := by
  have alone : kept.rdropWhile p = kept := by
    rw [List.rdropWhile_eq_self_iff]
    exact fun filled => last _ (List.getLast?_eq_some_getLast filled)
  rw [List.rdropWhile, List.reverse_append, List.dropWhile_append_of_pos]
  · exact alone
  · exact fun a member => all a (List.mem_reverse.1 member)

namespace Text

/-- A text is another one with white space around it, and that one has none at its ends. -/
structure TrimsTo (text core : List Char) : Prop where
  around : ∃ left right, text = left ++ (core ++ right) ∧
    (∀ c ∈ left, isBlank c = true) ∧ ∀ c ∈ right, isBlank c = true
  first : ∀ c ∈ core.head?, ¬isBlank c = true
  last : ∀ c ∈ core.getLast?, ¬isBlank c = true

theorem trimChars_eq (text : List Char) :
    trimChars text = (text.dropWhile isBlank).rdropWhile isBlank :=
  rfl

theorem trimsTo_trimChars (text : List Char) : TrimsTo text (trimChars text) := by
  rw [trimChars_eq]
  generalize dropped : text.dropWhile isBlank = behind
  constructor
  case around =>
    refine ⟨text.takeWhile isBlank, behind.rtakeWhile isBlank, ?_,
      fun c => List.mem_takeWhile_imp, fun c => List.mem_rtakeWhile_imp⟩
    rw [List.rdropWhile_append_rtakeWhile, ← dropped, List.takeWhile_append_dropWhile]
  case first =>
    intro c first blank
    obtain ⟨rest, split⟩ := List.rdropWhile_prefix isBlank (l := behind)
    have head : (text.dropWhile isBlank).head? = some c := by
      rw [dropped, ← split, List.head?_append, first]
      rfl
    have stopped := List.head?_dropWhile_not isBlank text
    rw [head] at stopped
    exact absurd blank (by simpa using stopped)
  case last =>
    intro c last
    have filled : behind.rdropWhile isBlank ≠ [] := by
      intro empty
      rw [empty] at last
      cases last
    rw [List.getLast?_eq_some_getLast filled, Option.mem_some_iff] at last
    exact last ▸ List.rdropWhile_last_not isBlank behind filled

/-- Trimming finds the one text between white space. -/
theorem trimChars_eq_iff {text core : List Char} :
    trimChars text = core ↔ TrimsTo text core := by
  constructor
  · rintro rfl
    exact trimsTo_trimChars text
  · rintro ⟨⟨left, right, rfl, before, behind⟩, first, last⟩
    rw [trimChars_eq, List.dropWhile_append_of_pos before]
    cases core with
    | nil =>
        -- With nothing in between, the blanks on the right are dropped from the left.
        rw [List.nil_append, List.dropWhile_eq_nil_iff.2 behind, List.rdropWhile_nil]
    | cons c later =>
        rw [List.cons_append, List.dropWhile_cons_of_neg (first c rfl), ← List.cons_append]
        exact rdropWhile_append behind last

end Text

end DumpRules
