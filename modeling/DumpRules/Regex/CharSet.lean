import DumpRules.Text.Blank
import DumpRules.Text.Folding
import DumpRules.Text.WordChar

/-!
Sets of characters as patterns write them: intervals, the classes of digits, white space and word
characters, the operations of a bracket expression, and closure under letter case. A set is kept as
it was built and membership is decided from its parts.
-/

namespace DumpRules.Regex

set_option autoImplicit false

/-- A set of characters. -/
inductive CharSet where
  | empty
  | range (low high : Char)
  | digit
  | space
  | word
  | union (a b : CharSet)
  | inter (a b : CharSet)
  | diff (a b : CharSet)
  | symmDiff (a b : CharSet)
  | compl (a : CharSet)
  /-- The characters of `a` and those that differ from one of them in letter case only. -/
  | anyCase (a : CharSet)
deriving DecidableEq

namespace CharSet

/-- Whether a set holds a character. -/
def contains : CharSet → Char → Bool
  | empty, _ => false
  | range low high, c => low.toNat ≤ c.toNat && c.toNat ≤ high.toNat
  | digit, c => Text.isDecimal c
  | space, c => Text.isBlank c
  | word, c => Text.isWordChar c
  | union a b, c => a.contains c || b.contains c
  | inter a b, c => a.contains c && b.contains c
  | diff a b, c => a.contains c && !b.contains c
  | symmDiff a b, c => a.contains c != b.contains c
  | compl a, c => !a.contains c
  | anyCase a, c => (Text.caseVariants c).any a.contains

/-- The set of one character. -/
def single (c : Char) : CharSet :=
  range c c

/-- Every character. -/
def all : CharSet :=
  compl empty

/-- Every character but the end of a line. -/
def notNewline : CharSet :=
  compl (single '\n')

/-- The union of a list of sets. -/
def unions : List CharSet → CharSet
  | [] => empty
  | [a] => a
  | a :: rest => union a (unions rest)

@[simp] theorem contains_single (c d : Char) : (single c).contains d = (d == c) := by
  have h : (d == c) = decide (d.toNat = c.toNat) := by
    rw [Bool.eq_iff_iff]; simp [← Char.toNat_inj]
  rw [h]
  simp only [single, contains]
  by_cases e : d.toNat = c.toNat
  · simp [e]
  · simp [e]
    omega

end CharSet

/-- The named classes that may stand between `[:` and `:]`, all of ASCII characters. -/
def namedClass? (name : String) : Option CharSet :=
  let digits := CharSet.range '0' '9'
  let lower := CharSet.range 'a' 'z'
  let upper := CharSet.range 'A' 'Z'
  match name with
  | "alnum" => some (.unions [digits, upper, lower])
  | "alpha" => some (.union upper lower)
  | "ascii" => some (.range '\x00' '\x7f')
  | "blank" => some (.union (.single '\t') (.single ' '))
  | "cntrl" => some (.union (.range '\x00' '\x1f') (.single '\x7f'))
  | "digit" => some digits
  | "graph" => some (.range '!' '~')
  | "lower" => some lower
  | "print" => some (.range ' ' '~')
  | "punct" => some (.unions [.range '!' '/', .range ':' '@', .range '[' '\x60', .range '\x7b' '~'])
  | "space" => some (.union (.range '\t' '\r') (.single ' '))
  | "upper" => some upper
  | "word" => some (.unions [digits, upper, .single '_', lower])
  | "xdigit" => some (.unions [digits, .range 'A' 'F', .range 'a' 'f'])
  | _ => none

end DumpRules.Regex
