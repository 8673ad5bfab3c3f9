import DumpRules.Regex.CharSet

/-!
Search expressions with their order of preference. Where several matches start at one place, an
expression prefers one of them: the earlier of two alternatives, one more round of a greedy loop, no
further round of a lazy one. `Expr` states that order by the order of its parts, and nothing in it
refers to concrete notation.
-/

namespace DumpRules.Regex

set_option autoImplicit false

/-- A condition on the place between two characters. -/
inductive Look where
  | textStart
  | textEnd
  | lineStart
  | lineEnd
  | wordBoundary
  | notWordBoundary
  | wordStart
  | wordEnd
  | wordStartHalf
  | wordEndHalf
deriving DecidableEq

/-- Whether there is a character and it is a word character. -/
def isWordAt (c : Option Char) : Bool :=
  c.any Text.isWordChar

/-- Whether the condition holds between the characters `before` and `after`, of which either may be
missing at an end of the text. -/
def Look.holds (before after : Option Char) : Look → Bool
  | textStart => before.isNone
  | textEnd => after.isNone
  | lineStart => before.all (· == '\n')
  | lineEnd => after.all (· == '\n')
  | wordBoundary => isWordAt before != isWordAt after
  | notWordBoundary => isWordAt before == isWordAt after
  | wordStart => !isWordAt before && isWordAt after
  | wordEnd => isWordAt before && !isWordAt after
  | wordStartHalf => !isWordAt before
  | wordEndHalf => !isWordAt after

/-- A search expression. -/
inductive Expr where
  | empty
  | set (s : CharSet)
  | look (l : Look)
  | seq (first second : Expr)
  /-- Either part, the first preferred. -/
  | alt (first second : Expr)
  /-- Any number of further rounds of a body that has been through one. -/
  | loop (body : Expr) (greedy : Bool)
  | times (body : Expr) (count : Nat)
  | upTo (body : Expr) (count : Nat) (greedy : Bool)
deriving DecidableEq

namespace Expr

/-- The expression for one given character. -/
def char (c : Char) : Expr :=
  set (.single c)

/-- Expressions one after the other. -/
def sequence : List Expr → Expr
  | [] => empty
  | [e] => e
  | e :: rest => seq e (sequence rest)

/-- Alternatives in order of preference. -/
def choice : List Expr → Expr
  | [] => empty
  | [e] => e
  | e :: rest => alt e (choice rest)

/-- An expression or nothing; a greedy one prefers the expression. -/
def optional (e : Expr) (greedy : Bool) : Expr :=
  if greedy then alt e empty else alt empty e

/-- One round or more. -/
def oneOrMore (e : Expr) (greedy : Bool) : Expr :=
  seq e (loop e greedy)

/-- From `least` to `most` rounds, without limit when `most` is missing. -/
def repeated (e : Expr) (least : Nat) (most : Option Nat) (greedy : Bool) : Expr :=
  match most with
  | some m => seq (times e least) (upTo e (m - least) greedy)
  | none =>
    if least = 0 then optional (oneOrMore e greedy) greedy
    else seq (times e (least - 1)) (oneOrMore e greedy)

/-- How many simple steps an expression has once its counted repetitions are written out. -/
def weight : Expr → Nat
  | empty => 1
  | set _ => 1
  | look _ => 1
  | seq a b => a.weight + b.weight + 1
  | alt a b => a.weight + b.weight + 1
  | loop e _ => e.weight + 2
  | times e n => n * (e.weight + 1) + 1
  | upTo e n _ => n * (e.weight + 1) + 1

/-- How many states a machine for the expression has, with loops sharing those of their body. -/
def states : Expr → Nat
  | empty => 1
  | set _ => 1
  | look _ => 1
  | seq a b => a.states + b.states
  | alt a b => a.states + b.states + 2
  | loop _ _ => 1
  | times e n => n * e.states
  | upTo e n _ => n * (e.states + 1) + 1

end Expr

end DumpRules.Regex
