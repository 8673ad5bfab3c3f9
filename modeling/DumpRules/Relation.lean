import DumpRules.Text.Decimal

/-!
Relations between the number of occurrences of a node and a bound, such as `>= 1`.
-/

namespace DumpRules

set_option autoImplicit false

/-- A way to compare a count with a bound. -/
inductive Comparator where
  | eq
  | ne
  | lt
  | le
  | gt
  | ge
deriving DecidableEq

namespace Comparator

/-- The sign by which a comparator is written. -/
def symbol : Comparator → String
  | eq => "="
  | ne => "!="
  | lt => "<"
  | le => "<="
  | gt => ">"
  | ge => ">="

/-- The comparator of a sign, or of its two-letter name in any letter case. -/
def ofToken? (token : String) : Option Comparator :=
  match token with
  | "=" | "==" => some eq
  | "!=" => some ne
  | "<" => some lt
  | "<=" => some le
  | ">" => some gt
  | ">=" => some ge
  | _ =>
    match String.ofList (token.toList.map Char.toLower) with
    | "eq" => some eq
    | "ne" => some ne
    | "lt" => some lt
    | "le" => some le
    | "gt" => some gt
    | "ge" => some ge
    | _ => none

/-- Whether a count compares with a bound in this way. -/
def holds (c : Comparator) (count bound : Nat) : Bool :=
  match c with
  | eq => count == bound
  | ne => count != bound
  | lt => decide (count < bound)
  | le => decide (count ≤ bound)
  | gt => decide (count > bound)
  | ge => decide (count ≥ bound)

@[simp] theorem ofToken?_symbol (c : Comparator) : ofToken? c.symbol = some c := by
  cases c <;> rfl

end Comparator

/-- A comparator with its bound. -/
structure Relation where
  comparator : Comparator
  bound : UInt64
deriving DecidableEq

namespace Relation

/-- Whether a count satisfies the relation. -/
def holds (r : Relation) (count : Nat) : Bool :=
  r.comparator.holds count r.bound.toNat

/-- A relation as it is written in reports, without a space. -/
def text (r : Relation) : String :=
  r.comparator.symbol ++ toString r.bound.toNat

end Relation

end DumpRules
