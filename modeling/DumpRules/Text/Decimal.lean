/-!
Counts in decimal. Written, a count is its shortest numeral. Read, a numeral is one digit or more,
leading zeros included, of a value below a bound that the reader states; a plus sign before it is
allowed where the reader says so.
-/

namespace DumpRules.Text

set_option autoImplicit false

/-- The value of a digit. -/
def digitValue (c : Char) : Nat :=
  c.toNat - '0'.toNat

/-- The value of a run of digits, continuing a numeral whose value so far is `start`. -/
def digitsValue (start : Nat) (digits : List Char) : Nat :=
  digits.foldl (fun value c => 10 * value + digitValue c) start

/-- The value of a numeral: one digit or more and nothing else. -/
def numeral? (cs : List Char) : Option Nat :=
  if cs ≠ [] ∧ cs.all Char.isDigit then some (digitsValue 0 cs) else none

/-- The value of a numeral that may start with a plus sign. -/
def signedNumeral? : List Char → Option Nat
  | '+' :: cs => numeral? cs
  | cs => numeral? cs

/-- The 64-bit count that a text denotes: a numeral, with or without a plus sign, below `2 ^ 64`. -/
def count64? (cs : List Char) : Option UInt64 :=
  (signedNumeral? cs).bind fun n => if n < UInt64.size then some n.toUInt64 else none

end DumpRules.Text
