import DumpRules.Relation

/-!
Sets of permitted counts in 64 bits. Bit `n` below 63 stands for the count `n`, bit 63 for every
count of 63 or more. Constraints on one node are combined by intersection; since the top bit stands
for many counts at once, two constraints that disagree only beyond 62 keep it.
-/

namespace DumpRules

set_option autoImplicit false

/-- A set of permitted counts, those of 63 and more taken together. -/
structure CountSet where
  bits : UInt64
deriving DecidableEq

namespace CountSet

/-- The bit that stands for all counts from here on. -/
def top : Nat := 63

/-- Every count. -/
def all : CountSet := ⟨0xffffffffffffffff⟩

/-- No count. -/
def empty : CountSet := ⟨0⟩

/-- Whether a count is permitted. -/
def permits (s : CountSet) (count : Nat) : Bool :=
  (s.bits >>> (min count top).toUInt64) &&& 1 == 1

/-- The counts permitted by both sets. -/
def inter (s t : CountSet) : CountSet :=
  ⟨s.bits &&& t.bits⟩

/-- The counts not permitted. -/
def compl (s : CountSet) : CountSet :=
  ⟨~~~s.bits⟩

/-- Whether no count is permitted. -/
def isEmpty (s : CountSet) : Bool :=
  s.bits == 0

/-- Whether a node may be missing altogether. -/
def permitsZero (s : CountSet) : Bool :=
  s.bits &&& 1 == 1

/-- The counts from `low` on. -/
def atLeast (low : Nat) : CountSet :=
  ⟨all.bits <<< (min low top).toUInt64⟩

/-- The counts up to `high`. -/
def atMost (high : Nat) : CountSet :=
  ⟨all.bits >>> (top - min high top).toUInt64⟩

/-- The count `n` alone, or all from 63 on. -/
def exactly (n : Nat) : CountSet :=
  (atMost n).inter (atLeast n)

/-- The counts that satisfy a relation. No 64-bit count lies above the greatest bound, and a count
of 63 or more cannot be told from its neighbours, so that it cannot be left out alone. -/
def ofRelation (r : Relation) : CountSet :=
  let b := r.bound.toNat
  match r.comparator with
  | .eq => exactly b
  | .ne => if b < top then (exactly b).compl else all
  | .lt => if b = 0 then empty else atMost (b - 1)
  | .le => atMost b
  | .gt => if b + 1 = UInt64.size then empty else atLeast (b + 1)
  | .ge => atLeast b

/-- The counts that satisfy several relations together. -/
def ofRelations (rs : List Relation) : CountSet :=
  rs.foldl (fun s r => s.inter (ofRelation r)) all

/-- The maximal runs of set bits in a list whose first bit has the number `place`, as pairs of their
first and last number. `since` is the start of a run that is under way. -/
def runs (since : Option Nat) (place : Nat) : List Bool → List (Nat × Nat)
  | [] => since.toList.map fun s => (s, place - 1)
  | true :: later => runs (some (since.getD place)) (place + 1) later
  | false :: later =>
    (since.toList.map fun s => (s, place - 1)) ++ runs none (place + 1) later

/-- A run as it is written: a run up to the top bit is open-ended. -/
def runText : Nat × Nat → String
  | (s, e) => if e = top then s!"{s}+" else if s = e then s!"{s}" else s!"{s}..={e}"

/-- The permitted counts as ranges between braces. -/
def text (s : CountSet) : String :=
  let ranges := runs none 0 ((List.range 64).map s.permits)
  "\x7b" ++ ", ".intercalate (ranges.map runText) ++ "\x7d"

/-- A hexadecimal digit. -/
def hexDigit (n : Nat) : Char :=
  if n < 10 then Char.ofNat ('0'.toNat + n) else Char.ofNat ('a'.toNat + (n - 10))

/-- The bits as sixteen hexadecimal digits. -/
def hexText (s : CountSet) : String :=
  String.ofList ((List.range 16).map fun i => hexDigit ((s.bits.toNat >>> (4 * (15 - i))) % 16))

/-- The bits as they are shown to a developer. -/
def debugText (s : CountSet) : String :=
  s!"CountBitVector(0x{s.hexText})"

end CountSet

end DumpRules
