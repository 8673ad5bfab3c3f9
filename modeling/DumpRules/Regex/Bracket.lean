import DumpRules.Regex.Escape

/-!
Bracket expressions: items, intervals, nested brackets, named classes, and the operators `&&`, `--`
and `~~`, which bind alike and group to the left. Brackets that are open around the one being read
are kept as a list, the innermost first.
-/

namespace DumpRules.Regex

set_option autoImplicit false

/-- A set with the depth of its notation. -/
structure SetTerm where
  set : CharSet
  depth : Nat := 0

/-- The operators between the items of a bracket. -/
inductive SetOp where
  | inter
  | diff
  | symmDiff

/-- The set that an operator makes of two. -/
def SetOp.apply : SetOp → CharSet → CharSet → CharSet
  | inter => .inter
  | diff => .diff
  | symmDiff => .symmDiff

/-- A bracket being read: its items since the last operator, last first, and what stands before that
operator. -/
structure OpenBracket where
  negated : Bool
  left : Option (SetOp × SetTerm) := none
  items : List SetTerm := []

namespace OpenBracket

/-- Adds an item. -/
def push (b : OpenBracket) (t : SetTerm) : OpenBracket :=
  { b with items := t :: b.items }

/-- The items since the last operator, as one set. -/
def gathered (b : OpenBracket) : SetTerm :=
  match b.items with
  | [] => ⟨.empty, 0⟩
  | [t] => t
  | ts => ⟨.unions (ts.reverse.map (·.set)), (ts.map (·.depth)).foldl max 0 + 1⟩

/-- All that was read so far, as one set. With `anyCase` the operands of an operator are closed under
letter case before it is applied. -/
def combined (b : OpenBracket) (anyCase : Bool) : SetTerm :=
  let right := b.gathered
  let close (s : CharSet) := if anyCase then .anyCase s else s
  match b.left with
  | none => right
  | some (op, left) =>
    ⟨op.apply (close left.set) (close right.set), max left.depth right.depth + 1⟩

/-- Ends the operand of an operator. -/
def operator (b : OpenBracket) (op : SetOp) (anyCase : Bool) : OpenBracket :=
  { b with left := some (op, b.combined anyCase), items := [] }

/-- The set of a bracket that ends. Closure under letter case comes before negation. -/
def closed (b : OpenBracket) (anyCase : Bool) : SetTerm :=
  let inner := b.combined anyCase
  let set := if anyCase then .anyCase inner.set else inner.set
  ⟨if b.negated then .compl set else set, inner.depth + 1⟩

end OpenBracket

/-- Takes the dashes at the start of a bracket, which stand for themselves. Refuses a text that ends
there. -/
def leadingDashes (verbose : Bool) (b : OpenBracket) (cs : List Char) :
    Option (OpenBracket × List Char) :=
  match skip verbose cs, length_skip_le verbose cs with
  | [], _ => none
  | c :: later, _h =>
    if c == '-' then leadingDashes verbose (b.push ⟨.single '-', 0⟩) later
    else some (b, c :: later)
termination_by cs.length
decreasing_by simp at _h; omega

/-- Reads the start of a bracket behind its `[`: a sign of negation, dashes, and a closing bracket
that stands for itself because nothing came before it. -/
def openBracket (verbose : Bool) (cs : List Char) : Option (OpenBracket × List Char) := do
  let (negated, cs) :=
    match skip verbose cs with
    | '^' :: later => (true, later)
    | later => (false, later)
  let (b, rest) ← leadingDashes verbose { negated } cs
  match rest with
  | ']' :: later =>
    if b.items.isEmpty then
      match skip verbose later with
      | [] => none
      | rest => some (b.push ⟨.single ']', 0⟩, rest)
    else some (b, rest)
  | _ => some (b, rest)

/-- Reads a named class behind its `[`, if there is one. -/
def namedClass (anyCase : Bool) (cs : List Char) : Option (SetTerm × List Char) := do
  let ':' :: cs := cs | none
  let (negated, cs) :=
    match cs with
    | '^' :: later => (true, later)
    | later => (false, later)
  let ':' :: ']' :: rest := cs.dropWhile (· != ':') | none
  let s ← namedClass? (String.ofList (cs.takeWhile (· != ':')))
  let s := if anyCase then .anyCase s else s
  some (⟨if negated then .compl s else s, 0⟩, rest)

/-- Reads one character or class within a bracket. -/
def bracketAtom (verbose : Bool) : List Char → Option (Atom × List Char)
  | [] => none
  | '\\' :: later => readEscape verbose later
  | c :: later => some (.literal c, later)

/-- The character that decides, behind a dash, whether the dash stands for itself. -/
def behindDash (verbose : Bool) (cs : List Char) : Option Char :=
  if verbose then
    match cs.dropWhile Text.isBlank with
    | '#' :: later => (later.dropWhile Text.isBlank).head?
    | later => later.head?
  else cs.head?

/-- Reads an item of a bracket: an interval, a character or a class. Refuses a text that ends
behind it. -/
def bracketItem (verbose : Bool) (cs : List Char) : Option (SetTerm × List Char) := do
  let (first, rest) ← bracketAtom verbose cs
  let alone (rest : List Char) : Option (SetTerm × List Char) :=
    match first with
    | .literal c => some (⟨.single c, 0⟩, rest)
    | .set s => some (⟨s, 0⟩, rest)
    | .look _ => none
  match skip verbose rest with
  | [] => none
  | '-' :: later =>
    let next := behindDash verbose later
    if next = some ']' ∨ next = some '-' then alone ('-' :: later)
    else do
      let (second, rest) ← bracketAtom verbose (skip verbose later)
      match first, second with
      | .literal low, .literal high =>
        if low ≤ high then some (⟨.range low high, 0⟩, rest) else none
      | _, _ => none
  | later => alone later

/-- Reads a bracket expression to its end. -/
def readBracket (verbose anyCase : Bool) (here : OpenBracket) (outer : List OpenBracket)
    (cs : List Char) : Option (SetTerm × List Char) :=
  let go (here : OpenBracket) (outer : List OpenBracket) (rest : List Char) :=
    if _h : rest.length < cs.length then readBracket verbose anyCase here outer rest else none
  match skip verbose cs with
  | [] => none
  | '[' :: later =>
    match namedClass anyCase later with
    | some (t, rest) => go (here.push t) outer rest
    | none =>
      match openBracket verbose later with
      | some (inner, rest) => go inner (here :: outer) rest
      | none => none
  | ']' :: later =>
    let t := here.closed anyCase
    match outer with
    | [] => some (t, later)
    | parent :: outer => go (parent.push t) outer later
  | '&' :: '&' :: later => go (here.operator .inter anyCase) outer later
  | '-' :: '-' :: later => go (here.operator .diff anyCase) outer later
  | '~' :: '~' :: later => go (here.operator .symmDiff anyCase) outer later
  | rest =>
    match bracketItem verbose rest with
    | some (t, rest) => go (here.push t) outer rest
    | none => none
termination_by cs.length

/-- Reads a bracket expression behind its `[`. -/
def bracket (verbose anyCase : Bool) (cs : List Char) : Option (SetTerm × List Char) := do
  let (here, rest) ← openBracket verbose cs
  readBracket verbose anyCase here [] rest

end DumpRules.Regex
