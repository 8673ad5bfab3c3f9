import DumpRules.Regex.Bracket

/-!
The notation of search patterns, read into expressions.

Flags are resolved while reading: a set of flags in parentheses holds from there to the end of its
group, across alternatives, and the expressions built meanwhile have them worked in. Groups that are
open around the one being read are kept as a list, the innermost first. Groups only group; their
names are checked and have no further use. A pattern is refused, without a reason given, if it breaks
the notation, is nested more than 250 levels deep, or is too large once its counted repetitions are
written out. Classes of characters named by their properties (`\pL`) and the flags `u` and `R` are no
part of the notation here.
-/

namespace DumpRules.Regex

set_option autoImplicit false

/-- The modes that a pattern can switch. -/
structure Flags where
  /-- Letters match in either case. -/
  anyCase : Bool := false
  /-- `^` and `$` hold at the ends of lines, not of the text. -/
  multiLine : Bool := false
  /-- `.` matches the end of a line too. -/
  dotAll : Bool := false
  /-- Repetitions are lazy and become greedy by `?`. -/
  swapGreed : Bool := false
  /-- White space and comments are ignored. -/
  verbose : Bool := false

/-- Sets one flag, given by its letter. -/
def Flags.set? (flags : Flags) (letter : Char) (value : Bool) : Option Flags :=
  match letter with
  | 'i' => some { flags with anyCase := value }
  | 'm' => some { flags with multiLine := value }
  | 's' => some { flags with dotAll := value }
  | 'U' => some { flags with swapGreed := value }
  | 'x' => some { flags with verbose := value }
  | _ => none

/-- An expression with the depth of its notation. A switch of flags is no expression that could be
repeated. -/
structure Item where
  expr : Expr
  depth : Nat := 0
  isSwitch : Bool := false

/-- A group being read: the flags in force, its finished alternatives and the items of the present
one, both last first. -/
structure OpenGroup where
  flags : Flags
  finished : List Item := []
  items : List Item := []

/-- Several terms as one: none stays empty, one is itself, more are one level deeper. -/
def joinItems (join : List Expr → Expr) (items : List Item) : Item :=
  match items with
  | [] => { expr := join [] }
  | [item] => { expr := item.expr, depth := item.depth }
  | items =>
    { expr := join (items.map (·.expr)), depth := (items.map (·.depth)).foldl max 0 + 1 }

namespace OpenGroup

/-- Adds an item to the present alternative. -/
def push (g : OpenGroup) (item : Item) : OpenGroup :=
  { g with items := item :: g.items }

/-- The present alternative as one term. -/
def alternative (g : OpenGroup) : Item :=
  joinItems .sequence g.items.reverse

/-- Ends the present alternative. -/
def split (g : OpenGroup) : OpenGroup :=
  { g with finished := g.alternative :: g.finished, items := [] }

/-- All alternatives as one term. -/
def term (g : OpenGroup) : Item :=
  joinItems .choice (g.alternative :: g.finished).reverse

/-- Puts a repetition around the last item, if that can be repeated. -/
def repeatLast (g : OpenGroup) (least : Nat) (most : Option Nat) (greedy : Bool) :
    Option OpenGroup :=
  match g.items with
  | [] => none
  | item :: items =>
    if item.isSwitch then none
    else
      let expr := item.expr.repeated least most (greedy != g.flags.swapGreed)
      some { g with items := { expr, depth := item.depth + 1 } :: items }

/-- Adds a character, in either case if the flags say so. -/
def pushChar (g : OpenGroup) (c : Char) : OpenGroup :=
  let s := if g.flags.anyCase then .anyCase (.single c) else .single c
  g.push { expr := .set s }

/-- Adds an atom. -/
def pushAtom (g : OpenGroup) : Atom → OpenGroup
  | .literal c => g.pushChar c
  | .set s => g.push { expr := .set s }
  | .look l => g.push { expr := .look l }

end OpenGroup

/-- What has been read of a pattern: the group being read, those around it, and the group names
given so far. -/
structure Reading where
  here : OpenGroup
  outer : List OpenGroup := []
  names : List (List Char) := []

/-- Reads the mark that turns a repetition lazy. -/
def lazyMark : List Char → Bool × List Char
  | '?' :: rest => (false, rest)
  | rest => (true, rest)

/-- Reads digits, each followed by what the verbose mode ignores. -/
def countDigits (verbose : Bool) (digits : List Char) (cs : List Char) :
    List Char × List Char :=
  match cs with
  | [] => (digits.reverse, [])
  | c :: later =>
    if c.isDigit then countDigits verbose (c :: digits) (skip verbose later)
    else (digits.reverse, c :: later)
termination_by cs.length
decreasing_by have := length_skip_le verbose later; simp; omega

/-- Reads a count with white space around it; the count is missing if there is no digit or the value
is beyond 32 bits. -/
def countBound (verbose : Bool) (cs : List Char) : Option Nat × List Char :=
  let (digits, rest) := countDigits verbose [] (cs.dropWhile Text.isBlank)
  let rest := if verbose then dropRemarks false rest else rest.dropWhile Text.isBlank
  let n := digits.foldl (fun value c => 10 * value + (c.toNat - '0'.toNat)) 0
  (if digits = [] ∨ UInt32.size ≤ n then none else some n, rest)

/-- Reads a counted repetition behind its opening brace: the least and the most number of rounds. -/
def countRange (verbose : Bool) (cs : List Char) :
    Option (Nat × Option Nat × List Char) := do
  let (least, rest) := countBound verbose (skip verbose cs)
  let least ← least
  match rest with
  | '\x7d' :: rest => some (least, some least, rest)
  | ',' :: rest =>
    match skip verbose rest with
    | '\x7d' :: rest => some (least, none, rest)
    | rest =>
      let (most, rest) := countBound verbose rest
      let most ← most
      match rest with
      | '\x7d' :: rest => if least ≤ most then some (least, some most, rest) else none
      | _ => none
  | _ => none

/-- Reads the letters of a switch of flags up to `:` or `)`. `value` is what a letter sets its flag
to, `used` are the letters and the dash met so far, and `dangling` says that the dash came last. -/
def readFlags (flags : Flags) (value : Bool) (used : List Char) (dangling : Bool) :
    List Char → Option (Flags × Bool × Char × List Char)
  | [] => none
  | c :: rest =>
    if c == ':' || c == ')' then
      if dangling then none else some (flags, used.isEmpty, c, rest)
    else if used.contains c then none
    else if c == '-' then readFlags flags false (c :: used) true rest
    else (flags.set? c value).bind fun flags => readFlags flags value (c :: used) false rest

/-- Whether a group name may hold the character, at its start or later. -/
def isNameChar (first : Bool) (c : Char) : Bool :=
  if first then c == '_' || Text.isAlphabetic c
  else c == '_' || c == '.' || c == '[' || c == ']' || Text.isAlphanumeric c

/-- Reads a group name up to its closing angle bracket. -/
def groupName (cs : List Char) : Option (List Char × List Char) :=
  let name := cs.takeWhile (· != '>')
  match cs.dropWhile (· != '>'), name with
  | _ :: rest, c :: others =>
    if isNameChar true c && others.all (isNameChar false) then some (name, rest) else none
  | _, _ => none

namespace Reading

/-- Opens a group. -/
def openGroup (r : Reading) (flags : Flags) : Reading :=
  { r with here := { flags }, outer := r.here :: r.outer }

/-- Opens a named group, whose name must be new. -/
def openNamed (r : Reading) (cs : List Char) : Option (Reading × List Char) := do
  let (name, rest) ← groupName cs
  if r.names.contains name then none
  else some ({ r.openGroup r.here.flags with names := name :: r.names }, rest)

/-- Reads what follows an opening parenthesis. -/
def parenthesis (r : Reading) (cs : List Char) : Option (Reading × List Char) :=
  match skip r.here.flags.verbose cs with
  | '?' :: '=' :: _ => none
  | '?' :: '!' :: _ => none
  | '?' :: '<' :: '=' :: _ => none
  | '?' :: '<' :: '!' :: _ => none
  | '?' :: 'P' :: '<' :: rest => r.openNamed rest
  | '?' :: '<' :: rest => r.openNamed rest
  | '?' :: rest => do
    let (flags, nothing, mark, rest) ← readFlags r.here.flags true [] false rest
    if mark == ':' then some (r.openGroup flags, rest)
    else if nothing then none
    else
      let here := { r.here with flags }.push { expr := .empty, isSwitch := true }
      some ({ r with here }, rest)
  | rest => some (r.openGroup r.here.flags, rest)

/-- Closes the innermost group. -/
def closeGroup (r : Reading) : Option Reading :=
  match r.outer with
  | [] => none
  | parent :: outer =>
    let inner := r.here.term
    some { r with here := parent.push { inner with depth := inner.depth + 1 }, outer }

/-- Repeats the last item of the innermost group; a mark behind the repetition turns it lazy. -/
def repetition (r : Reading) (least : Nat) (most : Option Nat) (rest : List Char) :
    Option (Reading × List Char) :=
  let (greedy, rest) := lazyMark rest
  (r.here.repeatLast least most greedy).map fun here => ({ r with here }, rest)

/-- Reads one character with all that belongs to it. -/
def step (r : Reading) (c : Char) (rest : List Char) : Option (Reading × List Char) :=
  let flags := r.here.flags
  let atom (a : Atom) (rest : List Char) := some ({ r with here := r.here.pushAtom a }, rest)
  match c with
  | '(' => r.parenthesis rest
  | ')' => r.closeGroup.map fun r => (r, rest)
  | '|' => some ({ r with here := r.here.split }, rest)
  | '[' => do
    let (t, rest) ← bracket flags.verbose flags.anyCase rest
    some ({ r with here := r.here.push { expr := .set t.set, depth := t.depth } }, rest)
  | '?' => r.repetition 0 (some 1) rest
  | '*' => r.repetition 0 none rest
  | '+' => r.repetition 1 none rest
  | '\x7b' => do
    let (least, most, rest) ← countRange flags.verbose rest
    r.repetition least most (skip flags.verbose rest)
  | '\\' => do
    let (a, rest) ← readEscape flags.verbose rest
    atom a rest
  | '.' => atom (.set (if flags.dotAll then .all else .notNewline)) rest
  | '^' => atom (.look (if flags.multiLine then .lineStart else .textStart)) rest
  | '$' => atom (.look (if flags.multiLine then .lineEnd else .textEnd)) rest
  | c => atom (.literal c) rest

/-- The term of a pattern that has been read to its end. -/
def finish (r : Reading) : Option Item :=
  match r.outer with
  | [] => some r.here.term
  | _ :: _ => none

/-- Reads a pattern to its end. -/
def readAll (r : Reading) (cs : List Char) : Option Item :=
  match skip r.here.flags.verbose cs with
  | [] => r.finish
  | c :: later =>
    match r.step c later with
    | none => none
    | some (r, rest) => if _h : rest.length < cs.length then readAll r rest else none
termination_by cs.length

end Reading

/-- The greatest depth of nesting that a pattern may have. -/
def maxDepth : Nat := 250

/-- The greatest number of states that a machine for a pattern may have. -/
def maxStates : Nat := 327680

/-- The expression that a pattern denotes, if it keeps to the notation. -/
def parse? (pattern : String) : Option Expr :=
  match Reading.readAll { here := { flags := {} } } pattern.toList with
  | some item =>
    if item.depth ≤ maxDepth ∧ item.expr.states ≤ maxStates then some item.expr else none
  | none => none

end DumpRules.Regex
