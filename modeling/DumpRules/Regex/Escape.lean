import DumpRules.Regex.Expr

/-!
The lexical level of pattern notation: white space and comments of the verbose mode, numerals, and
what may stand behind a backslash. Characters that have a meaning of their own in the notation are
written as themselves behind a backslash.
-/

namespace DumpRules.Regex

set_option autoImplicit false

/-- Characters with a meaning of their own in the notation. -/
def isMeta (c : Char) : Bool :=
  "\\.+*?()|[]\x7b\x7d^$#&-~".toList.contains c

/-- A text as a pattern that matches just that text. -/
def quoteChars (cs : List Char) : List Char :=
  cs.flatMap fun c => if isMeta c then ['\\', c] else [c]

/-- Drops white space and comments; a comment runs from `#` to the end of its line. -/
def dropRemarks (inComment : Bool) : List Char → List Char
  | [] => []
  | c :: later =>
    if inComment then dropRemarks (c != '\n') later
    else if Text.isBlank c then dropRemarks false later
    else if c == '#' then dropRemarks true later
    else c :: later

/-- In verbose mode, drops white space and comments. -/
def skip (verbose : Bool) (cs : List Char) : List Char :=
  if verbose then dropRemarks false cs else cs

theorem length_dropRemarks_le (inComment : Bool) (cs : List Char) :
    (dropRemarks inComment cs).length ≤ cs.length := by
  induction cs generalizing inComment with
  | nil => simp [dropRemarks]
  | cons c later ih =>
    simp only [dropRemarks, List.length_cons]
    split
    · exact Nat.le_succ_of_le (ih _)
    · split
      · exact Nat.le_succ_of_le (ih _)
      · split
        · exact Nat.le_succ_of_le (ih _)
        · simp

theorem length_skip_le (verbose : Bool) (cs : List Char) :
    (skip verbose cs).length ≤ cs.length := by
  unfold skip
  split
  · exact length_dropRemarks_le _ _
  · exact Nat.le_refl _

/-- What one escape or plain character stands for. -/
inductive Atom where
  | literal (c : Char)
  | set (s : CharSet)
  | look (l : Look)

/-- The value of a hexadecimal digit. -/
def hexValue? (c : Char) : Option Nat :=
  if '0' ≤ c ∧ c ≤ '9' then some (c.toNat - '0'.toNat)
  else if 'a' ≤ c ∧ c ≤ 'f' then some (c.toNat - 'a'.toNat + 10)
  else if 'A' ≤ c ∧ c ≤ 'F' then some (c.toNat - 'A'.toNat + 10)
  else none

/-- The character of a code point, if there is one. -/
def charOf? (n : Nat) : Option Char :=
  if n.isValidChar then some (Char.ofNat n) else none

/-- Reads a fixed number of hexadecimal digits onto `value`. -/
def hexDigits (verbose : Bool) : Nat → Nat → List Char → Option (Nat × List Char)
  | 0, value, cs => some (value, cs)
  | _ + 1, _, [] => none
  | n + 1, value, c :: later =>
    (hexValue? c).bind fun d => hexDigits verbose n (16 * value + d) (skip verbose later)

/-- Reads hexadecimal digits up to a closing brace; `value` is missing as long as there was none. -/
def hexBraced (verbose : Bool) (value : Option Nat) (cs : List Char) :
    Option (Nat × List Char) :=
  match skip verbose cs, length_skip_le verbose cs with
  | [], _ => none
  | c :: later, _h =>
    if c == '\x7d' then value.map fun v => (v, skip verbose later)
    else
      (hexValue? c).bind fun d => hexBraced verbose (some (16 * value.getD 0 + d)) later
termination_by cs.length
decreasing_by simp at _h; omega

/-- Reads the code point of an escape of `digits` digits, or of any number between braces. -/
def codePoint (verbose : Bool) (digits : Nat) (cs : List Char) : Option (Atom × List Char) :=
  let found :=
    match skip verbose cs with
    | '\x7b' :: later => hexBraced verbose none later
    | later => hexDigits verbose digits 0 later
  found.bind fun (n, rest) => (charOf? n).map fun c => (.literal c, rest)

/-- Whether a character may stand in the name of a word edge. -/
def isEdgeNameChar (c : Char) : Bool :=
  c.isAlpha || c == '-'

/-- Reads the name of a word edge up to its closing brace. -/
def edgeName (verbose : Bool) (name : List Char) (cs : List Char) :
    Option (List Char × List Char) :=
  match skip verbose cs, length_skip_le verbose cs with
  | [], _ => none
  | c :: later, _h =>
    if isEdgeNameChar c then edgeName verbose (c :: name) later
    else if c == '\x7d' then some (name.reverse, later)
    else none
termination_by cs.length
decreasing_by simp at _h; omega

/-- What follows an escaped `b`: the name of a word edge between braces, or nothing. Braces that do
not start with a letter or a dash belong to a repetition. -/
def wordEdge (verbose : Bool) (cs : List Char) : Option (Look × List Char) :=
  match cs with
  | '\x7b' :: later =>
    match skip verbose later with
    | [] => none
    | c :: _ =>
      if isEdgeNameChar c then
        (edgeName verbose [] later).bind fun (name, rest) =>
          match String.ofList name with
          | "start" => some (.wordStart, rest)
          | "end" => some (.wordEnd, rest)
          | "start-half" => some (.wordStartHalf, rest)
          | "end-half" => some (.wordEndHalf, rest)
          | _ => none
      else some (.wordBoundary, cs)
  | _ => some (.wordBoundary, cs)

/-- Reads what stands behind a backslash. Letters and digits without a meaning are refused, every
other character of ASCII stands for itself. -/
def readEscape (verbose : Bool) : List Char → Option (Atom × List Char)
  | [] => none
  | c :: rest =>
    match c with
    | 'x' => codePoint verbose 2 rest
    | 'u' => codePoint verbose 4 rest
    | 'U' => codePoint verbose 8 rest
    | 'd' => some (.set .digit, rest)
    | 'D' => some (.set (.compl .digit), rest)
    | 's' => some (.set .space, rest)
    | 'S' => some (.set (.compl .space), rest)
    | 'w' => some (.set .word, rest)
    | 'W' => some (.set (.compl .word), rest)
    | 'a' => some (.literal '\x07', rest)
    | 'f' => some (.literal '\x0c', rest)
    | 't' => some (.literal '\t', rest)
    | 'n' => some (.literal '\n', rest)
    | 'r' => some (.literal '\r', rest)
    | 'v' => some (.literal '\x0b', rest)
    | 'A' => some (.look .textStart, rest)
    | 'z' => some (.look .textEnd, rest)
    | 'B' => some (.look .notWordBoundary, rest)
    | '<' => some (.look .wordStart, rest)
    | '>' => some (.look .wordEnd, rest)
    | 'b' => (wordEdge verbose rest).map fun (l, rest) => (.look l, rest)
    | c => if c.toNat < 128 ∧ c.isAlphanum = false then some (.literal c, rest) else none

end DumpRules.Regex
