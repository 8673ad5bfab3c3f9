import DumpRules.Json.Basic

/-!
Reading JSON documents, to the letter of the format: no comments, no comma behind the last item, no
text behind the document, no unpaired surrogates and no control characters in strings. Arrays and
objects may be nested up to 127 levels deep.
-/

namespace DumpRules.Json

set_option autoImplicit false

/-- Drops the white space of the format. -/
def dropSpace (cs : List Char) : List Char :=
  cs.dropWhile fun c => c == ' ' || c == '\t' || c == '\n' || c == '\r'

/-- The value of a hexadecimal digit. -/
def hexValue? (c : Char) : Option Nat :=
  if '0' ≤ c ∧ c ≤ '9' then some (c.toNat - '0'.toNat)
  else if 'a' ≤ c ∧ c ≤ 'f' then some (c.toNat - 'a'.toNat + 10)
  else if 'A' ≤ c ∧ c ≤ 'F' then some (c.toNat - 'A'.toNat + 10)
  else none

/-- The value of four hexadecimal digits. -/
def hex4? (a b c d : Char) : Option Nat := do
  some (((← hexValue? a) * 16 + (← hexValue? b)) * 256 + (← hexValue? c) * 16 + (← hexValue? d))

/-- The character of a pair of surrogates. -/
def pairChar? (high low : Nat) : Option Char :=
  if 0xd800 ≤ high ∧ high < 0xdc00 ∧ 0xdc00 ≤ low ∧ low < 0xe000 then
    some (Char.ofNat (0x10000 + (high - 0xd800) * 0x400 + (low - 0xdc00)))
  else none

/-- The character behind a backslash, if it is one of the short escapes. -/
def shortEscape? : Char → Option Char
  | '"' => some '"'
  | '\\' => some '\\'
  | '/' => some '/'
  | 'b' => some '\x08'
  | 'f' => some '\x0c'
  | 'n' => some '\n'
  | 'r' => some '\r'
  | 't' => some '\t'
  | _ => none

/-- Reads a string behind its opening quote, onto the characters read so far, last first. -/
def readString (done : List Char) : List Char → Option (String × List Char)
  | [] => none
  | '"' :: rest => some (String.ofList done.reverse, rest)
  | '\\' :: 'u' :: a :: b :: c :: d :: '\\' :: 'u' :: e :: f :: g :: h :: rest =>
    match hex4? a b c d with
    | none => none
    | some n =>
      if n.isValidChar then
        readString (Char.ofNat n :: done) ('\\' :: 'u' :: e :: f :: g :: h :: rest)
      else
        match (hex4? e f g h).bind (pairChar? n) with
        | none => none
        | some c => readString (c :: done) rest
  | '\\' :: 'u' :: a :: b :: c :: d :: rest =>
    match hex4? a b c d with
    | none => none
    | some n => if n.isValidChar then readString (Char.ofNat n :: done) rest else none
  | '\\' :: c :: rest =>
    match shortEscape? c with
    | none => none
    | some c => readString (c :: done) rest
  | c :: rest => if c.toNat < 32 || c == '\\' then none else readString (c :: done) rest
termination_by cs => cs.length

/-- Reads one digit or more. -/
def readDigits (cs : List Char) : Option (List Char × List Char) :=
  match cs.takeWhile Char.isDigit with
  | [] => none
  | ds => some (ds, cs.dropWhile Char.isDigit)

/-- Reads the whole part of a number, which has no leading zero. -/
def readWhole : List Char → Option (List Char × List Char)
  | '0' :: rest => some (['0'], rest)
  | cs => readDigits cs

/-- Reads the fraction of a number, if it has one. -/
def readFraction : List Char → Option (List Char × List Char)
  | '.' :: rest => (readDigits rest).map fun (ds, rest) => ('.' :: ds, rest)
  | cs => some ([], cs)

/-- Reads the exponent of a number, if it has one. -/
def readExponent : List Char → Option (List Char × List Char)
  | c :: rest =>
    if c == 'e' || c == 'E' then
      match rest with
      | s :: later =>
        if s == '+' || s == '-' then
          (readDigits later).map fun (ds, rest) => (c :: s :: ds, rest)
        else (readDigits rest).map fun (ds, rest) => (c :: ds, rest)
      | [] => none
    else some ([], c :: rest)
  | [] => some ([], [])

/-- Reads a number. A digit behind a leading zero is refused by what comes next. -/
def readNumber (cs : List Char) : Option (Json × List Char) := do
  let (sign, cs) :=
    match cs with
    | '-' :: rest => (['-'], rest)
    | cs => ([], cs)
  let (whole, cs) ← readWhole cs
  let (fraction, cs) ← readFraction cs
  let (exponent, cs) ← readExponent cs
  some (.number (String.ofList (sign ++ whole ++ fraction ++ exponent)), cs)

/-- Reads a fixed word. -/
def readWord (word : List Char) (value : Json) (cs : List Char) : Option (Json × List Char) :=
  if word.isPrefixOf cs then some (value, cs.drop word.length) else none

variable {α : Type}

/-- Reads items up to a closing bracket, with commas between them. -/
def readItems (close : Char) (item : List Char → Option (α × List Char)) (cs : List Char) :
    Option (List α × List Char) :=
  match item cs with
  | none => none
  | some (a, rest) =>
    match dropSpace rest with
    | c :: later =>
      if c == close then some ([a], later)
      else if c == ',' then
        if _h : later.length < cs.length then
          (readItems close item later).map fun (as, rest) => (a :: as, rest)
        else none
      else none
    | [] => none
termination_by cs.length

/-- Reads items up to a closing bracket that may come at once. -/
def readList (close : Char) (item : List Char → Option (α × List Char)) (cs : List Char) :
    Option (List α × List Char) :=
  match dropSpace cs with
  | c :: rest => if c == close then some ([], rest) else readItems close item (c :: rest)
  | [] => none

/-- Reads a field, given how to read its value. -/
def readField (value : List Char → Option (Json × List Char)) (cs : List Char) :
    Option ((String × Json) × List Char) :=
  match dropSpace cs with
  | '"' :: rest => do
    let (name, rest) ← readString [] rest
    match dropSpace rest with
    | ':' :: rest =>
      let (v, rest) ← value rest
      some ((name, v), rest)
    | _ => none
  | _ => none

/-- Reads a document that is nested at most as deep as the first argument says. -/
def readValue : Nat → List Char → Option (Json × List Char)
  | depth, cs =>
    match dropSpace cs with
    | [] => none
    | 'n' :: rest => readWord "null".toList .null ('n' :: rest)
    | 't' :: rest => readWord "true".toList (.bool true) ('t' :: rest)
    | 'f' :: rest => readWord "false".toList (.bool false) ('f' :: rest)
    | '"' :: rest => (readString [] rest).map fun (s, rest) => (.string s, rest)
    | '[' :: rest =>
      match depth with
      | 0 => none
      | depth + 1 =>
        (readList ']' (readValue depth) rest).map fun (items, rest) => (.array items, rest)
    | '\x7b' :: rest =>
      match depth with
      | 0 => none
      | depth + 1 =>
        (readList '\x7d' (readField (readValue depth)) rest).map fun (fields, rest) =>
          (.object fields, rest)
    | rest => readNumber rest

/-- The greatest depth of nesting that is read. -/
def maxDepth : Nat := 127

/-- Reads a text as one document. -/
def parse? (text : String) : Option Json :=
  match readValue maxDepth text.toList with
  | some (j, rest) => if (dropSpace rest).isEmpty then some j else none
  | none => none

end DumpRules.Json
