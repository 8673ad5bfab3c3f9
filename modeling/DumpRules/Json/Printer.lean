import DumpRules.Json.Basic

/-!
Writing JSON documents: on one line, or spread over lines with two spaces for each level. Characters
beyond ASCII are written as they are; quotes, backslashes and control characters are escaped.
-/

namespace DumpRules.Json

set_option autoImplicit false

/-- A hexadecimal digit. -/
def hexDigit (n : Nat) : Char :=
  if n < 10 then Char.ofNat ('0'.toNat + n) else Char.ofNat ('a'.toNat + (n - 10))

/-- A character as it stands in a written string. -/
def escapeChar (c : Char) : List Char :=
  match c with
  | '"' => ['\\', '"']
  | '\\' => ['\\', '\\']
  | '\n' => ['\\', 'n']
  | '\r' => ['\\', 'r']
  | '\t' => ['\\', 't']
  | '\x08' => ['\\', 'b']
  | '\x0c' => ['\\', 'f']
  | c =>
    if c.toNat < 32 then ['\\', 'u', '0', '0', hexDigit (c.toNat / 16), hexDigit (c.toNat % 16)]
    else [c]

/-- A string with its quotes. -/
def quote (s : String) : String :=
  String.ofList ('"' :: s.toList.flatMap escapeChar ++ ['"'])

mutual

/-- A document on one line. -/
def compact : Json → String
  | null => "null"
  | bool b => if b then "true" else "false"
  | number text => text
  | string s => quote s
  | array items => "[" ++ ",".intercalate (compactItems items) ++ "]"
  | object fields => "\x7b" ++ ",".intercalate (compactFields fields) ++ "\x7d"

/-- Documents, each on one line. -/
def compactItems : List Json → List String
  | [] => []
  | j :: later => j.compact :: compactItems later

/-- Fields, each on one line. -/
def compactFields : List (String × Json) → List String
  | [] => []
  | (name, value) :: later => (quote name ++ ":" ++ value.compact) :: compactFields later

end

/-- The parts of a container between its brackets, each on a line of its own. -/
def enclose (left right indent : String) (parts : List String) : String :=
  match parts with
  | [] => left ++ right
  | _ =>
    let inner := indent ++ "  "
    left ++ "\n" ++ inner ++ (",\n" ++ inner).intercalate parts ++ "\n" ++ indent ++ right

mutual

/-- A document spread over lines, all but the first behind `indent`. -/
def prettyAt (indent : String) : Json → String
  | null => "null"
  | bool b => if b then "true" else "false"
  | number text => text
  | string s => quote s
  | array items => enclose "[" "]" indent (prettyItems (indent ++ "  ") items)
  | object fields => enclose "\x7b" "\x7d" indent (prettyFields (indent ++ "  ") fields)

/-- Documents, each spread over lines. -/
def prettyItems (indent : String) : List Json → List String
  | [] => []
  | j :: later => prettyAt indent j :: prettyItems indent later

/-- Fields, each spread over lines. -/
def prettyFields (indent : String) : List (String × Json) → List String
  | [] => []
  | (name, value) :: later =>
    (quote name ++ ": " ++ prettyAt indent value) :: prettyFields indent later

end

/-- A document spread over lines. -/
def pretty (j : Json) : String :=
  prettyAt "" j

end DumpRules.Json
