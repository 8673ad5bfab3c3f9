import DumpRules.Grammar.Scanner

/-!
The grammar of clause lists.

A list is a sequence of entries with commas between them, and one comma may follow the last. An entry
of the forbidding list is a node reference; an entry of the counting list is a node reference with
relations behind it. A node reference is a node identifier, perhaps behind names of phases with `|`
between them and `:` after the last.

Tokens are read loosely: any run of comparison signs or letters is taken for a comparator and any run
of letters, digits, underscores and points for a bound, so that a bad one can be reported by name.
White space may stand between tokens. Before an item that may be missing it is read even if the item
is missing, so that it then belongs to the stretch of text before it.
-/

namespace DumpRules.Grammar

set_option autoImplicit false

/-- A piece of text with its place. -/
structure Token where
  text : String
  span : Span
deriving DecidableEq

/-- A node with the names of phases before it. -/
structure NodeRef where
  phases : Option (List Token)
  node : Token
  span : Span
deriving DecidableEq

/-- A comparator, a bound, or both. -/
structure RelationTerm where
  comparator : Option Token
  bound : Option Token
  span : Span
deriving DecidableEq

/-- A node reference with the relations behind it. -/
structure Entry where
  ref : NodeRef
  relations : List RelationTerm
  span : Span
deriving DecidableEq

/-! ### Tokens -/

/-- Whether a character may continue the name of a phase. -/
def isPhaseChar (c : Char) : Bool :=
  c.isAlphanum || c == '_'

/-- Whether a character may start a node identifier. -/
def isNodeStart (c : Char) : Bool :=
  c.isAlpha || c == '_'

/-- Whether a character may continue a node identifier. -/
def isNodeChar (c : Char) : Bool :=
  c.isAlphanum || c == '_' || c == '#' || c == '$' || c == '.' || c == '@'

/-- Whether a character is a comparison sign. -/
def isSign (c : Char) : Bool :=
  c == '!' || c == '<' || c == '>' || c == '='

/-- Whether a character may stand in a bound behind its plus or minus sign. -/
def isBoundChar (c : Char) : Bool :=
  c.isAlphanum || c == '_' || c == '.'

/-- The number of characters at the front of a text that satisfy a condition. -/
def runLength (p : Char → Bool) (cs : List Char) : Nat :=
  (cs.takeWhile p).length

/-- The length of a word at the front of a text, given its possible first and later characters. -/
def wordLength (first later : Char → Bool) : List Char → Nat
  | [] => 0
  | c :: cs => if first c then runLength later cs + 1 else 0

/-- The length of a comparator: comparison signs or else letters. -/
def comparatorLength (cs : List Char) : Nat :=
  match runLength isSign cs with
  | 0 => runLength Char.isAlpha cs
  | n + 1 => n + 1

/-- The length of a bound, which may start with a sign. -/
def boundLength : List Char → Nat
  | [] => 0
  | c :: cs =>
    if c == '-' || c == '+' then
      match runLength isBoundChar cs with
      | 0 => 0
      | n + 1 => n + 2
    else runLength isBoundChar (c :: cs)

open Scanner

/-- Reads a token of a given length, on record under the name of its rule. -/
def token (rule : Rule) (length : List Char → Nat) : Scanner Token :=
  named rule (andThen (spanned (lexeme length)) fun (span, text) =>
    succeed ⟨String.ofList text, span⟩)

/-- Reads the name of a phase. -/
def phaseName : Scanner Token :=
  token .phaseName (wordLength Char.isAlpha isPhaseChar)

/-- Reads a node identifier. -/
def nodeIdent : Scanner Token :=
  token .nodeIdent (wordLength isNodeStart isNodeChar)

/-- Reads a comparator, known or not. -/
def comparator : Scanner Token :=
  token .comparator comparatorLength

/-- Reads a bound, a number or not. -/
def bound : Scanner Token :=
  token .bound boundLength

theorem consumes_token (rule : Rule) (length : List Char → Nat) : (token rule length).Consumes :=
  ((consumes_lexeme length).spanned.andThen fun _ => forward_succeed _).named rule

/-! ### References, relations and entries -/

/-- Reads a further item behind a separating character. -/
def separated {α : Type} (c : Char) (item : Scanner α) : Scanner α :=
  andThen (symbol c) fun _ => andThen gap fun _ => item

theorem consumes_separated {α : Type} (c : Char) {item : Scanner α} (h : item.Consumes) :
    (separated c item).Consumes :=
  (consumes_symbol c).andThen fun _ => forward_gap.andThen fun _ => h.forward

/-- Reads the names of phases before a node, with the colon. -/
def phasePrefix : Scanner (List Token) :=
  named .phasePrefix <|
    andThen phaseName fun first =>
    andThen gap fun _ =>
    andThen (many (separated '|' phaseName) (consumes_separated '|' (consumes_token _ _)))
      fun others =>
    andThen gap fun _ =>
    andThen (symbol ':') fun _ =>
    succeed (first :: others)

/-- Reads a node with the names of phases before it. -/
def nodeRef : Scanner NodeRef :=
  named .nodeRef <|
    andThen (spanned <|
      andThen (optional phasePrefix) fun phases =>
      andThen gap fun _ =>
      andThen nodeIdent fun node =>
      succeed (phases, node)) fun (span, phases, node) =>
    succeed { phases, node, span }

/-- Reads a relation: a comparator with or without a bound, or a bound alone. -/
def relation : Scanner RelationTerm :=
  named .relation <|
    andThen (spanned <| orElse
      (andThen comparator fun c =>
        andThen gap fun _ =>
        andThen (optional bound) fun b =>
        succeed (some c, b))
      (andThen bound fun b => succeed (none, some b))) fun (span, comparator, bound) =>
    succeed { comparator, bound, span }

theorem consumes_relation : relation.Consumes :=
  (((consumes_token _ _).andThen fun _ => forward_gap.andThen fun _ =>
      (consumes_token _ _).forward.optional.andThen fun _ => forward_succeed _).orElse
    ((consumes_token _ _).andThen fun _ => forward_succeed _)).spanned.andThen
    (fun _ => forward_succeed _) |>.named _

theorem consumes_phasePrefix : phasePrefix.Consumes :=
  ((consumes_token _ _).andThen fun _ => forward_gap.andThen fun _ =>
    (forward_many _ _).andThen fun _ => forward_gap.andThen fun _ =>
    (consumes_symbol _).forward.andThen fun _ => forward_succeed _).named _

theorem consumes_nodeRef : nodeRef.Consumes :=
  (consumes_phasePrefix.forward.optional.andThen_consumes fun _ =>
    forward_gap.andThen_consumes fun _ =>
    (consumes_token _ _).andThen fun _ => forward_succeed _).spanned.andThen
    (fun _ => forward_succeed _) |>.named _

/-- Reads an entry of the counting list. -/
def countsEntry : Scanner Entry :=
  named .countsEntry <|
    andThen (spanned <|
      andThen nodeRef fun ref =>
      andThen gap fun _ =>
      andThen (many relation consumes_relation) fun relations =>
      succeed (ref, relations)) fun (span, ref, relations) =>
    succeed { ref, relations, span }

theorem consumes_countsEntry : countsEntry.Consumes :=
  (consumes_nodeRef.andThen fun _ => forward_gap.andThen fun _ =>
    (forward_many _ _).andThen fun _ => forward_succeed _).spanned.andThen
    (fun _ => forward_succeed _) |>.named _

/-! ### Lists -/

/-- Reads a whole text as entries with commas between them. -/
def wholeList {α : Type} (rule : Rule) (item : Scanner α) (h : item.Consumes) :
    Scanner (List α) :=
  named rule <|
    andThen gap fun _ =>
    andThen (optional <|
      andThen item fun first =>
      andThen gap fun _ =>
      andThen (many (separated ',' item) (consumes_separated ',' h)) fun others =>
      andThen gap fun _ =>
      andThen (optional (symbol ',')) fun _ =>
      succeed (first :: others)) fun items =>
    andThen gap fun _ =>
    andThen (named .endOfInput ended) fun _ =>
    succeed (items.getD [])

/-- Reads a whole text as a forbidding list. -/
def failOnList : Scanner (List NodeRef) :=
  wholeList .failOnList nodeRef consumes_nodeRef

/-- Reads a whole text as a counting list. -/
def countsList : Scanner (List Entry) :=
  wholeList .countsList countsEntry consumes_countsEntry

/-- Where and why a text is no list: the furthest place that was reached, marked by the byte behind
it if there is one, and what was expected there. -/
structure Unexpected where
  span : Span
  expected : String

/-- Reads a whole text. -/
def scanAll {α : Type} (p : Scanner α) (source : List Char) : Except Unexpected α :=
  let s := p ⟨0, source⟩
  match s.result with
  | some (a, _) => .ok a
  | none =>
    let furthest := Attempt.recordAll {} s.tried
    let stop := min (furthest.offset + 1) (byteLength source)
    .error { span := ⟨min furthest.offset stop, stop⟩, expected := furthest.expected }

end DumpRules.Grammar
