import DumpRules.Regex.Reader
import DumpRules.Regex.Search

/-!
The pattern by which a node is looked for in a dump: one given for the node, or else its name as a
whole word, so that a name is not found inside a longer one. A side of the name that ends in a
letter, a number or an underscore must be the edge of a word; the other characters of the name stand
for themselves.
-/

namespace DumpRules

set_option autoImplicit false

/-- A way to read the notation of expressions; what is not well-formed has no reading. -/
abbrev Regex.Compiler := String → Option Regex.Expr

/-- The pattern of a node, with its notation. -/
structure Pattern where
  node : String
  source : String
  expr : Regex.Expr
deriving DecidableEq

namespace Pattern

/-- The pattern of a given notation, if that is well-formed. -/
def ofSource? (node source : String) (compile : Regex.Compiler := Regex.parse?) : Option Pattern :=
  (compile source).map fun expr => { node, source, expr }

/-- Whether a name that has this character at an end has the edge of a word there. -/
def needsEdge (c : Option Char) : Bool :=
  c.any fun c => Text.isAlphanumeric c || c == '_'

/-- The notation for a name as a whole word. -/
def wordChars (name : List Char) : List Char :=
  let edge (c : Option Char) := if needsEdge c then ['\\', 'b'] else []
  edge name.head? ++ Regex.quoteChars name ++ edge name.getLast?

/-- The expression for a name as a whole word. -/
def wordExpr (name : List Char) : Regex.Expr :=
  let edge (c : Option Char) := if needsEdge c then [.look .wordBoundary] else []
  .sequence (edge name.head? ++ name.map Regex.Expr.char ++ edge name.getLast?)

/-- The name of a node as a whole word. -/
def word (node : String) : Pattern :=
  { node
    source := String.ofList (wordChars node.toList)
    expr := wordExpr node.toList }

/-- The number of occurrences in a text. -/
def count (p : Pattern) (text : String) : Nat :=
  p.expr.count text

end Pattern

end DumpRules
