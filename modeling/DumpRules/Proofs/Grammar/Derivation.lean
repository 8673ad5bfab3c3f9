import DumpRules.Grammar.Lists
import Mathlib.Data.Nat.Digits.Defs

/-!
# The written form of clause lists

The grammar of both lists, said without a scanner. A `Reading` relates a meaning to a text that
starts with one of its written forms and to what follows it. White space between tokens may be split
off at any place (`Gap`) and choices have no order. The one rule that looks ahead is that a token is
never followed by a character that could extend it (`Ends`).

`CountsWritten` and `FailOnWritten` are the entries of the two lists and `ListWritten` is a whole
text. That the readers accept exactly these texts is shown in `Proofs.Grammar.Completeness`.
-/

namespace DumpRules.Grammar

set_option autoImplicit false

/-! ## Characters -/

def White (c : Char) : Prop :=
  c ∈ [' ', '\t', '\r', '\n']

def Letter (c : Char) : Prop :=
  'A' ≤ c ∧ c ≤ 'Z' ∨ 'a' ≤ c ∧ c ≤ 'z'

def Digit (c : Char) : Prop :=
  '0' ≤ c ∧ c ≤ '9'

/-- The comparison signs. -/
def Sign (c : Char) : Prop :=
  c ∈ ['!', '<', '>', '=']

/-- What a node identifier starts with. -/
def NodeFirst (c : Char) : Prop :=
  Letter c ∨ c = '_'

/-- What a node identifier goes on with. -/
def NodeLater (c : Char) : Prop :=
  Letter c ∨ Digit c ∨ c ∈ ['_', '#', '$', '.', '@']

/-- What would extend a bound. -/
def BoundLater (c : Char) : Prop :=
  Letter c ∨ Digit c ∨ c ∈ ['_', '.']

instance : DecidablePred White := fun c => inferInstanceAs (Decidable (c ∈ _))
instance : DecidablePred Letter := fun c => inferInstanceAs (Decidable (_ ≤ c ∧ c ≤ _ ∨ _))
instance : DecidablePred Digit := fun c => inferInstanceAs (Decidable (_ ≤ c ∧ c ≤ _))
instance : DecidablePred Sign := fun c => inferInstanceAs (Decidable (c ∈ _))
instance : DecidablePred NodeFirst := fun c => inferInstanceAs (Decidable (Letter c ∨ _))
instance : DecidablePred NodeLater := fun c => inferInstanceAs (Decidable (Letter c ∨ _ ∨ _))
instance : DecidablePred BoundLater := fun c => inferInstanceAs (Decidable (Letter c ∨ _ ∨ _))

/-- No character of a class stands at the front of a text. -/
def Ends (extending : Char → Prop) (rest : List Char) : Prop :=
  ∀ c later, rest = c :: later → ¬extending c

/-! ## Readings -/

/-- What the front of a text can mean: `R a source rest` says that `source` starts with a written
form of `a` and that `rest` is what follows it. -/
abbrev Reading (α : Type) := α → List Char → List Char → Prop

/-- White space, or none, from one place to another. -/
def Gap (source rest : List Char) : Prop :=
  ∃ white, (∀ c ∈ white, White c) ∧ source = white ++ rest

variable {α : Type}

/-- An item behind a separating character. -/
inductive Behind (c : Char) (R : Reading α) : Reading α
  | mk {a : α} {m m' rest : List Char} (gap : Gap m m') (item : R a m' rest) :
      Behind c R a (c :: m) rest

/-- Any number of items, with white space allowed before each. -/
inductive Further (R : Reading α) : Reading (List α)
  | done (rest : List Char) : Further R [] rest rest
  | next {a : α} {as : List α} {source s m rest : List Char} (gap : Gap source s)
      (item : R a s m) (later : Further R as m rest) : Further R (a :: as) source rest

/-- One item and any number of further ones. -/
inductive Items (R L : Reading α) : Reading (List α)
  | mk {a : α} {as : List α} {source m rest : List Char} (first : R a source m)
      (others : Further L as m rest) : Items R L (a :: as) source rest

/-! ## Tokens -/

/-- A node identifier, as long as it can be. -/
inductive NodeWritten : Reading String
  | mk {c : Char} {cs rest : List Char} (first : NodeFirst c) (later : ∀ x ∈ cs, NodeLater x)
      (ends : Ends NodeLater rest) : NodeWritten (String.ofList (c :: cs)) (c :: cs ++ rest) rest

/-- The name of a phase for which there can be a dump. -/
inductive PhaseWritten : Reading Phase
  | mk {p : Phase} {rest : List Char} (concrete : p ≠ .placeholder) :
      PhaseWritten p (p.name.toList ++ rest) rest

/-- Comparators by signs. -/
def signSpellings : List (String × Comparator) :=
  [("=", .eq), ("==", .eq), ("!=", .ne), ("<", .lt), ("<=", .le), (">", .gt), (">=", .ge)]

/-- Comparators by name, in small letters. -/
def wordSpellings : List (String × Comparator) :=
  [("eq", .eq), ("ne", .ne), ("lt", .lt), ("le", .le), ("gt", .gt), ("ge", .ge)]

/-- A comparator: signs that no sign follows, or letters of either case that no letter follows. -/
inductive ComparatorWritten : Reading Comparator
  | signs {c : Comparator} {text rest : List Char}
      (spelled : (String.ofList text, c) ∈ signSpellings) (ends : Ends Sign rest) :
      ComparatorWritten c (text ++ rest) rest
  | letters {c : Comparator} {text rest : List Char}
      (spelled : (String.ofList (text.map Char.toLower), c) ∈ wordSpellings)
      (ends : Ends Letter rest) : ComparatorWritten c (text ++ rest) rest

/-- A bound: perhaps a plus sign, then the decimal digits of a number of 64 bits. -/
inductive BoundWritten : Reading UInt64
  | mk {b : UInt64} {plus digits rest : List Char} (sign : plus = [] ∨ plus = ['+'])
      (filled : digits ≠ []) (decimal : ∀ d ∈ digits, Digit d)
      (value : b.toNat = Nat.ofDigits 10 (digits.reverse.map Text.digitValue))
      (ends : Ends BoundLater rest) : BoundWritten b (plus ++ digits ++ rest) rest

/-! ## Entries and lists -/

/-- A relation: a comparator with its bound, or a bound alone, which means equality. -/
inductive RelationWritten : Reading Relation
  | compared {c : Comparator} {b : UInt64} {source m m' rest : List Char}
      (comparator : ComparatorWritten c source m) (gap : Gap m m')
      (bound : BoundWritten b m' rest) : RelationWritten ⟨c, b⟩ source rest
  | bare {b : UInt64} {source rest : List Char} (bound : BoundWritten b source rest) :
      RelationWritten ⟨.eq, b⟩ source rest

/-- The phases before a node: distinct names with `|` between them and `:` after the last. -/
inductive PrefixWritten : Reading (List Phase)
  | mk {ps : List Phase} {source m m' rest : List Char}
      (names : Items PhaseWritten (Behind '|' PhaseWritten) ps source m) (distinct : ps.Nodup)
      (before : Gap m (':' :: m')) (after : Gap m' rest) : PrefixWritten ps source rest

/-- A node, perhaps behind phases. -/
inductive RefWritten : Reading (Option (List Phase) × String)
  | plain {node : String} {source rest : List Char} (ident : NodeWritten node source rest) :
      RefWritten (none, node) source rest
  | prefixed {ps : List Phase} {node : String} {source m rest : List Char}
      (phases : PrefixWritten ps source m) (ident : NodeWritten node m rest) :
      RefWritten (some ps, node) source rest

/-- What a clause says, apart from where it stands. -/
structure Content where
  phases : Option (List Phase)
  node : String
  demand : Demand
deriving DecidableEq

/-- An entry of the forbidding list. -/
inductive FailOnWritten : Reading Content
  | mk {phases : Option (List Phase)} {node : String} {source rest : List Char}
      (ref : RefWritten (phases, node) source rest) :
      FailOnWritten ⟨phases, node, .failOn⟩ source rest

/-- An entry of the counting list. -/
inductive CountsWritten : Reading Content
  | mk {phases : Option (List Phase)} {node : String} {relations : List Relation}
      {source m m' rest : List Char} (ref : RefWritten (phases, node) source m) (gap : Gap m m')
      (related : Items RelationWritten RelationWritten relations m' rest) :
      CountsWritten ⟨phases, node, .counts relations⟩ source rest

/-- A whole text: white space alone, or entries with commas between them and perhaps one more
comma. -/
inductive ListWritten (R : Reading α) : List α → List Char → Prop
  | blank {source : List Char} (gap : Gap source []) : ListWritten R [] source
  | filled {as : List α} {source s m : List Char} (before : Gap source s)
      (entries : Items R (Behind ',' R) as s m)
      (after : Gap m [] ∨ ∃ m', Gap m (',' :: m') ∧ Gap m' []) : ListWritten R as source

end DumpRules.Grammar

namespace DumpRules

/-- What a clause says, apart from where it stands. -/
def Clause.content (c : Clause) : Grammar.Content :=
  ⟨c.phases, c.node, c.demand⟩

end DumpRules
