/-!
JSON documents. An object keeps its fields in the order of the text, repeated names included, and a
number keeps its written form: what either means is for the reader of a particular document to say.
-/

namespace DumpRules

set_option autoImplicit false

/-- A JSON document. -/
inductive Json where
  | null
  | bool (b : Bool)
  /-- A number in its written form. -/
  | number (text : String)
  | string (s : String)
  | array (items : List Json)
  | object (fields : List (String × Json))

namespace Json

/-- A count as a number. -/
def nat (n : Nat) : Json :=
  number (toString n)

/-- A text, or nothing. -/
def optionalString : Option String → Json
  | none => null
  | some s => string s

/-- Texts as an array. -/
def strings (ss : List String) : Json :=
  array (ss.map string)

/-- Inserts a field into fields that are in ascending order of their names. -/
def insertField (name : String) (value : Json) : List (String × Json) → List (String × Json)
  | [] => [(name, value)]
  | (n, v) :: later =>
    if name < n then (name, value) :: (n, v) :: later else (n, v) :: insertField name value later

mutual

/-- A document with the fields of every object in ascending order of their names. -/
def sorted : Json → Json
  | array items => array (sortedItems items)
  | object fields => object (sortedFields fields)
  | other => other

/-- Documents with the fields of every object in order. -/
def sortedItems : List Json → List Json
  | [] => []
  | j :: later => j.sorted :: sortedItems later

/-- Fields in order, with the fields of every object in them in order too. -/
def sortedFields : List (String × Json) → List (String × Json)
  | [] => []
  | (name, value) :: later => insertField name value.sorted (sortedFields later)

end

end Json

end DumpRules
