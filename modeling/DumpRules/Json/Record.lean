import DumpRules.Bindings
import DumpRules.Json.Basic

/-!
Reading documents of a known shape. A record is an object whose fields are all known and none of them
repeated, or an array of its first fields in order. Which fields may be missing is said where each
field is read.
-/

namespace DumpRules.Json

set_option autoImplicit false

variable {α : Type}

/-- The values of the named fields of a record, each missing or present. -/
def record? (names : List String) : Json → Option (List (Option Json))
  | object fields =>
    let given := fields.map Prod.fst
    if given.all names.contains && decide given.Nodup then
      some (names.map fun name => fields.lookup name)
    else none
  | array items =>
    if items.length ≤ names.length then
      some (names.mapIdx fun i _ => items[i]?)
    else none
  | _ => none

/-- A field that must be there. -/
def required (read : Json → Option α) (field : Option Json) : Option α :=
  field.bind read

/-- A field that stands for `value` when it is missing. -/
def withDefault (value : α) (read : Json → Option α) : Option Json → Option α
  | none => some value
  | some j => read j

/-- A field that may be missing or null. -/
def nullable (read : Json → Option α) : Option Json → Option (Option α)
  | none => some none
  | some null => some none
  | some j => (read j).map some

/-- A text. -/
def asString? : Json → Option String
  | string s => some s
  | _ => none

/-- The items of an array, each read in the same way. -/
def asList? (read : Json → Option α) : Json → Option (List α)
  | array items => items.mapM read
  | _ => none

/-- One of several names: a text, or an object with the name as its only field and null as the
value. -/
def asName? (ofName? : String → Option α) : Json → Option α
  | string s => ofName? s
  | object [(name, null)] => ofName? name
  | _ => none

/-- Names bound to texts. A name that is repeated keeps its first place and takes its last value. -/
def asBindings? : Json → Option (Bindings String)
  | object fields =>
    let binding (f : String × Json) : Option (String × String) :=
      (asString? f.2).map fun s => (f.1, s)
    (fields.mapM binding).map Bindings.ofList
  | _ => none

end DumpRules.Json
