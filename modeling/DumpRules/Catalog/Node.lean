import DumpRules.Json.Record
import DumpRules.Phase

/-!
What is said of a node in a catalog: how it is looked for, in which kinds of dump it can occur, and
the phase in which it is looked for by default, which may depend on the flags of the run.
-/

namespace DumpRules

set_option autoImplicit false

/-- A default phase that holds while a flag has a given value. -/
structure DefaultOverride where
  flag : String
  value : String
  phase : Phase
deriving DecidableEq

/-- The catalog's entry for a node. -/
structure NodeEntry where
  name : String
  /-- The pattern to look for; the name as a whole word if there is none. -/
  regex : Option String := none
  /-- The kinds of dump in which the node is defined; none listed means all. -/
  classes : List OutputClass := []
  defaultPhase : Option Phase := none
  /-- The first that holds comes before the default phase. -/
  overrides : List DefaultOverride := []
deriving DecidableEq

namespace NodeEntry

/-- Whether the node is defined in the dump of a phase. -/
def isDefinedIn (e : NodeEntry) (p : Phase) : Bool :=
  match p.outputClass? with
  | none => false
  | some c => e.classes.isEmpty || e.classes.contains c

/-- All phases that are named as a default. -/
def defaults (e : NodeEntry) : List Phase :=
  e.defaultPhase.toList ++ e.overrides.map (·.phase)

/-- The phase in which the node is looked for by default, given the values of the flags. -/
def defaultUnder (e : NodeEntry) (flags : String → Option String) : Option Phase :=
  match e.overrides.find? fun o => flags o.flag == some o.value with
  | some o => some o.phase
  | none => e.defaultPhase

end NodeEntry

/-! ### As JSON -/

namespace DefaultOverride

/-- An override as a document. -/
def toJson (o : DefaultOverride) : Json :=
  .object [("flag", .string o.flag), ("value", .string o.value), ("phase", .string o.phase.name)]

/-- Reads an override. -/
def ofJson? (j : Json) : Option DefaultOverride := do
  let [flag, value, phase] ← j.record? ["flag", "value", "phase"] | none
  some {
    flag := ← Json.required Json.asString? flag
    value := ← Json.required Json.asString? value
    phase := ← Json.required (Json.asName? Phase.ofName?) phase }

end DefaultOverride

namespace NodeEntry

/-- An entry as a document. -/
def toJson (e : NodeEntry) : Json :=
  .object [
    ("name", .string e.name),
    ("regex", .optionalString e.regex),
    ("classes", .strings (e.classes.map OutputClass.name)),
    ("default_phase", .optionalString (e.defaultPhase.map Phase.name)),
    ("default_overrides", .array (e.overrides.map DefaultOverride.toJson))]

/-- Reads an entry. -/
def ofJson? (j : Json) : Option NodeEntry := do
  let [name, regex, classes, defaultPhase, overrides] ←
    j.record? ["name", "regex", "classes", "default_phase", "default_overrides"] | none
  some {
    name := ← Json.required Json.asString? name
    regex := ← Json.nullable Json.asString? regex
    classes := ← Json.withDefault [] (Json.asList? (Json.asName? OutputClass.ofName?)) classes
    defaultPhase := ← Json.nullable (Json.asName? Phase.ofName?) defaultPhase
    overrides := ← Json.withDefault [] (Json.asList? DefaultOverride.ofJson?) overrides }

end NodeEntry

end DumpRules
