import DumpRules.Bindings
import DumpRules.Catalog.Basic
import DumpRules.Catalog.Node

/-!
A registry is a catalog built from entries. It takes entries only if every pattern is well-formed,
every default phase is one in whose dump the node is defined, and no node is entered twice. Entries
are judged in order and the first fault is reported. Which patterns are well-formed is decided by a
compiler, that of this library unless another is given.
-/

namespace DumpRules

set_option autoImplicit false

/-- Why an entry is not taken. -/
inductive RegistryError where
  | duplicate (node : String)
  | invalidRegex (node : String)
  | placeholderDefault (node : String)
  | defaultOutsideClasses (node : String) (phase : Phase)
deriving DecidableEq

namespace RegistryError

/-- The text of the message. -/
def message : RegistryError → String
  | duplicate node => s!"Node \"{node}\" is registered twice"
  | invalidRegex node => s!"Node \"{node}\" has an invalid regex"
  | placeholderDefault node => s!"Node \"{node}\" uses DEFAULT as a concrete default phase"
  | defaultOutsideClasses node phase =>
    s!"Node \"{node}\" defaults to {phase.name}, but is not defined for that phase"

/-- The code under which the error is documented. -/
def code : RegistryError → String
  | duplicate _ => "irmatch::catalog::duplicate"
  | invalidRegex _ => "irmatch::catalog::invalid_regex"
  | placeholderDefault _ => "irmatch::catalog::placeholder_default"
  | defaultOutsideClasses _ _ => "irmatch::catalog::default_outside_classes"

end RegistryError

/-- An entry with its pattern. -/
structure RegisteredNode where
  entry : NodeEntry
  pattern : Pattern

/-- A catalog of entries, in the order in which they were given. -/
structure Registry where
  nodes : List RegisteredNode

/-- The pattern of an entry, if it is well-formed. -/
def NodeEntry.pattern? (e : NodeEntry) (compile : Regex.Compiler := Regex.parse?) :
    Option Pattern :=
  match e.regex with
  | none => some (Pattern.word e.name)
  | some source => Pattern.ofSource? e.name source compile

/-- The first default phase of an entry that does not suit it. -/
def NodeEntry.badDefault? (e : NodeEntry) : List Phase → Option RegistryError
  | [] => none
  | p :: later =>
    if p = .placeholder then some (.placeholderDefault e.name)
    else if e.isDefinedIn p then e.badDefault? later
    else some (.defaultOutsideClasses e.name p)

namespace Registry

/-- A registry without nodes. -/
def empty : Registry := ⟨[]⟩

/-- What is registered under a name. -/
def find? (r : Registry) (name : String) : Option RegisteredNode :=
  r.nodes.find? fun n => n.entry.name == name

/-- The entry of a node. -/
def get? (r : Registry) (name : String) : Option NodeEntry :=
  (r.find? name).map (·.entry)

/-- Whether a node is registered. -/
def contains (r : Registry) (name : String) : Bool :=
  (r.find? name).isSome

/-- The number of nodes. -/
def size (r : Registry) : Nat :=
  r.nodes.length

/-- Takes one more entry. -/
def register (r : Registry) (e : NodeEntry) (compile : Regex.Compiler := Regex.parse?) :
    Except RegistryError Registry :=
  match e.pattern? compile with
  | none => .error (.invalidRegex e.name)
  | some pattern =>
    match e.badDefault? e.defaults with
    | some error => .error error
    | none =>
      if r.contains e.name then .error (.duplicate e.name)
      else .ok ⟨r.nodes ++ [{ entry := e, pattern }]⟩

/-- Takes more entries, one after the other. -/
def registerAll (r : Registry) (entries : List NodeEntry)
    (compile : Regex.Compiler := Regex.parse?) : Except RegistryError Registry :=
  match entries with
  | [] => .ok r
  | e :: later =>
    match r.register e compile with
    | .ok r => r.registerAll later compile
    | .error error => .error error

/-- The registry of some entries. -/
def ofEntries (entries : List NodeEntry) (compile : Regex.Compiler := Regex.parse?) :
    Except RegistryError Registry :=
  empty.registerAll entries compile

/-- The pattern of a node in a phase. -/
def pattern (r : Registry) (name : String) (p : Phase) : Except ResolveError Pattern :=
  match r.find? name with
  | none => .error (.unknownNode name)
  | some n =>
    if n.entry.isDefinedIn p then .ok n.pattern else .error (.undefinedInPhase name p)

/-- The default phase of a node, given the values of the flags. -/
def defaultPhase (r : Registry) (flags : String → Option String) (name : String) :
    Option Phase :=
  (r.get? name).bind fun e => e.defaultUnder flags

/-- A registry as a catalog. -/
def catalog (r : Registry) : Catalog where
  contains := r.contains
  pattern := r.pattern

end Registry

/-- A registry together with the flags of a run. -/
structure Setup where
  registry : Registry
  flags : Bindings String := .empty

namespace Setup

/-- The catalog of a setup. -/
def catalog (s : Setup) : Catalog :=
  s.registry.catalog

/-- The machine of a setup. -/
def machine (s : Setup) : Machine where
  flag := s.flags.get?
  defaultPhase := s.registry.defaultPhase s.flags.get?

end Setup

end DumpRules
