import DumpRules.Catalog.Node
import DumpRules.Rule.Declaration
import DumpRules.Suite.Path
import DumpRules.Text.Decimal

/-!
The manifest of a suite: its catalog, the flags that the dumps were captured under, the rules to
check and the files of the dumps. A manifest can be read and still be unusable; `issues` lists
everything that is wrong with it.
-/

namespace DumpRules

set_option autoImplicit false

/-- A suite of rules with all that is needed to check them. -/
structure Manifest where
  schemaVersion : UInt32
  suiteName : String
  description : Option String := none
  flags : Bindings String := .empty
  nodes : List NodeEntry
  rules : List RuleDeclaration
  /-- Names of phases, each with the file of its dump. -/
  dumps : Bindings String := .empty
deriving DecidableEq

/-- The version of the manifest's form that is understood. -/
def currentSchema : UInt32 := 1

/-! ### As JSON -/

/-- Names bound to texts, as a document. -/
def Bindings.toJson (b : Bindings String) : Json :=
  .object (b.entries.map fun (name, value) => (name, .string value))

/-- A whole number of 32 bits, written without sign, fraction and exponent. -/
def Json.asUInt32? : Json → Option UInt32
  | .number text =>
    (Text.numeral? text.toList).bind fun n => if n < UInt32.size then some n.toUInt32 else none
  | _ => none

namespace Manifest

/-- A manifest as a document. -/
def toJson (m : Manifest) : Json :=
  .object [
    ("schema_version", .nat m.schemaVersion.toNat),
    ("suite_name", .string m.suiteName),
    ("description", .optionalString m.description),
    ("flags", m.flags.toJson),
    ("nodes", .array (m.nodes.map NodeEntry.toJson)),
    ("rules", .array (m.rules.map RuleDeclaration.toJson)),
    ("dumps", m.dumps.toJson)]

/-- Reads a manifest. -/
def ofJson? (j : Json) : Option Manifest := do
  let [version, name, description, flags, nodes, rules, dumps] ←
    j.record? ["schema_version", "suite_name", "description", "flags", "nodes", "rules", "dumps"]
    | none
  some {
    schemaVersion := ← Json.required Json.asUInt32? version
    suiteName := ← Json.required Json.asString? name
    description := ← Json.nullable Json.asString? description
    flags := ← Json.withDefault .empty Json.asBindings? flags
    nodes := ← Json.required (Json.asList? NodeEntry.ofJson?) nodes
    rules := ← Json.required (Json.asList? RuleDeclaration.ofJson?) rules
    dumps := ← Json.withDefault .empty Json.asBindings? dumps }

end Manifest

/-! ### What can be wrong with a manifest -/

/-- Something that is wrong with a manifest. Rules are numbered from 0 here. -/
inductive ManifestIssue where
  | schemaVersion (found : UInt32)
  | blankSuiteName
  | noRules
  | blankRuleName (index : Nat)
  | duplicateRuleName (index : Nat) (name : String)
  | blankFlagName
  | placeholderDump
  | unknownDump (key : String)
  | blankDumpPath (key : String)
deriving DecidableEq

/-- The text of the message. -/
def ManifestIssue.message : ManifestIssue → String
  | schemaVersion found =>
    s!"schema_version must be {currentSchema.toNat}, got {found.toNat}"
  | blankSuiteName => "suite_name must be non-empty"
  | noRules => "rules must be non-empty"
  | blankRuleName index => s!"rules[{index}]: name must be non-empty when given"
  | duplicateRuleName index name => s!"rules[{index}]: duplicate name '{name}'"
  | blankFlagName => "flags: flag names must be non-empty"
  | placeholderDump => "dumps: DEFAULT is not a capturable phase"
  | unknownDump key => "dumps: " ++ Phase.unknownMessage key
  | blankDumpPath key => s!"dumps.{key}: path must be non-empty"

/-- What is wrong with the names of rules, the first of which has the number `index`; `seen` are the
names before it. -/
def ruleNameIssues (seen : List String) (index : Nat) : List RuleDeclaration → List ManifestIssue
  | [] => []
  | r :: later =>
    match r.name with
    | none => ruleNameIssues seen (index + 1) later
    | some name =>
      if Text.isBlankText name then .blankRuleName index :: ruleNameIssues seen (index + 1) later
      else if name ∈ seen then
        .duplicateRuleName index name :: ruleNameIssues seen (index + 1) later
      else ruleNameIssues (name :: seen) (index + 1) later

/-- What is wrong with the file of a dump. -/
def dumpIssues : String × String → List ManifestIssue
  | (key, path) =>
    let phase :=
      match Phase.read? key with
      | some .placeholder => [.placeholderDump]
      | some _ => []
      | none => [.unknownDump key]
    phase ++ if Text.isBlankText path then [.blankDumpPath key] else []

namespace Manifest

/-- Everything that is wrong with a manifest. -/
def issues (m : Manifest) : List ManifestIssue :=
  (if m.schemaVersion = currentSchema then [] else [.schemaVersion m.schemaVersion]) ++
  (if Text.isBlankText m.suiteName then [.blankSuiteName] else []) ++
  (if m.rules.isEmpty then [.noRules] else []) ++
  ruleNameIssues [] 0 m.rules ++
  (m.flags.keys.filter Text.isBlankText).map (fun _ => .blankFlagName) ++
  m.dumps.entries.flatMap dumpIssues

/-! ### Dumps and flags -/

/-- The files of the dumps by phase, found from the directory of the manifest. Keys that name no
phase are left out. -/
def dumpPaths (m : Manifest) (manifestPath : String) : List (Phase × String) :=
  let directory := (Path.parent? manifestPath).getD "."
  m.dumps.entries.filterMap fun (key, file) =>
    (Phase.read? key).map fun phase => (phase, Path.join directory file)

end Manifest

/-- A setting of a flag that is not of the form `NAME=VALUE`. -/
structure OverrideError where
  raw : String
deriving DecidableEq

/-- The text of the message. -/
def OverrideError.message (e : OverrideError) : String :=
  s!"Invalid --flag '{e.raw}': expected NAME=VALUE"

/-- Reads a setting of a flag: what stands before and behind the first `=`, trimmed. The name must
not be blank. -/
def readOverride (raw : String) : Except OverrideError (String × String) :=
  let cs := raw.toList
  let name := cs.takeWhile (· ≠ '=')
  match cs.dropWhile (· ≠ '=') with
  | [] => .error ⟨raw⟩
  | _ :: value =>
    if name.all Text.isBlank then .error ⟨raw⟩
    else .ok (String.ofList (Text.trimChars name), String.ofList (Text.trimChars value))

/-- Flags with settings applied one after the other, up to the first that cannot be read. -/
def applyOverrides (flags : Bindings String) : List String → Except OverrideError (Bindings String)
  | [] => .ok flags
  | raw :: later =>
    match readOverride raw with
    | .error e => .error e
    | .ok (name, value) => applyOverrides (flags.insert name value) later

end DumpRules
