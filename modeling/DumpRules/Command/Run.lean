import DumpRules.Command.Args
import DumpRules.Command.Log
import DumpRules.Command.Store
import DumpRules.Json.Printer
import DumpRules.Json.Reader
import DumpRules.Rule.Mode
import DumpRules.Suite.Report
import DumpRules.Catalog.Registry

/-!
The commands. `check` checks the rules of a suite against its dumps, `lint` only prepares them. A
command that fails prints nothing and writes nothing: the format of the output, the manifest, its
catalog, the flags, the dumps and the rules are all looked at before the first output.
-/

namespace DumpRules

set_option autoImplicit false

/-- The forms of output. -/
inductive Format where
  | text
  | json
deriving DecidableEq

/-- The form of output with a given name. -/
def Format.ofName? : String → Option Format
  | "text" => some text
  | "json" => some json
  | _ => none

/-- What is said of a text that names no form of output. -/
def Format.unknownMessage (name : String) : String :=
  s!"Unknown output format: {name}. Use 'text' or 'json'."

/-- Why a command fails. -/
inductive CommandError where
  | unknownFormat (name : String)
  | unreadableManifest (path : String)
  | malformedManifest (path : String)
  | invalidManifest (issues : List ManifestIssue)
  | registry (e : RegistryError)
  | flag (e : OverrideError)
  | unreadableDump (phase : Phase) (path : String)
  | rules (es : RuleErrors)
  | unwritableReport (path : String)

/-- The text of the message; that a file cannot be used is for its store to explain. -/
def CommandError.message? : CommandError → Option String
  | unknownFormat name => some (Format.unknownMessage name)
  | unreadableManifest _ => none
  | malformedManifest _ => none
  | invalidManifest issues =>
    some ("Suite manifest validation failed:\n  " ++
      "\n  ".intercalate (issues.map ManifestIssue.message))
  | registry e => some e.message
  | flag e => some e.message
  | unreadableDump phase path => some s!"Cannot read dump for {phase.name}: {path}"
  | rules es => some es.message
  | unwritableReport _ => none

/-- What a command leaves behind, its files aside. -/
structure Outcome where
  exitCode : Nat
  output : String := ""
  log : List LogLine := []
  error : Option CommandError := none

/-- The outcome of a command that fails. -/
def Outcome.failed (log : List LogLine) (error : CommandError) : Outcome :=
  { exitCode := 1, log, error := some error }

/-- A suite with all that its manifest says worked in. -/
structure Suite where
  format : Format
  manifest : Manifest
  setup : Setup

/-- Reads a manifest from its text. -/
def Manifest.ofText? (text : String) : Option Manifest :=
  (Json.parse? text).bind Manifest.ofJson?

/-- The suite of a manifest, under the format and the flags of the command line. -/
def Suite.ofManifest (format : Format) (flags : List String) (manifest : Manifest)
    (compile : Regex.Compiler := Regex.parse?) : Except CommandError Suite := do
  unless manifest.issues.isEmpty do throw (.invalidManifest manifest.issues)
  let registry ← (Registry.ofEntries manifest.nodes compile).mapError .registry
  let flags ← (applyOverrides manifest.flags flags).mapError .flag
  return { format, manifest, setup := { registry, flags } }

variable {m : Type → Type} [Monad m]

/-- Loads the suite that a command is about. -/
def loadSuite (store : Store m) (o : Options) (compile : Regex.Compiler := Regex.parse?) :
    ExceptT CommandError m Suite := do
  let some format := Format.ofName? o.format | throw (.unknownFormat o.format)
  let some text ← store.read o.manifest | throw (.unreadableManifest o.manifest)
  let some manifest := Manifest.ofText? text | throw (.malformedManifest o.manifest)
  ExceptT.mk (pure (Suite.ofManifest format o.flags manifest compile))

/-- Reads dumps one after the other. -/
def readDumps (store : Store m) (dumps : Dumps) :
    List (Phase × String) → ExceptT CommandError m Dumps
  | [] => return dumps
  | (phase, path) :: later => do
    let some text ← store.read path | throw (.unreadableDump phase path)
    readDumps store (dumps.insert phase text) later

/-- Writes the report to a file, if one is asked for; gives the lines of the log. -/
def writeReport (store : Store m) (out : Option String) (text : String) :
    ExceptT CommandError m (List LogLine) := do
  match out with
  | none => return []
  | some path =>
    if ← store.write path text then
      return [{ level := .info, message := s!"Check report written to {path}" }]
    else throw (.unwritableReport path)

/-- Checks a suite against its dumps. -/
def runCheck (store : Store m) (o : Options) (compile : Regex.Compiler := Regex.parse?) :
    m Outcome := do
  let loaded ← (do
    let suite ← loadSuite store o compile
    let dumps ← readDumps store .empty (suite.manifest.dumpPaths o.manifest)
    return (suite, dumps) : ExceptT CommandError m (Suite × Dumps)).run
  match loaded with
  | .error e => return .failed [] e
  | .ok (suite, dumps) =>
    let manifest := suite.manifest
    let headline : LogLine :=
      { level := .info
        message :=
          s!"Checking {manifest.rules.length} IR rule(s) of suite {manifest.suiteName}..." }
    let mode : EvalMode := if o.parallel then .parallel else .sequential
    let checked := checkRulesIn mode suite.setup.machine suite.setup.catalog dumps manifest.rules
    let log := headline :: Event.lines checked.events
    match checked.value with
    | .error es => return .failed log (.rules es)
    | .ok rules =>
      let report : SuiteReport :=
        { suiteName := manifest.suiteName, flags := suite.setup.flags, rules }
      let document := report.toJson.pretty
      match ← (writeReport store o.out document).run with
      | .error e => return .failed log e
      | .ok written =>
        return {
          exitCode := if report.isPass then 0 else 2
          output :=
            match suite.format with
            | .text => report.text
            | .json => document ++ "\n"
          log := log ++ written }

/-- Prepares the rules of a suite. -/
def runLint (store : Store m) (o : Options) (compile : Regex.Compiler := Regex.parse?) :
    m Outcome := do
  match ← (loadSuite store o compile).run with
  | .error e => return .failed [] e
  | .ok suite =>
    let prepared := prepareRules suite.setup.machine suite.setup.catalog suite.manifest.rules
    let log := Event.lines prepared.events
    match prepared.value with
    | .error es => return .failed log (.rules es)
    | .ok rules =>
      let report : LintReport :=
        { suiteName := suite.manifest.suiteName, rules := rules.map LintedRule.ofPrepared }
      return {
        exitCode := 0
        output :=
          match suite.format with
          | .text => report.text
          | .json => report.toJson.pretty ++ "\n"
        log }

/-- How the program is used. -/
def usage : String :=
  "Check IR rules against per-phase compiler dumps\n\n" ++
  "Usage: irmatch <COMMAND>\n\n" ++
  "Commands:\n" ++
  "  check  Check every rule of a manifest against its captured dumps\n" ++
  "  lint   Parse, validate and resolve every rule without reading any dump\n" ++
  "  help   Print this message or the help of the given subcommand(s)\n\n" ++
  "Options:\n" ++
  "  -h, --help     Print help\n" ++
  "  -V, --version  Print version\n"

/-- The version of the program. -/
def versionText : String := "irmatch 0.1.0\n"

/-- Does what some arguments ask for. -/
def run (store : Store m) (args : List String) (compile : Regex.Compiler := Regex.parse?) :
    m (Except UsageError Outcome) := do
  match Invocation.ofArgs args with
  | .error e => return .error e
  | .ok .help => return .ok { exitCode := 0, output := usage }
  | .ok .version => return .ok { exitCode := 0, output := versionText }
  | .ok (.run .check o) => return .ok (← runCheck store o compile)
  | .ok (.run .lint o) => return .ok (← runLint store o compile)

end DumpRules
