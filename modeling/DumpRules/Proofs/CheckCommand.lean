import DumpRules.Command.Run
import DumpRules.Proofs.Files
import DumpRules.Proofs.Independence
import DumpRules.Proofs.Reports
import DumpRules.Proofs.SuiteTexts
import Mathlib.Data.List.Forall2

/-!
# A check delivers everything or nothing

A check reads its files, makes a report and only then writes and prints. `Refused` lists the reasons
for which it makes none, each of them on its own, and `Checked` says which report it makes, from the
files and the flags alone. The two exclude each other (`Checked.not_refused`) and one of them holds
(`runCheck_cases`), so a check that is refused has neither printed nor written anything. One that is
not, and that may write its report where it was asked for, leaves the same verdict in its exit code,
in what it prints and in what it writes (`Delivered`); `check_atomic` says this of every command
line, on every file system and with every compiler of patterns.
-/

namespace DumpRules

set_option autoImplicit false

variable {σ : Type} {fs : FileSystem σ} {compile : Regex.Compiler} {s : σ} {o : Options}

/-! ## What a command finds -/

namespace FileSystem

/-- The manifest in a file. -/
def manifest? (fs : FileSystem σ) (s : σ) (path : String) : Option Manifest :=
  (fs.read s path).bind Manifest.ofText?

/-- A file of a dump with its phase, and the text it holds. -/
def Dumped (fs : FileSystem σ) (s : σ) (file dump : Phase × String) : Prop :=
  dump.1 = file.1 ∧ fs.read s file.2 = some dump.2

/-- The report is asked for where it may not be written. -/
def Blocks (fs : FileSystem σ) (s : σ) (out : Option String) : Prop :=
  ∃ path, out = some path ∧ fs.allows s path = false

end FileSystem

/-- Why a check makes no report. Each reason is enough, whatever else is wrong. -/
inductive Refused (fs : FileSystem σ) (compile : Regex.Compiler) (s : σ) (o : Options) : Prop
  | format (unknown : Format.ofName? o.format = none)
  | unreadable (missing : fs.manifest? s o.manifest = none)
  | invalid {manifest : Manifest} (given : fs.manifest? s o.manifest = some manifest)
      (wrong : manifest.issues ≠ [])
  | registry {manifest : Manifest} {e : RegistryError}
      (given : fs.manifest? s o.manifest = some manifest)
      (refused : Registry.ofEntries manifest.nodes compile = .error e)
  | flag {manifest : Manifest} {e : OverrideError}
      (given : fs.manifest? s o.manifest = some manifest)
      (refused : applyOverrides manifest.flags o.flags = .error e)
  | dump {manifest : Manifest} {file : Phase × String}
      (given : fs.manifest? s o.manifest = some manifest)
      (listed : file ∈ manifest.dumpPaths o.manifest) (missing : fs.read s file.2 = none)
  | rules {manifest : Manifest} {registry : Registry} {flags : Bindings String} {es : RuleErrors}
      (given : fs.manifest? s o.manifest = some manifest)
      (taken : Registry.ofEntries manifest.nodes compile = .ok registry)
      (set : applyOverrides manifest.flags o.flags = .ok flags)
      (refused : (prepareRules (Setup.mk registry flags).machine (Setup.mk registry flags).catalog
        manifest.rules).value = .error es)

/-- The report that a command is to make, as its files and its flags determine it. -/
inductive Checked (fs : FileSystem σ) (compile : Regex.Compiler) (s : σ) (o : Options) :
    SuiteReport → Prop
  | mk {manifest : Manifest} {registry : Registry} {flags : Bindings String}
      {texts : List (Phase × String)} {rules : List RuleReport}
      (given : fs.manifest? s o.manifest = some manifest)
      (valid : manifest.issues = [])
      (taken : Registry.ofEntries manifest.nodes compile = .ok registry)
      (set : applyOverrides manifest.flags o.flags = .ok flags)
      (dumped : List.Forall₂ (fs.Dumped s) (manifest.dumpPaths o.manifest) texts)
      (checked : (checkRules (Setup.mk registry flags).machine (Setup.mk registry flags).catalog
        (Dumps.empty.insertAll texts) manifest.rules).value = .ok rules) :
      Checked fs compile s o { suiteName := manifest.suiteName, flags, rules }

/-! ## Loading -/

section Steps

variable {α β : Type} {x : ExceptT CommandError (StateM σ) α}
  {next : α → ExceptT CommandError (StateM σ) β} {s' : σ}

theorem run_bind_of_ok {a : α} (done : x.run.run s = (.ok a, s')) :
    (x >>= next).run.run s = (next a).run.run s' := by
  rw [ExceptT.run_bind, StateT.run_bind, done]
  rfl

theorem run_bind_of_error {e : CommandError} (failed : x.run.run s = (.error e, s')) :
    (x >>= next).run.run s = (.error e, s') := by
  rw [ExceptT.run_bind, StateT.run_bind, failed]
  rfl

theorem run_read (fs : FileSystem σ) (s : σ) (path : String) :
    (liftM (fs.store.read path) : ExceptT CommandError (StateM σ) (Option String)).run.run s =
      (.ok (fs.read s path), s) :=
  rfl

theorem run_write (fs : FileSystem σ) (s : σ) (path text : String) :
    (liftM (fs.store.write path text) : ExceptT CommandError (StateM σ) Bool).run.run s =
      (.ok (fs.allows s path), fs.write s path text) :=
  rfl

end Steps

/-- What is known of a suite that was loaded. -/
structure Loaded (fs : FileSystem σ) (compile : Regex.Compiler) (s : σ) (o : Options)
    (suite : Suite) : Prop where
  format : Format.ofName? o.format = some suite.format
  given : fs.manifest? s o.manifest = some suite.manifest
  valid : suite.manifest.issues = []
  taken : Registry.ofEntries suite.manifest.nodes compile = .ok suite.setup.registry
  set : applyOverrides suite.manifest.flags o.flags = .ok suite.setup.flags

theorem ofManifest_cases (compile : Regex.Compiler) {manifest : Manifest} (format : Format)
    (known : Format.ofName? o.format = some format)
    (given : fs.manifest? s o.manifest = some manifest) :
    (Refused fs compile s o ∧ ∃ e, Suite.ofManifest format o.flags manifest compile = .error e) ∨
      ∃ suite, Loaded fs compile s o suite ∧
        Suite.ofManifest format o.flags manifest compile = .ok suite := by
  unfold Suite.ofManifest
  cases valid : manifest.issues with
  | cons issue others =>
      have wrong : manifest.issues ≠ [] := by
        rw [valid]
        exact List.cons_ne_nil issue others
      exact .inl ⟨.invalid given wrong, .invalidManifest (issue :: others), rfl⟩
  | nil =>
      cases taken : Registry.ofEntries manifest.nodes compile with
      | error e => exact .inl ⟨.registry given taken, .registry e, rfl⟩
      | ok registry =>
          cases set : applyOverrides manifest.flags o.flags with
          | error e => exact .inl ⟨.flag given set, .flag e, rfl⟩
          | ok flags =>
              refine .inr ⟨⟨format, manifest, registry, flags⟩, ?_, rfl⟩
              exact { format := known, given, valid, taken, set }

/-- Loading a suite reads files only, and fails only for a reason. -/
theorem loadSuite_cases (fs : FileSystem σ) (compile : Regex.Compiler) (s : σ) (o : Options) :
    (Refused fs compile s o ∧ ∃ e, (loadSuite fs.store o compile).run.run s = (.error e, s)) ∨
      ∃ suite, Loaded fs compile s o suite ∧
        (loadSuite fs.store o compile).run.run s = (.ok suite, s) := by
  unfold loadSuite
  cases known : Format.ofName? o.format with
  | none => exact .inl ⟨.format known, .unknownFormat o.format, rfl⟩
  | some format =>
      simp only [run_bind_of_ok (run_read fs s o.manifest)]
      cases found : fs.read s o.manifest with
      | none =>
          have missing : fs.manifest? s o.manifest = none := by
            rw [FileSystem.manifest?, found, Option.bind_none]
          exact .inl ⟨.unreadable missing, .unreadableManifest o.manifest, rfl⟩
      | some text =>
          cases read : Manifest.ofText? text with
          | none =>
              have missing : fs.manifest? s o.manifest = none := by
                rw [FileSystem.manifest?, found, Option.bind_some, read]
              refine .inl ⟨.unreadable missing, .malformedManifest o.manifest, ?_⟩
              simp only [read]
              rfl
          | some manifest =>
              have given : fs.manifest? s o.manifest = some manifest := by
                rw [FileSystem.manifest?, found, Option.bind_some, read]
              simp only [read]
              rcases ofManifest_cases compile format known given with
                ⟨refused, e, result⟩ | ⟨suite, loaded, result⟩
              · refine .inl ⟨refused, e, ?_⟩
                rw [result]
                rfl
              · refine .inr ⟨suite, loaded, ?_⟩
                rw [result]
                rfl

/-- Reading dumps reads files only, and fails only if one of them cannot be read. -/
theorem readDumps_cases (fs : FileSystem σ) (s : σ) (files : List (Phase × String))
    (dumps : Dumps) :
    ((∃ file ∈ files, fs.read s file.2 = none) ∧
        ∃ e, (readDumps fs.store dumps files).run.run s = (.error e, s)) ∨
      ∃ texts, List.Forall₂ (fs.Dumped s) files texts ∧
        (readDumps fs.store dumps files).run.run s = (.ok (dumps.insertAll texts), s) := by
  induction files generalizing dumps with
  | nil => exact .inr ⟨[], .nil, rfl⟩
  | cons file later ih =>
      obtain ⟨phase, path⟩ := file
      simp only [readDumps, run_bind_of_ok (run_read fs s path)]
      cases found : fs.read s path with
      | none =>
          exact .inl ⟨⟨(phase, path), List.mem_cons_self, found⟩, .unreadableDump phase path, rfl⟩
      | some text =>
          rcases ih (dumps.insert phase text) with ⟨⟨file, member, missing⟩, failed⟩ |
            ⟨texts, dumped, done⟩
          · exact .inl ⟨⟨file, List.mem_cons_of_mem _ member, missing⟩, failed⟩
          · exact .inr ⟨(phase, text) :: texts, .cons ⟨rfl, found⟩ dumped, done⟩

/-! ## Checking -/

/-- The files after a report was written, if it was asked for. -/
def FileSystem.saved (fs : FileSystem σ) (s : σ) (out : Option String) (text : String) : σ :=
  match out with
  | none => s
  | some path => fs.write s path text

theorem FileSystem.not_blocks_none : ¬fs.Blocks s none := by
  rintro ⟨path, ⟨⟩, -⟩

theorem FileSystem.unchanged_saved {out : Option String} (blocked : fs.Blocks s out)
    (text : String) : fs.Unchanged s (fs.saved s out text) := by
  obtain ⟨path, rfl, closed⟩ := blocked
  exact fs.refused s path text closed

theorem writeReport_cases (fs : FileSystem σ) (s : σ) (out : Option String) (text : String) :
    (fs.Blocks s out ∧ ∃ e, (writeReport fs.store out text).run.run s =
        (.error e, fs.saved s out text)) ∨
      ¬fs.Blocks s out ∧ ∃ lines, (writeReport fs.store out text).run.run s =
        (.ok lines, fs.saved s out text) := by
  cases out with
  | none => exact .inr ⟨FileSystem.not_blocks_none, [], rfl⟩
  | some path =>
      have result := run_write fs s path text
      cases allowed : fs.allows s path with
      | false =>
          rw [allowed] at result
          refine .inl ⟨⟨path, rfl, allowed⟩, .unwritableReport path, ?_⟩
          rw [writeReport, run_bind_of_ok result]
          rfl
      | true =>
          rw [allowed] at result
          refine .inr ⟨?_, [{ level := .info, message := s!"Check report written to {path}" }], ?_⟩
          · rintro ⟨_, ⟨⟩, closed⟩
            cases allowed.symm.trans closed
          · rw [writeReport, run_bind_of_ok result]
            rfl

/-- What a command shows of a report. -/
def SuiteReport.shown (r : SuiteReport) : Format → String
  | .text => r.text
  | .json => r.toJson.pretty ++ "\n"

/-- Reads all that a check is about. -/
def loadAll (fs : FileSystem σ) (compile : Regex.Compiler) (o : Options) :
    ExceptT CommandError (StateM σ) (Suite × Dumps) := do
  let suite ← loadSuite fs.store o compile
  let dumps ← readDumps fs.store .empty (suite.manifest.dumpPaths o.manifest)
  return (suite, dumps)

theorem loadAll_cases (fs : FileSystem σ) (compile : Regex.Compiler) (s : σ) (o : Options) :
    (Refused fs compile s o ∧ ∃ e, (loadAll fs compile o).run.run s = (.error e, s)) ∨
      ∃ suite texts, Loaded fs compile s o suite ∧
        List.Forall₂ (fs.Dumped s) (suite.manifest.dumpPaths o.manifest) texts ∧
        (loadAll fs compile o).run.run s = (.ok (suite, Dumps.empty.insertAll texts), s) := by
  unfold loadAll
  rcases loadSuite_cases fs compile s o with ⟨refused, e, failed⟩ | ⟨suite, loaded, done⟩
  · exact .inl ⟨refused, e, run_bind_of_error failed⟩
  rw [run_bind_of_ok done]
  rcases readDumps_cases fs s (suite.manifest.dumpPaths o.manifest) .empty with
    ⟨⟨file, listed, missing⟩, e, failed⟩ | ⟨texts, dumped, done⟩
  · exact .inl ⟨.dump loaded.given listed missing, e, run_bind_of_error failed⟩
  · refine .inr ⟨suite, texts, loaded, dumped, ?_⟩
    rw [run_bind_of_ok done]
    rfl

/-- How a check that makes a report ends. -/
inductive Ends (fs : FileSystem σ) (s : σ) (o : Options) (format : Format) (r : SuiteReport) :
    Outcome → Prop
  | blocked (closed : fs.Blocks s o.out) (log : List LogLine) (e : CommandError) :
      Ends fs s o format r (.failed log e)
  | shown (opened : ¬fs.Blocks s o.out) (log : List LogLine) :
      Ends fs s o format r
        { exitCode := if r.isPass then 0 else 2, output := r.shown format, log }

/-- A check either fails for a reason, with nothing shown or changed, or its report is made, and
shown if it can be saved. -/
theorem runCheck_cases (fs : FileSystem σ) (compile : Regex.Compiler) (s : σ) (o : Options) :
    (Refused fs compile s o ∧
        ∃ log e, (runCheck fs.store o compile).run s = (.failed log e, s)) ∨
      ∃ format r outcome, Format.ofName? o.format = some format ∧ Checked fs compile s o r ∧
        Ends fs s o format r outcome ∧ (runCheck fs.store o compile).run s =
          (outcome, fs.saved s o.out r.toJson.pretty) := by
  rcases loadAll_cases fs compile s o with ⟨refused, e, failed⟩ |
    ⟨suite, texts, loaded, dumped, done⟩
  · refine .inl ⟨refused, [], e, ?_⟩
    show ((loadAll fs compile o).run >>= _).run s = _
    rw [StateT.run_bind, failed]
    rfl
  -- The files are read and nothing is changed: what is left is the last part of the command.
  have start {next : Except CommandError (Suite × Dumps) → StateM σ Outcome} :
      ((loadAll fs compile o).run >>= next).run s =
        (next (.ok (suite, Dumps.empty.insertAll texts))).run s := by
    rw [StateT.run_bind, done]
    rfl
  cases checked : (checkRules suite.setup.machine suite.setup.catalog (Dumps.empty.insertAll texts)
      suite.manifest.rules).value with
  | error es =>
      -- Checking rejects declarations only in preparing them, whatever was dumped.
      have refused := checked
      rw [checkRules_value, map_eq_error] at refused
      refine .inl ⟨.rules loaded.given loaded.taken loaded.set refused, ?before, .rules es,
        start.trans ?rejected⟩
      case rejected =>
        simp only [checkRulesIn_eq, checked]
        rfl
  | ok rules =>
      have made := Checked.mk loaded.given loaded.valid loaded.taken loaded.set dumped checked
      refine .inr ⟨suite.format, ⟨suite.manifest.suiteName, suite.setup.flags, rules⟩, ?_⟩
      rcases writeReport_cases fs s o.out
          (SuiteReport.toJson ⟨suite.manifest.suiteName, suite.setup.flags, rules⟩).pretty with
        ⟨closed, e, failed⟩ | ⟨opened, lines, written⟩
      · refine ⟨_, loaded.format, made, .blocked closed ?during e, start.trans ?unwritten⟩
        case unwritten =>
          simp only [checkRulesIn_eq, checked]
          rw [StateT.run_bind, failed]
          rfl
      · refine ⟨_, loaded.format, made, .shown opened ?all, start.trans ?shown⟩
        case shown =>
          simp only [checkRulesIn_eq, checked]
          rw [StateT.run_bind, written]
          rfl

/-! ## One or the other -/

theorem FileSystem.Dumped.unique : Relator.RightUnique (fs.Dumped s) := by
  rintro file ⟨phase, text⟩ ⟨phase', text'⟩ ⟨rfl, read⟩ ⟨rfl, read'⟩
  cases read.symm.trans read'
  rfl

/-- There is one report that a command can make. -/
theorem Checked.unique {r r' : SuiteReport} (checked : Checked fs compile s o r)
    (checked' : Checked fs compile s o r') : r' = r := by
  obtain ⟨given, -, taken, set, dumped, result⟩ := checked
  obtain ⟨given', -, taken', set', dumped', result'⟩ := checked'
  cases given.symm.trans given'
  cases taken.symm.trans taken'
  cases set.symm.trans set'
  cases List.right_unique_forall₂' FileSystem.Dumped.unique dumped dumped'
  cases result.symm.trans result'
  rfl

/-- Commands about the same manifest and with the same flags make the same report. -/
theorem Checked.congr {o' : Options} {r : SuiteReport} (checked : Checked fs compile s o r)
    (manifest : o'.manifest = o.manifest) (flags : o'.flags = o.flags) :
    Checked fs compile s o' r := by
  obtain ⟨given, valid, taken, set, dumped, result⟩ := checked
  rw [← manifest] at given dumped
  rw [← flags] at set
  exact .mk given valid taken set dumped result

/-- A command that makes its report has no reason to fail. -/
theorem Checked.not_refused {r : SuiteReport} {format : Format}
    (checked : Checked fs compile s o r) (known : Format.ofName? o.format = some format) :
    ¬Refused fs compile s o := by
  obtain ⟨given, valid, taken, set, dumped, result⟩ := checked
  intro refused
  cases refused with
  | format unknown => cases known.symm.trans unknown
  | unreadable missing => cases given.symm.trans missing
  | invalid given' wrong =>
      cases given.symm.trans given'
      exact wrong valid
  | registry given' refused =>
      cases given.symm.trans given'
      cases taken.symm.trans refused
  | flag given' refused =>
      cases given.symm.trans given'
      cases set.symm.trans refused
  | dump given' listed missing =>
      cases given.symm.trans given'
      obtain ⟨dump, -, read⟩ := Grammar.exists_of_forall₂ dumped.flip _ listed
      cases read.symm.trans missing
  | rules given' taken' set' refused =>
      cases given.symm.trans given'
      cases taken.symm.trans taken'
      cases set.symm.trans set'
      rw [checkRules_value, refused] at result
      cases result

theorem runCheck_of_checked {r : SuiteReport} {format : Format}
    (known : Format.ofName? o.format = some format) (checked : Checked fs compile s o r)
    (opened : ¬fs.Blocks s o.out) :
    ∃ log, (runCheck fs.store o compile).run s =
      ({ exitCode := if r.isPass then 0 else 2, output := r.shown format, log },
        fs.saved s o.out r.toJson.pretty) := by
  rcases runCheck_cases fs compile s o with ⟨refused, -⟩ |
    ⟨_, r', outcome, known', checked', ends, result⟩
  · exact absurd refused (checked.not_refused known)
  · cases known.symm.trans known'
    cases checked.unique checked'
    cases ends with
    | blocked closed => exact absurd closed opened
    | shown _ log => exact ⟨log, result⟩

/-! ## The command -/

/-- What a command line prints. -/
def Prints (fs : FileSystem σ) (compile : Regex.Compiler) (s : σ) (args : List String)
    (text : String) : Prop :=
  ∃ outcome s', (run fs.store args compile).run s = (.ok outcome, s') ∧ outcome.output = text

/-- A check of the same suite that shows the report as a document, and leaves it where the first one
does or nowhere. -/
structure ShownBy (o o' : Options) : Prop where
  manifest : o'.manifest = o.manifest
  flags : o'.flags = o.flags
  format : o'.format = "json"
  out : o'.out = none ∨ o'.out = o.out

/-- What a check leaves behind that makes its report and can save it: its exit code, what it prints
and what it writes agree on whether the suite fails. -/
structure Delivered (fs : FileSystem σ) (compile : Regex.Compiler) (s : σ) (o : Options)
    (r : SuiteReport) (outcome : Outcome) (s' : σ) : Prop where
  failed : outcome.exitCode = 2 ↔ r.Fails
  passed : outcome.exitCode = 0 ↔ ¬r.Fails
  words : o.format = "text" → r.TextTells outcome.output
  document : o.format = "json" → r.DocumentTells outcome.output
  unwritten : o.out = none → s' = s
  written : ∀ path, o.out = some path →
    ∃ text, fs.Written s path text s' ∧ r.DocumentTells text ∧
      ∀ args' o', Invocation.ofArgs args' = .ok (.run .check o') → ShownBy o o' →
        Prints fs compile s args' (text ++ "\n")

theorem run_check {args : List String} (asked : Invocation.ofArgs args = .ok (.run .check o)) :
    (run fs.store args compile).run s = (.ok ((runCheck fs.store o compile).run s).1,
      ((runCheck fs.store o compile).run s).2) := by
  unfold run
  rw [asked]
  rfl

theorem prints_document {o' : Options} {r : SuiteReport} (checked : Checked fs compile s o r)
    (opened : ¬fs.Blocks s o.out) (shown : ShownBy o o') {args : List String}
    (asked : Invocation.ofArgs args = .ok (.run .check o')) :
    Prints fs compile s args (r.toJson.pretty ++ "\n") := by
  have known : Format.ofName? o'.format = some .json := by
    rw [shown.format]
    rfl
  have opened' : ¬fs.Blocks s o'.out := by
    rcases shown.out with out | out
    · rw [out]
      exact FileSystem.not_blocks_none
    · rwa [out]
  obtain ⟨log, result⟩ :=
    runCheck_of_checked known (checked.congr shown.manifest shown.flags) opened'
  refine ⟨_, _, run_check asked, ?_⟩
  rw [result]
  rfl

theorem delivered_of_checked {r : SuiteReport} {format : Format} {log : List LogLine}
    (known : Format.ofName? o.format = some format) (checked : Checked fs compile s o r)
    (opened : ¬fs.Blocks s o.out) :
    Delivered fs compile s o r
      { exitCode := if r.isPass then 0 else 2, output := r.shown format, log }
      (fs.saved s o.out r.toJson.pretty) := by
  constructor
  case failed => by_cases fails : r.Fails <;> simp [r.isPass_iff, fails]
  case passed => by_cases fails : r.Fails <;> simp [r.isPass_iff, fails]
  case words =>
    intro text
    rw [text] at known
    cases known
    exact r.textTells_text
  case document =>
    intro json
    rw [json] at known
    cases known
    exact r.documentTells_pretty (Json.blank_nil.cons (by decide))
  case unwritten =>
    intro out
    rw [out]
    rfl
  case written =>
    intro path out
    have allowed : fs.allows s path = true := by
      by_contra closed
      exact opened ⟨path, out, Bool.eq_false_of_not_eq_true closed⟩
    have written := FileSystem.written_of_allows allowed r.toJson.pretty
    refine ⟨r.toJson.pretty, by rwa [out], ?_, ?_⟩
    · have tells := r.documentTells_pretty (show Json.Blank "".toList from Json.blank_nil)
      rwa [String.append_empty] at tells
    · intro args' o' asked shown
      exact prints_document checked opened shown asked

/-- **A check delivers everything or nothing.** If there is any reason to refuse a check, it ends
with exit code 1, prints nothing and changes nothing. If its report may not be written where it was
asked for, it ends in the same way and changes no file. Otherwise the report is the one that the
files and flags determine, and the exit code, what is printed and what is written agree on it. -/
theorem check_atomic (fs : FileSystem σ) (compile : Regex.Compiler) {args : List String}
    {o : Options} (asked : Invocation.ofArgs args = .ok (.run .check o)) (s : σ) :
    ∃ outcome s', (run fs.store args compile).run s = (.ok outcome, s') ∧
      (Refused fs compile s o → outcome.exitCode = 1 ∧ outcome.output = "" ∧ s' = s) ∧
      (fs.Blocks s o.out → outcome.exitCode = 1 ∧ outcome.output = "" ∧ fs.Unchanged s s') ∧
      (¬Refused fs compile s o → ¬fs.Blocks s o.out →
        ∃ r, Checked fs compile s o r ∧ Delivered fs compile s o r outcome s') := by
  rw [run_check asked]
  rcases runCheck_cases fs compile s o with ⟨refused, log, e, result⟩ |
    ⟨format, r, outcome, known, checked, ends, result⟩
  · rw [result]
    refine ⟨_, _, rfl, fun _ => ⟨rfl, rfl, rfl⟩, fun _ => ⟨rfl, rfl, fun _ => rfl⟩, ?_⟩
    exact fun accepted => absurd refused accepted
  · rw [result]
    refine ⟨_, _, rfl, fun refused => absurd refused (checked.not_refused known), ?_⟩
    cases ends with
    | blocked closed log e =>
        refine ⟨fun _ => ⟨rfl, rfl, FileSystem.unchanged_saved closed _⟩, ?_⟩
        exact fun _ opened => absurd closed opened
    | shown opened log =>
        refine ⟨fun closed => absurd closed opened, fun _ _ => ?_⟩
        exact ⟨r, checked, delivered_of_checked known checked opened⟩

/-- A suite with a rule that fails, seen from another directory. -/
def loadSuiteFiles : Files where
  files :=
    [(["data", "suite.json"], some (
        "\x7b\"schema_version\": 1, \"suite_name\": \"loads\", " ++
        "\"nodes\": [\x7b\"name\": \"LOAD\", \"default_phase\": \"PRINT_IDEAL\"\x7d], " ++
        "\"rules\": [\x7b\"counts\": \"LOAD >1\"\x7d], " ++
        "\"dumps\": \x7b\"PRINT_IDEAL\": \"ideal.txt\"\x7d\x7d")),
     (["data", "ideal.txt"], some "LOAD STORE")]
  here := ["work"]

/-- The report is asked for in a directory that is not there yet. -/
def loadSuiteArgs : List String :=
  ["check", "--out", "../new/report.json", "/data/suite.json"]

def loadSuiteOptions : Options :=
  { manifest := "/data/suite.json", out := some "../new/report.json" }

/-- The rule fails, so the check ends with exit code 2, and its report is written all the same. With
a format that is not known, the check is refused. -/
theorem check_atomic_loads :
    Invocation.ofArgs loadSuiteArgs = .ok (.run .check loadSuiteOptions) ∧
      (∃ outcome f' r, (run Files.store loadSuiteArgs).run loadSuiteFiles = (.ok outcome, f') ∧
        outcome.exitCode = 2 ∧ f'.place? "../new/report.json" = some ["new", "report.json"] ∧
        Delivered Files.system Regex.parse? loadSuiteFiles loadSuiteOptions r outcome f') ∧
      ∃ outcome, (run Files.store (loadSuiteArgs ++ ["--format=xml"])).run loadSuiteFiles =
        (.ok outcome, loadSuiteFiles) ∧ outcome.exitCode = 1 ∧ outcome.output = "" := by
  have asked : Invocation.ofArgs loadSuiteArgs = .ok (.run .check loadSuiteOptions) := by
    decide +kernel
  have strange : Invocation.ofArgs (loadSuiteArgs ++ ["--format=xml"]) =
      .ok (.run .check { loadSuiteOptions with format := "xml" }) := by
    decide +kernel
  refine ⟨asked, ?_, ?_⟩
  · obtain ⟨outcome, f', result, refused, blocked, delivered⟩ :=
      check_atomic Files.system Regex.parse? asked loadSuiteFiles
    rw [Files.store_system] at result
    have evaluated : (((run Files.store loadSuiteArgs).run loadSuiteFiles).1.toOption.map
          (·.exitCode),
        ((run Files.store loadSuiteArgs).run loadSuiteFiles).2.place? "../new/report.json") =
        (some 2, some ["new", "report.json"]) := by
      decide +kernel
    rw [result] at evaluated
    obtain ⟨code, led⟩ := Prod.mk.inj evaluated
    have code : outcome.exitCode = 2 := Option.some.inj code
    have accepted : ¬Refused Files.system Regex.parse? loadSuiteFiles loadSuiteOptions := by
      intro reason
      have failed := (refused reason).1
      omega
    have opened : ¬Files.system.Blocks loadSuiteFiles loadSuiteOptions.out := by
      intro closed
      have failed := (blocked closed).1
      omega
    obtain ⟨r, -, all⟩ := delivered accepted opened
    exact ⟨outcome, f', r, result, code, led, all⟩
  · obtain ⟨outcome, f', result, refused, -⟩ :=
      check_atomic Files.system Regex.parse? strange loadSuiteFiles
    obtain ⟨code, nothing, rfl⟩ := refused (.format (by decide +kernel))
    exact ⟨outcome, result, code, nothing⟩

end DumpRules
