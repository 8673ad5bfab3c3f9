import DumpRules.Command.Run

/-!
The command line: arguments, the files on disk, and the three streams.
-/

namespace DumpRules

set_option autoImplicit false

/-- The files on disk. -/
def disk : Store IO where
  read path := do
    try
      return some (← IO.FS.readFile path)
    catch _ => return none
  write path text := do
    try
      match Path.parent? path with
      | some directory => unless directory.isEmpty do IO.FS.createDirAll directory
      | none => pure ()
      IO.FS.writeFile path text
      return true
    catch _ => return false

/-- What a command that failed says on the error stream. -/
def CommandError.report : CommandError → String
  | .unreadableManifest path => s!"Cannot read manifest: {path}"
  | .malformedManifest path => s!"Malformed manifest: {path}"
  | .unwritableReport path => s!"Cannot write report: {path}"
  | e => e.message?.getD ""

end DumpRules

open DumpRules in
/-- Runs the program. The variable `RUST_LOG` sets which lines of the log are shown. -/
def main (args : List String) : IO UInt32 := do
  let threshold := Threshold.ofSetting (← IO.getEnv "RUST_LOG")
  match ← run disk args with
  | .error e =>
    IO.eprintln ("error: " ++ e.message)
    return 2
  | .ok outcome =>
    for line in outcome.log do
      if threshold.shows line.level then IO.eprintln line.text
    IO.print outcome.output
    if let some e := outcome.error then IO.eprintln ("Error: " ++ e.report)
    return outcome.exitCode.toUInt32
