import DumpRules.Trace

/-!
Which lines of the log are shown. Without a setting these are the lines of level INFO and above.
-/

namespace DumpRules

set_option autoImplicit false

/-- The least level of the lines that are shown. -/
inductive Threshold where
  | off
  | error
  | warn
  | info
  | debug
  | trace
deriving DecidableEq

namespace Threshold

/-- The threshold of a name, in any letter case, or of a number from 0 to 5. -/
def ofName? (name : String) : Option Threshold :=
  match String.ofList (name.toList.map Char.toLower) with
  | "off" | "0" => some off
  | "error" | "1" => some error
  | "warn" | "2" => some warn
  | "info" | "3" => some info
  | "debug" | "4" => some debug
  | "trace" | "5" => some trace
  | _ => none

/-- The threshold of a setting. A setting that names no level shows only what is graver than any
line of this program. -/
def ofSetting : Option String → Threshold
  | none => info
  | some setting => (ofName? setting).getD error

/-- Whether lines of a level are shown. -/
def shows : Threshold → Level → Bool
  | off, _ | error, _ => false
  | warn, l => l == .warn
  | info, l => l != .debug
  | debug, _ | trace, _ => true

end Threshold

end DumpRules
