/-!
Several messages as one text: a single message stands alone, more are counted and numbered.
-/

namespace DumpRules.Text

set_option autoImplicit false

/-- Numbered lines for messages, the first with the number `start`. -/
def numberedLines (start : Nat) : List String → String
  | [] => ""
  | m :: later => s!"  {start}. {m}\n" ++ numberedLines (start + 1) later

/-- A single message as it is, several under a headline that says how many of what kind. -/
def numbered (kind : String) (messages : List String) : String :=
  match messages with
  | [m] => m
  | _ => s!"{messages.length} {kind}:\n" ++ numberedLines 1 messages

end DumpRules.Text
