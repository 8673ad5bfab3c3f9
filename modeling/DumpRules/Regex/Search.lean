import DumpRules.Regex.Expr

/-!
Counting the matches of an expression in a text.

A *task* is what remains to be matched: a list of expressions, one after the other. At each place of
the text a list of tasks is pursued at once, the preferred one first. `explore` opens the tasks up to
the point where each asks for a character or is done; a task met before at the same place leads
nowhere new and is dropped, which also ends loops whose body matches nothing. `run` reads the text
character by character and remembers the last place where the preferred task was done, so that its
cost is bounded by the length of the text times the weight of the expression.

`count` takes the matches from the left, without overlap. An empty match directly behind another
match does not count, and after an empty match the scan moves on by one character.
-/

namespace DumpRules.Regex

set_option autoImplicit false

/-- What remains to be matched: expressions one after the other. -/
abbrev Task := List Expr

/-- What a task comes to at one place: it is done, or it asks for a character of a set. -/
inductive Branch where
  | done
  | step (s : CharSet) (rest : Task)

/-- The tasks that the first expression of a task opens into, in order of preference, for every
expression that does not ask for a character. -/
def Expr.opened (before after : Option Char) (rest : Task) : Expr → List Task
  | .empty => [rest]
  | .set _ => []
  | .look l => if l.holds before after then [rest] else []
  | .seq a b => [a :: b :: rest]
  | .alt a b => [a :: rest, b :: rest]
  | .loop e greedy =>
    let again := e :: .loop e greedy :: rest
    if greedy then [again, rest] else [rest, again]
  | .times _ 0 => [rest]
  | .times e (n + 1) => [e :: .times e n :: rest]
  | .upTo _ 0 _ => [rest]
  | .upTo e (n + 1) greedy =>
    let again := e :: .upTo e n greedy :: rest
    if greedy then [again, rest] else [rest, again]

/-- The branches of the tasks in `work` at the place between `before` and `after`, in order of
preference and up to the first that is done: what is less preferred than a match at this place plays
no part. The tasks in `seen` have been opened here before. The first argument bounds the number of
tasks looked at. -/
def explore (before after : Option Char) : Nat → List Task → List Task → List Branch
  | 0, _, _ => []
  | _ + 1, [], _ => []
  | fuel + 1, task :: work, seen =>
    if seen.contains task then explore before after fuel work seen
    else
      match task with
      | [] => [.done]
      | .set s :: rest => .step s rest :: explore before after fuel work (task :: seen)
      | e :: rest =>
        explore before after fuel (e.opened before after rest ++ work) (task :: seen)

/-- Whether the last of some branches is a task that is done. -/
def isDone : List Branch → Bool
  | [] => false
  | .done :: _ => true
  | .step _ _ :: later => isDone later

/-- The tasks that remain after a character. -/
def advance (c : Char) (branches : List Branch) : List Task :=
  branches.filterMap fun
    | .done => none
    | .step s rest => if s.contains c then some rest else none

/-- The branches of some tasks at one place. -/
def branches (limit : Nat) (before after : Option Char) (tasks : List Task) : List Branch :=
  explore before after (limit + tasks.length) tasks []

/-- Pursues tasks through the characters from a place on. `place` counts the characters read since
the start of the match, and `best` is the length of the preferred match found so far. -/
def run (limit : Nat) (before : Option Char) (tasks : List Task) (place : Nat)
    (best : Option Nat) : List Char → Option Nat
  | [] => if isDone (branches limit before none tasks) then some place else best
  | c :: later =>
    let found := branches limit before (some c) tasks
    let best := if isDone found then some place else best
    match advance c found with
    | [] => best
    | tasks => run limit (some c) tasks (place + 1) best later

/-- A bound on the tasks that come up at one place beyond those at hand: no more tasks can be told
apart than the expression has steps, and each opens into at most two. -/
def Expr.limit (e : Expr) : Nat :=
  2 * e.weight + 2

/-- The number of characters of the preferred match that starts between `before` and `rest`. -/
def matchLength? (e : Expr) (before : Option Char) (rest : List Char) : Option Nat :=
  run e.limit before [[e]] 0 none rest

/-- The number of matches from a place on. `seam` says that a match ends here, so that an empty one
does not count. -/
def countFrom (e : Expr) (before : Option Char) (rest : List Char) (seam : Bool) : Nat :=
  match matchLength? e before rest with
  | none =>
    match rest with
    | [] => 0
    | c :: later => countFrom e (some c) later false
  | some 0 =>
    (if seam then 0 else 1) +
      match rest with
      | [] => 0
      | c :: later => countFrom e (some c) later false
  | some (n + 1) =>
    match _h : rest.drop n with
    | [] => 0
    | c :: later => 1 + countFrom e (some c) later true
termination_by rest.length
decreasing_by
  · simp
  · simp
  · have := congrArg List.length _h
    simp at this
    omega

/-- The number of matches in a text, taken from the left without overlap. -/
def Expr.count (e : Expr) (text : String) : Nat :=
  countFrom e none text.toList false

end DumpRules.Regex
