import DumpRules.Regex.Search
import Mathlib.Data.List.Basic

/-!
# Expressions with one way to match

An expression without alternatives and repetitions is *straight*: it comes to a list of steps, each
of which asks for a character or checks the place between two characters. `follow` takes the steps
through a text, with no tasks, no record of what was seen before and no bound on the work. The
search pursues one task at a time on such an expression, never meets a task again at the same place
since tasks get lighter (`explore_straight`), and finds just what `follow` finds
(`matchLength?_straight`).
-/

namespace DumpRules.Regex

set_option autoImplicit false

/-! ## Steps -/

/-- One thing that a straight expression does. -/
inductive Step where
  | ask (s : CharSet)
  | check (l : Look)

/-- An expression that can match in one way only. -/
def Expr.Straight : Expr → Prop
  | .empty => True
  | .set _ => True
  | .look _ => True
  | .seq a b => a.Straight ∧ b.Straight
  | _ => False

/-- What a straight expression does, in order. -/
def Expr.steps : Expr → List Step
  | .set s => [.ask s]
  | .look l => [.check l]
  | .seq a b => a.steps ++ b.steps
  | _ => []

namespace Expr

theorem sequence_cons (e : Expr) {es : List Expr} (more : es ≠ []) :
    sequence (e :: es) = .seq e (sequence es) := by
  cases es with
  | nil => exact absurd rfl more
  | cons => rfl

theorem straight_sequence {es : List Expr} (straight : ∀ e ∈ es, e.Straight) :
    (sequence es).Straight := by
  induction es with
  | nil => exact trivial
  | cons e es ih =>
      obtain ⟨first, later⟩ := List.forall_mem_cons.1 straight
      by_cases more : es = []
      · rw [more]
        exact first
      · rw [sequence_cons e more]
        exact ⟨first, ih later⟩

theorem steps_sequence (es : List Expr) : (sequence es).steps = es.flatMap steps := by
  induction es with
  | nil => rfl
  | cons e es ih =>
      rw [List.flatMap_cons, ← ih]
      by_cases more : es = []
      · simp [more, sequence, steps]
      · rw [sequence_cons e more, steps]

theorem states_sequence {es : List Expr} (filled : es ≠ []) (single : ∀ e ∈ es, e.states = 1) :
    (sequence es).states = es.length := by
  induction es with
  | nil => exact absurd rfl filled
  | cons e es ih =>
      obtain ⟨first, later⟩ := List.forall_mem_cons.1 single
      by_cases more : es = []
      · rw [more]
        exact first
      · rw [sequence_cons e more, states, first, ih more later, List.length_cons, Nat.add_comm]

end Expr

/-- The number of characters that the steps take from the text behind `before`, if all succeed. -/
def follow (before : Option Char) : List Step → List Char → Option Nat
  | [], _ => some 0
  | .check l :: steps, text =>
    if l.holds before text.head? then follow before steps text else none
  | .ask _ :: _, [] => none
  | .ask s :: steps, c :: later =>
    if s.contains c then (follow (some c) steps later).map (· + 1) else none

/-- The steps from the first that asks for a character on, if the checks before it succeed. -/
def passChecks (before after : Option Char) : List Step → Option (List Step)
  | [] => some []
  | .check l :: steps => if l.holds before after then passChecks before after steps else none
  | .ask s :: steps => some (.ask s :: steps)

theorem follow_eq_passChecks (before : Option Char) (steps : List Step) (text : List Char) :
    follow before steps text =
      (passChecks before text.head? steps).bind fun rest => follow before rest text := by
  induction steps with
  | nil => rfl
  | cons step steps ih =>
      cases step with
      | ask s => rfl
      | check l =>
          by_cases holds : l.holds before text.head? = true
          · simp [follow, passChecks, holds, ih]
          · simp [follow, passChecks, holds]

/-! ## Tasks -/

namespace Task

/-- What a task of straight expressions does, in order. -/
def steps (t : Task) : List Step :=
  t.flatMap Expr.steps

def Straight (t : Task) : Prop :=
  ∀ e ∈ t, e.Straight

/-- How much there is to a task; opening an expression always leaves less. -/
def weight : Task → Nat
  | [] => 0
  | e :: rest => e.weight + weight rest

end Task

theorem explore_nil (before after : Option Char) (fuel : Nat) (seen : List Task) :
    explore before after fuel [] seen = [] := by
  cases fuel <;> rfl

/-- What the branches of a straight task are, by what becomes of its checks. -/
inductive Settled (before after : Option Char) (task : Task) : List Branch → Prop
  | failed (stuck : passChecks before after task.steps = none) : Settled before after task []
  | done (through : passChecks before after task.steps = some []) :
      Settled before after task [.done]
  | asks {s : CharSet} {rest : Task}
      (through : passChecks before after task.steps = some (.ask s :: rest.steps))
      (straight : rest.Straight) (lighter : rest.weight < task.weight) :
      Settled before after task [.step s rest]

/-- A task and a lighter one with the same steps come to the same branches. -/
theorem Settled.of_lighter {before after : Option Char} {task other : Task} {found : List Branch}
    (settled : Settled before after other found)
    (same : passChecks before after task.steps = passChecks before after other.steps)
    (lighter : other.weight < task.weight) : Settled before after task found := by
  cases settled with
  | failed stuck => exact .failed (same.trans stuck)
  | done through => exact .done (same.trans through)
  | asks through straight less =>
      exact .asks (same.trans through) straight (Nat.lt_trans less lighter)

/-- A straight task opens into itself, made lighter, until it asks for a character. The tasks seen
at this place are all heavier, so it is never dropped. -/
theorem explore_straight {before after : Option Char} {fuel : Nat} {task : Task}
    {seen : List Task} (straight : task.Straight) (enough : task.weight < fuel)
    (fresh : ∀ t ∈ seen, task.weight < Task.weight t) :
    Settled before after task (explore before after fuel [task] seen) := by
  induction fuel generalizing task seen with
  | zero => exact absurd enough (Nat.not_lt_zero _)
  | succ fuel ih =>
      have unseen : seen.contains task = false := by
        rw [← Bool.not_eq_true, List.contains_iff_mem]
        exact fun member => Nat.lt_irrefl _ (fresh task member)
      have opens : ∀ other : Task, other.Straight →
          passChecks before after task.steps = passChecks before after other.steps →
          other.weight < task.weight →
          Settled before after task (explore before after fuel [other] (task :: seen)) := by
        intro other straight same lighter
        refine (ih straight (by omega) ?_).of_lighter same lighter
        rw [List.forall_mem_cons]
        exact ⟨lighter, fun t member => Nat.lt_trans lighter (fresh t member)⟩
      cases task with
      | nil =>
          simp only [explore, unseen]
          exact .done rfl
      | cons e rest =>
          obtain ⟨first, later⟩ := List.forall_mem_cons.1 straight
          cases e with
          | set s =>
              simp only [explore, unseen, explore_nil]
              exact .asks rfl later (by simp [Task.weight, Expr.weight])
          | empty =>
              simp only [explore, unseen, Expr.opened]
              exact opens rest later rfl (by simp [Task.weight, Expr.weight])
          | look l =>
              simp only [explore, unseen, Expr.opened]
              by_cases holds : l.holds before after = true
              · rw [if_pos holds]
                refine opens rest later ?_ (by simp [Task.weight, Expr.weight])
                simp [Task.steps, Expr.steps, passChecks, holds]
              · rw [if_neg holds, List.nil_append]
                simp only [Bool.false_eq_true, if_false, explore_nil]
                exact .failed (by simp [Task.steps, Expr.steps, passChecks, holds])
          | seq a b =>
              simp only [explore, unseen, Expr.opened]
              refine opens (a :: b :: rest) ?_ ?_ ?_
              · simp only [Task.Straight, List.forall_mem_cons]
                exact ⟨first.1, first.2, later⟩
              · simp [Task.steps, Expr.steps]
              · simp only [Task.weight, Expr.weight]
                omega
          | alt | loop | times | upTo => exact first.elim

theorem branches_straight {limit : Nat} {task : Task} (straight : task.Straight)
    (enough : task.weight ≤ limit) (before after : Option Char) :
    Settled before after task (branches limit before after [task]) :=
  explore_straight straight (Nat.lt_succ_of_le enough) (by simp)

/-! ## Running through a text -/

/-- A straight task is pursued as its steps say. -/
theorem run_straight {limit : Nat} {task : Task} (straight : task.Straight)
    (enough : task.weight ≤ limit) (before : Option Char) (place : Nat) (best : Option Nat)
    (text : List Char) :
    run limit before [task] place best text =
      match follow before task.steps text with
      | some n => some (place + n)
      | none => best := by
  induction text generalizing task before place best with
  | nil =>
      have settled := branches_straight straight enough before none
      rw [run, follow_eq_passChecks]
      generalize branches limit before none [task] = found at settled
      cases settled with
      | failed stuck => simp [stuck, isDone]
      | done through => simp [through, isDone, follow]
      | asks through => simp [through, isDone, follow]
  | cons c later ih =>
      have settled := branches_straight straight enough before (some c)
      rw [run, follow_eq_passChecks]
      generalize branches limit before (some c) [task] = found at settled
      cases settled with
      | failed stuck => simp [stuck, isDone, advance]
      | done through => simp [through, isDone, advance, follow]
      | @asks s rest through straight lighter =>
          by_cases taken : s.contains c = true
          · have later_run := ih straight (by omega) (some c) (place + 1) best
            have one : advance c [.step s rest] = [rest] := by simp [advance, taken]
            simp only [List.head?_cons, through, Option.bind_some, isDone, one, follow, taken,
              if_true, Bool.false_eq_true, if_false]
            rw [later_run]
            cases follow (some c) rest.steps later with
            | none => rfl
            | some n => simp [Nat.add_assoc, Nat.add_comm 1 n]
          · simp [through, isDone, advance, follow, taken]

/-- The search finds the one match of a straight expression. -/
theorem matchLength?_straight {e : Expr} (straight : e.Straight) (before : Option Char)
    (text : List Char) : matchLength? e before text = follow before e.steps text := by
  have single : Task.Straight [e] := by simpa [Task.Straight] using straight
  have enough : Task.weight [e] ≤ e.limit := by
    simp only [Task.weight, Expr.limit]
    omega
  rw [matchLength?, run_straight single enough]
  have steps : Task.steps [e] = e.steps := by simp [Task.steps]
  rw [steps]
  cases follow before e.steps text <;> simp

end DumpRules.Regex
