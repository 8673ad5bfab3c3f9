import DumpRules.Suite.Report
import DumpRules.Json.Record
import DumpRules.Proofs.Documents

/-!
# What the texts on a suite tell

A suite that was checked is reported on in words and as a document. Whoever sees only one of the two
can tell from it whether some rule fails: the words start with one of two lines, whatever the suite
is called (`textTells_text`), and the document, read back from its printed form, has one of two
texts in its field `overall` (`documentTells_pretty`).
-/

namespace DumpRules

set_option autoImplicit false

open Grammar Json

namespace SuiteReport

/-- Some rule fails. -/
def Fails (r : SuiteReport) : Prop :=
  ∃ rule ∈ r.rules, rule.isFailure = true

theorem isPass_iff (r : SuiteReport) : r.isPass = true ↔ ¬r.Fails := by
  simp [isPass, failedRules, Fails, List.countP_eq_zero]

/-! ## In words -/

/-- The first line on a suite of which some rules fail. -/
def failLine (name : String) (failed total : Nat) : String :=
  s!"Suite {name}: FAIL ({failed} of {total} rule(s) failed)\n"

/-- The first line on a suite of which no rule fails. -/
def passLine (name : String) (total : Nat) : String :=
  s!"Suite {name}: PASS ({total} rule(s))\n"

/-- A text starts with the line for failure, with the right number in it, exactly if some rule
fails, and with the line for success exactly if none does. -/
structure TextTells (r : SuiteReport) (text : String) : Prop where
  fail : ∀ failed, (∃ rest, text = failLine r.suiteName failed r.rules.length ++ rest) ↔
    r.Fails ∧ failed = r.rules.countP RuleReport.isFailure
  pass : (∃ rest, text = passLine r.suiteName r.rules.length ++ rest) ↔ ¬r.Fails

/-- Two counts with a blank behind each are the same if their texts are. -/
theorem eq_of_counts {a b : Nat} {behind later : List Char}
    (same : (toString a).toList ++ ' ' :: behind = (toString b).toList ++ ' ' :: later) :
    a = b := by
  have digits (n : Nat) (rest : List Char) :
      readDigits ((toString n).toList ++ ' ' :: rest) = some (Nat.toDigits 10 n, ' ' :: rest) := by
    rw [Nat.toString_eq_ofList_toDigits, String.toList_ofList]
    exact readDigits_append Nat.toDigits_ne_nil
      (fun d => Nat.isDigit_of_mem_toDigits (by decide) (by decide)) (.cons (by decide) _)
  have read := congrArg readDigits same
  rw [digits, digits, Option.some.injEq, Prod.mk.injEq] at read
  calc
    a = Nat.ofDigitChars 10 (Nat.toDigits 10 a) 0 := Nat.ofDigitChars_ten_toDigits.symm
    _ = Nat.ofDigitChars 10 (Nat.toDigits 10 b) 0 := by rw [read.1]
    _ = b := Nat.ofDigitChars_ten_toDigits

theorem failLine_ne_passLine {name : String} {failed total others : Nat} {rest later : String} :
    failLine name failed total ++ rest ≠ passLine name others ++ later := by
  intro same
  have texts := congrArg String.toList same
  simp only [failLine, passLine, String.toList_append, List.append_assoc,
    List.append_cancel_left_eq] at texts
  change ':' :: ' ' :: 'F' :: _ = ':' :: ' ' :: 'P' :: _ at texts
  simp at texts

theorem eq_of_failLine {name : String} {a b total : Nat} {rest later : String}
    (same : failLine name a total ++ rest = failLine name b total ++ later) : a = b := by
  have texts := congrArg String.toList same
  simp only [failLine, String.toList_append, List.append_assoc, List.append_cancel_left_eq] at texts
  exact eq_of_counts texts

theorem exists_text_eq (r : SuiteReport) :
    ∃ rest, r.text = (if r.isPass then passLine r.suiteName r.rules.length
      else failLine r.suiteName (r.rules.countP RuleReport.isFailure) r.rules.length) ++ rest :=
  ⟨_, rfl⟩

theorem textTells_text (r : SuiteReport) : r.TextTells r.text := by
  obtain ⟨rest, headline⟩ := r.exists_text_eq
  by_cases fails : r.Fails
  · rw [if_neg (mt r.isPass_iff.1 (not_not.2 fails))] at headline
    constructor
    case fail =>
      intro failed
      constructor
      · rintro ⟨later, starts⟩
        exact ⟨fails, eq_of_failLine (starts.symm.trans headline)⟩
      · rintro ⟨-, rfl⟩
        exact ⟨rest, headline⟩
    case pass =>
      refine iff_of_false ?_ (not_not.2 fails)
      rintro ⟨later, starts⟩
      exact failLine_ne_passLine (headline.symm.trans starts)
  · rw [if_pos (r.isPass_iff.2 fails)] at headline
    constructor
    case fail =>
      intro failed
      refine iff_of_false ?_ fun both => fails both.1
      rintro ⟨later, starts⟩
      exact failLine_ne_passLine (starts.symm.trans headline)
    case pass => exact iff_of_true ⟨rest, headline⟩ fails

end SuiteReport

/-! ## As a document -/

theorem Bindings.within_toJson (depth : Nat) (b : Bindings String) :
    b.toJson.Within (depth + 1) := by
  rw [Bindings.toJson, within_object]
  simp only [List.forall_mem_map, Within.string, implies_true]

theorem within_failure (depth : Nat) (x : Failure) : x.toJson.Within (depth + 1) := by
  simp [Failure.toJson]

theorem within_phaseResult (depth : Nat) (p : PhaseResult) : p.toJson.Within (depth + 4) := by
  obtain ⟨phase, outcome⟩ := p
  cases outcome with
  | pass => simp [PhaseResult.toJson]
  | absent => simp [PhaseResult.toJson]
  | fail failures => simp [PhaseResult.toJson, within_failure]

theorem within_ruleReport (depth : Nat) (r : RuleReport) : r.toJson.Within (depth + 7) := by
  obtain ⟨index, name, outcome⟩ := r
  cases name <;> cases outcome <;> simp [RuleReport.toJson, within_phaseResult]

namespace SuiteReport

/-- What a printed document says of the suite as a whole. -/
def overall? (text : String) : Option String :=
  ((Json.parse? text).bind (Json.field? "overall")).bind Json.asString?

/-- A printed document says that the suite fails exactly if some rule fails, and that it passes
exactly if none does. -/
structure DocumentTells (r : SuiteReport) (text : String) : Prop where
  fail : overall? text = some "fail" ↔ r.Fails
  pass : overall? text = some "pass" ↔ ¬r.Fails

theorem within_toJson (r : SuiteReport) : r.toJson.Within maxDepth := by
  refine Within.sorted ?_
  rw [show maxDepth = 118 + 9 from rfl]
  simp [Bindings.within_toJson, within_ruleReport]

theorem field?_overall (r : SuiteReport) :
    r.toJson.field? "overall" = some (.string (if r.isPass then "pass" else "fail")) := by
  rw [toJson, field?_sorted (by simp)]
  rfl

theorem documentTells_pretty (r : SuiteReport) {white : String} (blank : Blank white.toList) :
    r.DocumentTells (r.toJson.pretty ++ white) := by
  have said : overall? (r.toJson.pretty ++ white) =
      some (if r.isPass then "pass" else "fail") := by
    rw [overall?, parse?_pretty r.within_toJson blank, Option.bind_some, field?_overall]
    rfl
  by_cases fails : r.Fails
  · rw [if_neg (mt r.isPass_iff.1 (not_not.2 fails))] at said
    constructor <;> simp [said, fails]
  · rw [if_pos (r.isPass_iff.2 fails)] at said
    constructor <;> simp [said, fails]

end SuiteReport

end DumpRules
