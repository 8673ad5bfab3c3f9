import DumpRules.Proofs.CountSets
import DumpRules.Proofs.RoundTrip
import Mathlib.Data.List.Pairwise

/-!
# Printed sets of counts

A set of counts is printed as the runs of its bits. `RunsOf` says which lists of runs stand for a
set of numbers: the runs cover just these numbers, and between any two there is a gap. It is kept
along the bits (`runsOf_runs`), and it leaves no choice: the runs are the maximal ones, all of them
and nothing else (`RunsOf.mem_iff`). A printed set can be read again, range by range, so that it
says which set it is the print of: `text_denotes`.
-/

namespace DumpRules.CountSet

set_option autoImplicit false

open Grammar

/-! ## Runs -/

/-- Runs that stand for a set of numbers, in ascending order and with gaps between them. -/
structure RunsOf (bit : Nat → Prop) (rs : List (Nat × Nat)) : Prop where
  filled : ∀ r ∈ rs, r.1 ≤ r.2
  apart : rs.Pairwise fun r r' => r.2 + 1 < r'.1
  covers : ∀ n, bit n ↔ ∃ r ∈ rs, r.1 ≤ n ∧ n ≤ r.2

/-- A run of a set of numbers that cannot be made longer. -/
structure MaximalRun (bit : Nat → Prop) (r : Nat × Nat) : Prop where
  filled : r.1 ≤ r.2
  full : ∀ n, r.1 ≤ n → n ≤ r.2 → bit n
  first : ∀ n, n + 1 = r.1 → ¬bit n
  last : ¬bit (r.2 + 1)

namespace RunsOf

variable {bit : Nat → Prop} {rs : List (Nat × Nat)}

theorem congr {other : Nat → Prop} (runs : RunsOf bit rs) (same : ∀ n, other n ↔ bit n) :
    RunsOf other rs where
  filled := runs.filled
  apart := runs.apart
  covers n := (same n).trans (runs.covers n)

theorem bit_of_mem (runs : RunsOf bit rs) {r : Nat × Nat} (member : r ∈ rs) {n : Nat}
    (from_first : r.1 ≤ n) (to_last : n ≤ r.2) : bit n :=
  (runs.covers n).2 ⟨r, member, from_first, to_last⟩

/-- A number next to a run is in no run at all. -/
theorem not_bit_of_next (runs : RunsOf bit rs) {r : Nat × Nat} (member : r ∈ rs) {n : Nat}
    (next : n + 1 = r.1 ∨ n = r.2 + 1) : ¬bit n := by
  intro set
  obtain ⟨q, other, from_first, to_last⟩ := (runs.covers n).1 set
  have filled := runs.filled r member
  have different : q ≠ r := by
    rintro rfl
    omega
  have either : rs.Pairwise fun r r' => r.2 + 1 < r'.1 ∨ r'.2 + 1 < r.1 := runs.apart.imp .inl
  have : Std.Symm fun r r' : Nat × Nat => r.2 + 1 < r'.1 ∨ r'.2 + 1 < r.1 := ⟨fun _ _ => Or.symm⟩
  have gap := either.forall other member different
  omega

/-- The runs that stand for a set are its maximal runs. -/
theorem mem_iff (runs : RunsOf bit rs) {r : Nat × Nat} : r ∈ rs ↔ MaximalRun bit r := by
  constructor
  · intro member
    exact {
      filled := runs.filled r member
      full := fun n => runs.bit_of_mem member
      first := fun n next => runs.not_bit_of_next member (.inl next)
      last := runs.not_bit_of_next member (.inr rfl) }
  · intro maximal
    have filled := maximal.filled
    obtain ⟨q, member, from_first, to_last⟩ :=
      (runs.covers r.1).1 (maximal.full r.1 le_rfl filled)
    -- The run that holds the first number starts there and ends where this one does.
    have start : q.1 = r.1 := by
      by_contra other
      have before : r.1 - 1 + 1 = r.1 := by omega
      exact maximal.first _ before (runs.bit_of_mem member (by omega) (by omega))
    have stop : q.2 = r.2 := by
      rcases Nat.lt_trichotomy q.2 r.2 with shorter | same | longer
      · exact absurd (maximal.full (q.2 + 1) (by omega) shorter)
          (runs.not_bit_of_next member (.inr rfl))
      · exact same
      · exact absurd (runs.bit_of_mem member (by omega) longer) maximal.last
    rwa [← Prod.ext start stop]

/-- Runs below a number that is in neither set, and runs above it. -/
theorem append {other : Nat → Prop} {rs' : List (Nat × Nat)} (runs : RunsOf bit rs)
    (later : RunsOf other rs') (place : Nat) (below : ∀ n, bit n → n < place)
    (above : ∀ n, other n → place < n) : RunsOf (fun n => bit n ∨ other n) (rs ++ rs') where
  filled := List.forall_mem_append.2 ⟨runs.filled, later.filled⟩
  apart := by
    refine List.pairwise_append.2 ⟨runs.apart, later.apart, fun r member r' member' => ?_⟩
    have left := below r.2 (runs.bit_of_mem member (runs.filled r member) le_rfl)
    have right := above r'.1 (later.bit_of_mem member' le_rfl (later.filled r' member'))
    omega
  covers n := by
    simp only [runs.covers, later.covers, List.mem_append, or_and_right, exists_or]

end RunsOf

/-- The numbers that are still to be put into runs: those of the run under way, which reaches up to
`place`, and from there on those of the bits to come. -/
def Pending (bit : Nat → Bool) (since : Option Nat) (place stop n : Nat) : Prop :=
  (∃ s, since = some s ∧ s ≤ n ∧ n < place) ∨ place ≤ n ∧ n < stop ∧ bit n = true

section Pending

variable {bit : Nat → Bool} {since : Option Nat} {place stop : Nat}

theorem pending_of_set (set : bit place = true) (inside : place < stop)
    (before : ∀ s, since = some s → s < place) (n : Nat) :
    Pending bit since place stop n ↔
      Pending bit (some (since.getD place)) (place + 1) stop n := by
  by_cases here : n = place
  · subst here
    cases since with
    | none => simp [Pending, set, inside]
    | some s => simp [Pending, set, inside, (before s rfl).le]
  · cases since <;> simp [Pending] <;> grind

theorem pending_of_clear (clear : bit place = false) (n : Nat) :
    Pending bit since place stop n ↔
      (∃ s, since = some s ∧ s ≤ n ∧ n < place) ∨
        Pending bit none (place + 1) stop n := by
  by_cases here : n = place
  · subst here
    simp [Pending, clear]
  · have past : place ≤ n ↔ place + 1 ≤ n := by omega
    simp [Pending, past]

/-- The run under way, ended before `place`. -/
theorem runsOf_ended (before : ∀ s, since = some s → s < place) :
    RunsOf (fun n => ∃ s, since = some s ∧ s ≤ n ∧ n < place)
      (since.toList.map fun s => (s, place - 1)) := by
  cases since with
  | none => exact ⟨by simp, by simp, by simp⟩
  | some s =>
      have started := before s rfl
      refine ⟨by simp; omega, by simp, fun n => ?_⟩
      simp
      omega

theorem runsOf_runs (count : Nat) (before : ∀ s, since = some s → s < place) :
    RunsOf (Pending bit since place (place + count))
      (runs since place ((List.range' place count).map bit)) := by
  induction count generalizing since place with
  | zero =>
      refine (runsOf_ended before).congr fun n => ?_
      simp only [Pending, Nat.add_zero, or_iff_left_iff_imp]
      omega
  | succ count ih =>
      have stop : place + (count + 1) = place + 1 + count := by omega
      rw [List.range'_succ, List.map_cons, stop]
      cases set : bit place with
      | true =>
          have started : ∀ s, some (since.getD place) = some s → s < place + 1 := by
            rintro _ ⟨⟩
            cases since with
            | none => exact Nat.lt_succ_self place
            | some s => exact Nat.lt_succ_of_lt (before s rfl)
          exact (ih started).congr (pending_of_set set (by omega) before)
      | false =>
          have fresh : RunsOf (Pending bit none (place + 1) (place + 1 + count)) _ :=
            ih (by simp)
          refine ((runsOf_ended before).append fresh place ?_ ?_).congr (pending_of_clear set)
          · rintro n ⟨s, -, -, under⟩
            exact under
          · rintro n (⟨s, ⟨⟩, -⟩ | ⟨beyond, -⟩)
            exact beyond

end Pending

/-! ## The bits of a set -/

/-- A bit of the set is set. -/
def HasBit (s : CountSet) (n : Nat) : Prop :=
  s.bits.toNat.testBit n = true

theorem HasBit.le_top {s : CountSet} {n : Nat} (set : s.HasBit n) : n ≤ top := by
  by_contra beyond
  have room : 2 ^ 64 ≤ 2 ^ n := Nat.pow_le_pow_right (by decide) (Nat.lt_of_not_le beyond)
  rw [HasBit, Nat.testBit_lt_two_pow (s.bits.toNat_lt.trans_le room)] at set
  cases set

theorem permits_iff_of_le (s : CountSet) {n : Nat} (small : n ≤ top) :
    s.permits n = true ↔ s.HasBit n := by
  rw [permits_eq_testBit, Nat.min_eq_left small, HasBit]

/-- The runs that are printed. -/
def printedRuns (s : CountSet) : List (Nat × Nat) :=
  runs none 0 ((List.range 64).map s.permits)

theorem runsOf_printedRuns (s : CountSet) : RunsOf s.HasBit s.printedRuns := by
  have runs : RunsOf (Pending s.permits none 0 (0 + 64)) _ := runsOf_runs 64 (by simp)
  rw [printedRuns, List.range_eq_range']
  refine runs.congr fun n => ?_
  constructor
  · intro set
    have small := set.le_top
    exact .inr ⟨n.zero_le, Nat.lt_succ_of_le small, (s.permits_iff_of_le small).2 set⟩
  · rintro (⟨s, ⟨⟩, -⟩ | ⟨-, small, set⟩)
    exact (s.permits_iff_of_le (Nat.le_of_lt_succ small)).1 set

/-! ## Ranges -/

/-- How a run is written: the last bit stands for all counts from there on. -/
inductive RangeText : Nat × Nat → String → Prop
  | one {n : Nat} (below : n < top) : RangeText (n, n) (toString n)
  | several {first last : Nat} (order : first < last) (below : last < top) :
      RangeText (first, last) (toString first ++ "..=" ++ toString last)
  | onward (first : Nat) : RangeText (first, top) (toString first ++ "+")

theorem rangeText_runText {r : Nat × Nat} (filled : r.1 ≤ r.2) (small : r.2 ≤ top) :
    RangeText r (runText r) := by
  obtain ⟨first, last⟩ := r
  simp only at filled small
  rw [runText]
  by_cases ended : last = top
  · rw [if_pos ended, ended]
    exact .onward first
  have below : last < top := Nat.lt_of_le_of_ne small ended
  by_cases same : first = last
  · rw [if_neg ended, if_pos same, same]
    exact .one below
  · rw [if_neg ended, if_neg same]
    exact .several (Nat.lt_of_le_of_ne filled same) below

/-- Reads what stands behind the first number of a range. -/
def rangeFrom? (first : Nat) : List Char → Option (Nat × Nat)
  | [] => some (first, first)
  | ['+'] => some (first, top)
  | '.' :: '.' :: '=' :: last => (Text.numeral? last).map fun last => (first, last)
  | _ => none

/-- Reads a range as its first and last bit. -/
def readRange? (cs : List Char) : Option (Nat × Nat) :=
  (Text.numeral? (cs.takeWhile Char.isDigit)).bind fun first =>
    rangeFrom? first (cs.dropWhile Char.isDigit)

/-- Reads ranges with commas between them. -/
def readRanges? (cs : List Char) : Option (List (Nat × Nat)) :=
  if cs = [] then some []
  else (cs.splitOn ',').mapM fun part => readRange? (part.filter (· ≠ ' '))

/-- The counts that one of two sets permits. -/
def union (s t : CountSet) : CountSet :=
  ⟨s.bits ||| t.bits⟩

/-- The set of some ranges of bits. -/
def ofRanges (rs : List (Nat × Nat)) : CountSet :=
  rs.foldr (fun r s => ((atLeast r.1).inter (atMost r.2)).union s) empty

/-- Reads a set from its ranges between braces. -/
def read? (text : String) : Option CountSet :=
  match text.toList with
  | '\x7b' :: cs =>
    if cs.getLast? = some '\x7d' then (readRanges? cs.dropLast).map ofRanges else none
  | _ => none

theorem permits_ofRanges (rs : List (Nat × Nat)) (n : Nat) :
    (ofRanges rs).permits n = true ↔
      ∃ r ∈ rs, min r.1 top ≤ min n top ∧ min n top ≤ min r.2 top := by
  have permits_union : ∀ s t : CountSet, (s.union t).permits n = (s.permits n || t.permits n) := by
    intro s t
    simp only [permits_eq_testBit, union, UInt64.toNat_or, Nat.testBit_or]
  induction rs with
  | nil => simp [ofRanges]
  | cons r later ih =>
      have step : ofRanges (r :: later) =
          ((atLeast r.1).inter (atMost r.2)).union (ofRanges later) := rfl
      simp only [step, permits_union, permits_inter, permits_atLeast, permits_atMost,
        Bool.or_eq_true, Bool.and_eq_true, decide_eq_true_iff, ih, List.exists_mem_cons_iff]

/-- A set is that of its runs. -/
theorem RunsOf.ofRanges_eq {s : CountSet} {rs : List (Nat × Nat)} (runs : RunsOf s.HasBit rs) :
    ofRanges rs = s := by
  refine eq_of_permits fun n => ?_
  have small : min n top ≤ top := Nat.min_le_right n top
  have same : s.permits n = s.permits (min n top) := by
    rw [permits_eq_testBit, permits_eq_testBit, Nat.min_eq_left small]
  rw [Bool.eq_iff_iff, permits_ofRanges, same, s.permits_iff_of_le small, runs.covers]
  refine exists_congr fun r => and_congr_right fun member => ?_
  have filled := runs.filled r member
  have inside := (runs.bit_of_mem member filled le_rfl).le_top
  rw [Nat.min_eq_left inside, Nat.min_eq_left (filled.trans inside)]

theorem readRange?_append (n : Nat) (rest : List Char)
    (ends : ∀ c, rest.head? = some c → c.isDigit = false) :
    readRange? ((toString n).toList ++ rest) = rangeFrom? n rest := by
  have decimal : ∀ d ∈ (toString n).toList, d.isDigit = true := fun d => isDigit_of_mem_toString
  have stop : rest.takeWhile Char.isDigit = [] ∧ rest.dropWhile Char.isDigit = rest := by
    cases rest with
    | nil => exact ⟨rfl, rfl⟩
    | cons c later => simp [ends c rfl]
  rw [readRange?, List.takeWhile_append_of_pos decimal, List.dropWhile_append_of_pos decimal,
    stop.1, stop.2, List.append_nil, numeral?_toString, Option.bind_some]

theorem RangeText.read {r : Nat × Nat} {text : String} (written : RangeText r text) :
    readRange? text.toList = some r := by
  cases written with
  | @one n below =>
      have read := readRange?_append n [] (by simp)
      rwa [List.append_nil] at read
  | @several first last order below =>
      have read := readRange?_append first ('.' :: '.' :: '=' :: (toString last).toList) (by simp)
      rw [rangeFrom?, numeral?_toString] at read
      rw [String.toList_append, String.toList_append, List.append_assoc]
      exact read
  | onward first =>
      rw [String.toList_append]
      exact readRange?_append first ['+'] (by simp)

/-- Nothing in a range could be taken for what stands between ranges. -/
theorem RangeText.solid {r : Nat × Nat} {text : String} (written : RangeText r text) :
    ∀ c ∈ text.toList, c ≠ ',' ∧ c ≠ ' ' := by
  have digit : ∀ {n : Nat} {c : Char}, c ∈ (toString n).toList → c ≠ ',' ∧ c ≠ ' ' := by
    intro n c member
    have decimal := isDigit_of_mem_toString member
    constructor <;> rintro rfl <;> exact absurd decimal (by decide)
  cases written with
  | one below => exact fun c => digit
  | several order below =>
      rw [String.toList_append, String.toList_append, List.forall_mem_append,
        List.forall_mem_append]
      exact ⟨⟨fun c => digit, by simp⟩, fun c => digit⟩
  | onward first =>
      rw [String.toList_append, List.forall_mem_append]
      exact ⟨fun c => digit, by simp⟩

/-! ## Printed sets are read back -/

theorem toList_intercalate_ranges (text : String) (texts : List String) :
    (", ".intercalate (text :: texts)).toList =
      [','].intercalate (text.toList :: texts.map fun t => ' ' :: t.toList) := by
  have spaced : ", ".intercalate (text :: texts) =
      ",".intercalate (text :: texts.map fun t => " " ++ t) := by
    rw [← String.toList_inj, toList_intercalate_cons, toList_intercalate_cons, List.flatMap_map]
    simp
  rw [spaced, String.toList_intercalate]
  simp [Function.comp_def]

/-- A printed list of ranges is read range by range. -/
theorem readRanges?_texts {rs : List (Nat × Nat)} {texts : List String}
    (written : List.Forall₂ RangeText rs texts) :
    readRanges? (", ".intercalate texts).toList = some rs := by
  cases written with
  | nil => rfl
  | @cons r text rs texts first others =>
      have stripped : ∀ {r text}, RangeText r text →
          readRange? (text.toList.filter (· ≠ ' ')) = some r := by
        intro r text written
        rw [List.filter_eq_self.2 fun c member => by simpa using (written.solid c member).2]
        exact written.read
      have filled : (", ".intercalate (text :: texts)).toList ≠ [] := by
        intro empty
        rw [toList_intercalate_cons, List.append_eq_nil_iff] at empty
        have read := first.read
        rw [empty.1] at read
        cases read
      have split : ∀ part ∈ text.toList :: texts.map (fun t => ' ' :: t.toList), ',' ∉ part := by
        rw [List.forall_mem_cons, List.forall_mem_map]
        refine ⟨fun comma => (first.solid ',' comma).1 rfl, fun t member comma => ?_⟩
        obtain ⟨r, written⟩ := exists_of_forall₂ others t member
        rw [List.mem_cons] at comma
        exact (written.solid ',' (comma.resolve_left (by decide))).1 rfl
      rw [readRanges?, if_neg filled, toList_intercalate_ranges,
        List.splitOn_intercalate ',' split (List.cons_ne_nil _ _), mapM_eq_some_iff, List.map_cons,
        List.map_cons, stripped first, List.map_map]
      refine congrArg _ (map_eq_of_forall₂ (others.imp fun r t written => ?_))
      exact stripped written

theorem rangeTexts_printedRuns (s : CountSet) :
    List.Forall₂ RangeText s.printedRuns (s.printedRuns.map runText) := by
  have runs := s.runsOf_printedRuns
  rw [List.forall₂_map_right_iff, List.forall₂_same]
  intro r member
  have filled := runs.filled r member
  exact rangeText_runText filled (runs.bit_of_mem member filled le_rfl).le_top

theorem read?_text (s : CountSet) : read? s.text = some s := by
  have content : s.text.toList = '\x7b' ::
      ((", ".intercalate (s.printedRuns.map runText)).toList ++ ['\x7d']) := by
    rw [text, String.toList_append, String.toList_append]
    rfl
  have read := readRanges?_texts s.rangeTexts_printedRuns
  rw [read?, content]
  simp only [List.getLast?_append, List.getLast?_singleton, Option.some_or, if_true,
    List.dropLast_concat, read, Option.map_some, s.runsOf_printedRuns.ofRanges_eq]

/-- A text lists the maximal runs of a set between braces, in ascending order and each in its
written form. Between any two of them a bit is clear. -/
def ListsRuns (s : CountSet) (text : String) : Prop :=
  ∃ rs texts, text = "\x7b" ++ ", ".intercalate texts ++ "\x7d" ∧ List.Forall₂ RangeText rs texts ∧
    (∀ r, r ∈ rs ↔ MaximalRun s.HasBit r) ∧
    rs.Pairwise fun r r' => r.2 < r'.1 ∧ ∃ n, r.2 < n ∧ n < r'.1 ∧ ¬s.HasBit n

theorem listsRuns_text (s : CountSet) : s.ListsRuns s.text := by
  have runs := s.runsOf_printedRuns
  refine ⟨s.printedRuns, _, rfl, s.rangeTexts_printedRuns, fun r => runs.mem_iff, ?_⟩
  refine runs.apart.imp_of_mem fun {r r'} member _ gap => ?_
  exact ⟨by omega, r.2 + 1, by omega, gap, runs.not_bit_of_next member (.inr rfl)⟩

/-- **A printed set denotes that set and no other.** It lists the maximal runs of the bits, the set
can be read from it, and so two sets that are printed alike are the same. -/
theorem text_denotes :
    (∀ s : CountSet, s.ListsRuns s.text) ∧ (∀ s : CountSet, read? s.text = some s) ∧
      Function.Injective text := by
  refine ⟨listsRuns_text, read?_text, fun s t alike => ?_⟩
  have same : some s = some t := by rw [← read?_text s, alike, read?_text]
  exact Option.some.inj same

example : text ⟨0x8000000000000027⟩ = "\x7b0..=2, 5, 63+\x7d" := by decide +kernel

end DumpRules.CountSet
