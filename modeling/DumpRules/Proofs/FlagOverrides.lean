import DumpRules.Proofs.BoundNames
import DumpRules.Proofs.Trimming
import DumpRules.Suite.Manifest
import Mathlib.Data.List.Forall2

/-!
# Flags that are set again

A setting of a flag is cut at its first `=`, and what stands on either side is trimmed. `Sets` says
so of a text, with no regard to how it is read, and `IsSetting` says which texts can be cut.
Settings are applied all or none: if each can be cut, their names are bound one after the other, and
otherwise the first that cannot is reported (`applyOverrides_cases`). What comes of it is said in
`overrides_last_wins`.
-/

namespace DumpRules

set_option autoImplicit false

/-! ## Settings as they are written -/

/-- The two sides of the first `=` of a text, of which the left one is not blank. -/
structure CutAt (raw : String) (before after : List Char) : Prop where
  whole : raw.toList = before ++ '=' :: after
  first : '=' ∉ before
  named : ∃ c ∈ before, ¬Text.isBlank c = true

/-- A text that has a `=`, and more than white space before the first one. -/
def IsSetting (raw : String) : Prop :=
  ∃ before after, CutAt raw before after

/-- A text that sets a name to a value: what is left of the sides of its first `=` without the white
space around them. -/
def Sets (raw name value : String) : Prop :=
  ∃ before after, CutAt raw before after ∧
    Text.TrimsTo before name.toList ∧ Text.TrimsTo after value.toList

theorem CutAt.readOverride_eq {raw : String} {before after : List Char}
    (cut : CutAt raw before after) :
    readOverride raw =
      .ok (String.ofList (Text.trimChars before), String.ofList (Text.trimChars after)) := by
  have front : ∀ c ∈ before, decide (c ≠ '=') = true := fun c member =>
    decide_eq_true fun same => cut.first (same ▸ member)
  have left : raw.toList.takeWhile (· ≠ '=') = before := by
    rw [cut.whole, List.takeWhile_append_of_pos front]
    simp
  have right : raw.toList.dropWhile (· ≠ '=') = '=' :: after := by
    rw [cut.whole, List.dropWhile_append_of_pos front]
    simp
  have named : before.all Text.isBlank = false := by simpa using cut.named
  simp only [readOverride, left, right, named, Bool.false_eq_true, if_false]

/-- A text that cannot be cut is reported. -/
theorem readOverride_of_not_isSetting {raw : String} (bad : ¬IsSetting raw) :
    readOverride raw = .error ⟨raw⟩ := by
  simp only [readOverride]
  split
  · rfl
  · rename_i sign after found
    split
    · rfl
    · rename_i named
      have stopped := List.head?_dropWhile_not (· ≠ '=') raw.toList
      rw [found] at stopped
      obtain rfl : sign = '=' := by simpa using stopped
      refine absurd ⟨raw.toList.takeWhile (· ≠ '='), after, ?_, ?_, by simpa using named⟩ bad
      · rw [← found, List.takeWhile_append_dropWhile]
      · exact fun member => absurd (List.mem_takeWhile_imp member) (by simp)

/-- The reader finds the name and the value that a text sets. -/
theorem sets_iff {raw name value : String} :
    Sets raw name value ↔ readOverride raw = .ok (name, value) := by
  constructor
  · rintro ⟨before, after, cut, left, right⟩
    rw [cut.readOverride_eq, Text.trimChars_eq_iff.2 left, Text.trimChars_eq_iff.2 right,
      String.ofList_toList, String.ofList_toList]
  · intro read
    by_cases setting : IsSetting raw
    · obtain ⟨before, after, cut⟩ := setting
      rw [cut.readOverride_eq] at read
      cases read
      refine ⟨before, after, cut, ?_, ?_⟩
      all_goals
        rw [String.toList_ofList]
        exact Text.trimsTo_trimChars _
    · rw [readOverride_of_not_isSetting setting] at read
      cases read

theorem isSetting_iff {raw : String} : IsSetting raw ↔ ∃ name value, Sets raw name value := by
  constructor
  · rintro ⟨before, after, cut⟩
    exact ⟨_, _, sets_iff.2 cut.readOverride_eq⟩
  · rintro ⟨name, value, before, after, cut, -⟩
    exact ⟨before, after, cut⟩

/-! ## Settings in order -/

/-- The names and values that some texts set, in order. -/
def SetsEach (raws : List String) (settings : List (String × String)) : Prop :=
  List.Forall₂ (fun raw setting => Sets raw setting.1 setting.2) raws settings

theorem exists_setsEach_iff {raws : List String} :
    (∃ settings, SetsEach raws settings) ↔ ∀ raw ∈ raws, IsSetting raw := by
  induction raws with
  | nil => exact ⟨fun _ => List.forall_mem_nil _, fun _ => ⟨[], .nil⟩⟩
  | cons raw later ih =>
      rw [List.forall_mem_cons, ← ih, isSetting_iff]
      constructor
      · rintro ⟨_, _ | ⟨first, others⟩⟩
        exact ⟨⟨_, _, first⟩, _, others⟩
      · rintro ⟨⟨name, value, first⟩, settings, others⟩
        exact ⟨(name, value) :: settings, .cons first others⟩

/-- Either all texts are settings, or there is a first that is none. -/
theorem all_or_first_bad (raws : List String) :
    (∀ raw ∈ raws, IsSetting raw) ∨
      ∃ good raw later, raws = good ++ raw :: later ∧ (∀ r ∈ good, IsSetting r) ∧
        ¬IsSetting raw := by
  induction raws with
  | nil => exact .inl (List.forall_mem_nil _)
  | cons raw later ih =>
      by_cases setting : IsSetting raw
      · rcases ih with all | ⟨good, bad, rest, rfl, all, broken⟩
        · exact .inl (List.forall_mem_cons.2 ⟨setting, all⟩)
        · exact .inr ⟨raw :: good, bad, rest, rfl, List.forall_mem_cons.2 ⟨setting, all⟩, broken⟩
      · exact .inr ⟨[], raw, later, rfl, List.forall_mem_nil _, setting⟩

theorem applyOverrides_append (flags : Bindings String) (xs ys : List String) :
    applyOverrides flags (xs ++ ys) = (applyOverrides flags xs).bind (applyOverrides · ys) := by
  induction xs generalizing flags with
  | nil => rfl
  | cons raw later ih =>
      simp only [List.cons_append, applyOverrides]
      cases readOverride raw with
      | error e => rfl
      | ok setting => exact ih _

theorem applyOverrides_of_sets {raws : List String} {settings : List (String × String)}
    (sets : SetsEach raws settings) (flags : Bindings String) :
    applyOverrides flags raws = .ok (flags.insertAll settings) := by
  induction sets generalizing flags with
  | nil => rfl
  | cons first _ ih =>
      rw [applyOverrides, sets_iff.1 first]
      exact ih _

theorem applyOverrides_of_bad {good : List String} {raw : String} (all : ∀ r ∈ good, IsSetting r)
    (bad : ¬IsSetting raw) (flags : Bindings String) (later : List String) :
    applyOverrides flags (good ++ raw :: later) = .error ⟨raw⟩ := by
  obtain ⟨settings, sets⟩ := exists_setsEach_iff.2 all
  rw [applyOverrides_append, applyOverrides_of_sets sets]
  simp only [Except.bind, applyOverrides, readOverride_of_not_isSetting bad]

/-- What comes of settings: all are made, or the first bad one is reported. -/
theorem applyOverrides_cases (flags : Bindings String) (raws : List String) :
    (∃ settings, SetsEach raws settings ∧
      applyOverrides flags raws = .ok (flags.insertAll settings)) ∨
    ∃ good raw later, raws = good ++ raw :: later ∧ (∀ r ∈ good, IsSetting r) ∧
      ¬IsSetting raw ∧ applyOverrides flags raws = .error ⟨raw⟩ := by
  rcases all_or_first_bad raws with all | ⟨good, raw, later, rfl, all, bad⟩
  · obtain ⟨settings, sets⟩ := exists_setsEach_iff.2 all
    exact .inl ⟨settings, sets, applyOverrides_of_sets sets flags⟩
  · exact .inr ⟨good, raw, later, rfl, all, bad, applyOverrides_of_bad all bad flags later⟩

theorem applyOverrides_eq_ok {flags out : Bindings String} {raws : List String}
    (applied : applyOverrides flags raws = .ok out) :
    ∃ settings, SetsEach raws settings ∧ out = flags.insertAll settings := by
  rcases applyOverrides_cases flags raws with ⟨settings, sets, made⟩ | ⟨_, _, _, _, _, _, refused⟩
  · cases made.symm.trans applied
    exact ⟨settings, sets, rfl⟩
  · cases refused.symm.trans applied

theorem applyOverrides_eq_error {flags : Bindings String} {raws : List String} {e : OverrideError}
    (refused : applyOverrides flags raws = .error e) :
    ∃ good raw later, raws = good ++ raw :: later ∧ (∀ r ∈ good, IsSetting r) ∧
      ¬IsSetting raw ∧ e = ⟨raw⟩ := by
  rcases applyOverrides_cases flags raws with
    ⟨_, _, made⟩ | ⟨good, raw, later, split, all, bad, same⟩
  · cases made.symm.trans refused
  · cases same.symm.trans refused
    exact ⟨good, raw, later, split, all, bad, rfl⟩

/-- Settings that were made and are made again change nothing. -/
theorem applyOverrides_again {flags out : Bindings String} {raws : List String}
    (applied : applyOverrides flags raws = .ok out) : applyOverrides out raws = .ok out := by
  obtain ⟨settings, sets, rfl⟩ := applyOverrides_eq_ok applied
  rw [applyOverrides_of_sets sets, Bindings.insertAll_again]

/-- What flags have become once names were set: a name has the value of its last setting, or else
the one that it had, and stands where it stood, or else behind, in the order of first settings. -/
structure Overridden (flags : Bindings String) (settings : List (String × String))
    (out : Bindings String) : Prop where
  values : ∀ name, out.get? name = (Bindings.lastValue? settings name).or (flags.get? name)
  order : out.keys = flags.keys ++ Bindings.newNames flags.keys settings

/-- **The last setting of a flag wins, and settings are made all or none.** They are made iff each
of them can be cut, and otherwise the first that cannot is quoted. They may be made in two goes, and
to make them a second time has no effect. -/
theorem overrides_last_wins (flags : Bindings String) (raws : List String) :
    ((∃ out, applyOverrides flags raws = .ok out) ↔ ∀ raw ∈ raws, IsSetting raw) ∧
    (∀ e, applyOverrides flags raws = .error e →
      ∃ good raw later, raws = good ++ raw :: later ∧ (∀ r ∈ good, IsSetting r) ∧
        ¬IsSetting raw ∧ e.message = "Invalid --flag '" ++ raw ++ "': expected NAME=VALUE") ∧
    (∀ out, applyOverrides flags raws = .ok out →
      ∃ settings, SetsEach raws settings ∧ Overridden flags settings out) ∧
    (∀ later, applyOverrides flags (raws ++ later) =
      (applyOverrides flags raws).bind (applyOverrides · later)) ∧
    applyOverrides flags (raws ++ raws) = applyOverrides flags raws := by
  refine ⟨⟨?_, ?_⟩, ?_, ?_, applyOverrides_append flags raws, ?_⟩
  · rintro ⟨out, applied⟩
    obtain ⟨settings, sets, -⟩ := applyOverrides_eq_ok applied
    exact exists_setsEach_iff.1 ⟨settings, sets⟩
  · intro all
    obtain ⟨settings, sets⟩ := exists_setsEach_iff.2 all
    exact ⟨_, applyOverrides_of_sets sets flags⟩
  · intro e refused
    obtain ⟨good, raw, later, split, all, bad, rfl⟩ := applyOverrides_eq_error refused
    exact ⟨good, raw, later, split, all, bad, rfl⟩
  · intro out applied
    obtain ⟨settings, sets, rfl⟩ := applyOverrides_eq_ok applied
    exact ⟨settings, sets, flags.get?_insertAll settings, flags.keys_insertAll settings⟩
  · rw [applyOverrides_append]
    cases applied : applyOverrides flags raws with
    | error e => rfl
    | ok out => exact applyOverrides_again applied

def knownFlags : Bindings String :=
  .ofList [("UseAVX", "2"), ("Seed", "7")]

/-- A known flag that is set twice, and a new one with a `=` in its value. -/
def repeatedSettings : List String :=
  ["UseAVX=0", " Gc = a = b ", "UseAVX= 1"]

theorem overrides_last_wins_repeated :
    (∃ out settings, applyOverrides knownFlags repeatedSettings = .ok out ∧
      out.entries = [("UseAVX", "1"), ("Seed", "7"), ("Gc", "a = b")] ∧
      SetsEach repeatedSettings settings ∧ Overridden knownFlags settings out) ∧
    ∃ e, applyOverrides knownFlags ["Seed=1", " =2", "Seed"] = .error e ∧
      ∃ good raw later, ["Seed=1", " =2", "Seed"] = good ++ raw :: later ∧
        (∀ r ∈ good, IsSetting r) ∧ ¬IsSetting raw ∧
        e.message = "Invalid --flag '" ++ raw ++ "': expected NAME=VALUE" := by
  have applied : applyOverrides knownFlags repeatedSettings =
      .ok (.ofList [("UseAVX", "1"), ("Seed", "7"), ("Gc", "a = b")]) := by
    decide +kernel
  have refused : applyOverrides knownFlags ["Seed=1", " =2", "Seed"] = .error ⟨" =2"⟩ := by
    decide +kernel
  obtain ⟨settings, sets, overridden⟩ :=
    (overrides_last_wins knownFlags repeatedSettings).2.2.1 _ applied
  exact ⟨⟨_, settings, applied, by decide +kernel, sets, overridden⟩, _, refused,
    (overrides_last_wins knownFlags _).2.1 _ refused⟩

end DumpRules
