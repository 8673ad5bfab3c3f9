import DumpRules.Proofs.CountSets

/-!
# Counts saturated at the last bit

Counts share a bit iff they are the same once cut off at 63, so the set of a relation can at best be
the image of the counts that satisfy it. It is just that image, whatever the bound
(`testBit_ofRelation`). The sets of several relations are intersected, which is exact for the counts
that have a bit of their own and leaves out no other that would do (`ofRelations_saturated`).

The bits are found by shifts of one word. A shift by 64 places or more, and a sum or difference that
is no word, would wrap around; `relationWord?` finds the bits by operations that have no result
there, and always has one.
-/

namespace DumpRules

set_option autoImplicit false

/-! ## Words without wrapping -/

namespace Word

/-- A word moved to the left, by less than its width. -/
def shiftLeft? (word amount : UInt64) : Option UInt64 :=
  if amount < 64 then some (word <<< amount) else none

/-- A word moved to the right, by less than its width. -/
def shiftRight? (word amount : UInt64) : Option UInt64 :=
  if amount < 64 then some (word >>> amount) else none

/-- A sum, if it is a word. -/
def add? (a b : UInt64) : Option UInt64 :=
  if a.toNat + b.toNat < UInt64.size then some (a + b) else none

/-- A difference, if it is a word. -/
def sub? (a b : UInt64) : Option UInt64 :=
  if b ≤ a then some (a - b) else none

end Word

open Word

/-- The number of the bit of a count. -/
def bitOf (count : UInt64) : UInt64 :=
  if count < 63 then count else 63

/-- The bits of the counts from `low` to `high`, or of all from `low` on. -/
def rangeWord? (low : UInt64) (high : Option UInt64) : Option UInt64 :=
  if high.any (· < low) then some 0
  else
    ((sub? 63 (high.elim 63 bitOf)).bind (shiftRight? CountSet.all.bits)).bind fun upTo =>
    (shiftLeft? CountSet.all.bits (bitOf low)).map fun onward => upTo &&& onward

/-- The bits of the counts that satisfy a relation. -/
def relationWord? (r : Relation) : Option UInt64 :=
  match r.comparator with
  | .eq => rangeWord? r.bound (some r.bound)
  | .ne =>
    if r.bound < 63 then (rangeWord? r.bound (some r.bound)).map (~~~·)
    else some CountSet.all.bits
  | .lt =>
    match sub? r.bound 1 with
    | some high => rangeWord? 0 (some high)
    | none => some 0
  | .le => rangeWord? 0 (some r.bound)
  | .gt =>
    match add? r.bound 1 with
    | some low => rangeWord? low none
    | none => some 0
  | .ge => rangeWord? r.bound none

namespace CountSet

theorem toNat_bitOf (n : UInt64) : (bitOf n).toNat = min n.toNat top := by
  have last : (63 : UInt64).toNat = top := rfl
  unfold bitOf
  split <;> rename_i order <;> rw [UInt64.lt_iff_toNat_lt, last] at order <;> omega

theorem bitOf_eq (n : UInt64) : bitOf n = (min n.toNat top).toUInt64 := by
  rw [← toNat_bitOf]
  exact UInt64.ofNat_toNat.symm

/-- The counts from `low` on are found by a shift to the left. -/
theorem shiftLeft?_bitOf (low : UInt64) :
    shiftLeft? all.bits (bitOf low) = some (atLeast low.toNat).bits := by
  have short : bitOf low < 64 := by
    rw [UInt64.lt_iff_toNat_lt, toNat_bitOf]
    exact Nat.lt_succ_of_le (Nat.min_le_right _ _)
  rw [shiftLeft?, if_pos short, bitOf_eq]
  rfl

/-- The counts up to `high` are found by a shift to the right. -/
theorem shiftRight?_bitOf (high : UInt64) :
    (sub? 63 (bitOf high)).bind (shiftRight? all.bits) = some (atMost high.toNat).bits := by
  have fits : bitOf high ≤ 63 := by
    rw [UInt64.le_iff_toNat_le, toNat_bitOf]
    exact Nat.min_le_right _ _
  have spare : 63 - bitOf high = (top - min high.toNat top).toUInt64 := by
    rw [← UInt64.toNat_inj, UInt64.toNat_sub_of_le _ _ fits, toNat_bitOf]
    exact (UInt64.toNat_ofNat_of_lt' ((Nat.sub_le _ _).trans_lt (by decide))).symm
  have short : 63 - bitOf high < 64 := by
    rw [UInt64.lt_iff_toNat_lt, UInt64.toNat_sub_of_le _ _ fits]
    exact Nat.lt_succ_of_le (Nat.sub_le _ _)
  rw [sub?, if_pos fits, Option.bind_some, shiftRight?, if_pos short, spare]
  rfl

theorem rangeWord?_some {low high : UInt64} (order : low ≤ high) :
    rangeWord? low (some high) = some ((atMost high.toNat).inter (atLeast low.toNat)).bits := by
  have straight : (some high).any (· < low) = false := by simpa using order
  simp only [rangeWord?, straight, Bool.false_eq_true, if_false, Option.elim_some,
    shiftRight?_bitOf, Option.bind_some, shiftLeft?_bitOf, Option.map_some]
  rfl

theorem rangeWord?_none (low : UInt64) :
    rangeWord? low none = some (atLeast low.toNat).bits := by
  have whole : (sub? 63 63).bind (shiftRight? all.bits) = some all.bits := by decide
  have same : all.inter (atLeast low.toNat) = atLeast low.toNat :=
    eq_of_permits fun n => by rw [permits_inter, permits_all, Bool.true_and]
  simp only [rangeWord?, Option.any_none, Bool.false_eq_true, if_false, Option.elim_none, whole,
    Option.bind_some, shiftLeft?_bitOf, Option.map_some]
  exact congrArg (fun s => some s.bits) same

theorem rangeWord?_zero (high : UInt64) :
    rangeWord? 0 (some high) = some (atMost high.toNat).bits := by
  have same : (atMost high.toNat).inter (atLeast 0) = atMost high.toNat :=
    eq_of_permits fun n => by simp
  rw [rangeWord?_some (UInt64.zero_le)]
  exact congrArg (fun s => some s.bits) same

/-- The bits of a relation are found without wrapping, whatever its bound. -/
theorem relationWord?_eq (r : Relation) : relationWord? r = some (ofRelation r).bits := by
  obtain ⟨comparator, bound⟩ := r
  have alone : rangeWord? bound (some bound) = some (exactly bound.toNat).bits :=
    rangeWord?_some (UInt64.le_refl bound)
  unfold relationWord? ofRelation
  cases comparator with
  | eq => exact alone
  | ne =>
      by_cases small : bound.toNat < top
      · have small' : bound < 63 := small
        simp only [small, small', if_true, alone, Option.map_some]
        rfl
      · have large : ¬bound < 63 := small
        simp only [small, large, if_false]
  | lt =>
      by_cases zero : bound.toNat = 0
      · have below : ¬1 ≤ bound := by
          rw [UInt64.le_iff_toNat_le, zero]
          decide
        simp only [sub?, below, zero, if_true, if_false]
        rfl
      · have fits : 1 ≤ bound := by
          rw [UInt64.le_iff_toNat_le]
          exact Nat.one_le_iff_ne_zero.2 zero
        simp only [sub?, fits, zero, if_true, if_false, rangeWord?_zero,
          UInt64.toNat_sub_of_le _ _ fits]
        rfl
  | le => exact rangeWord?_zero bound
  | gt =>
      by_cases last : bound.toNat + 1 = UInt64.size
      · have full : ¬bound.toNat + (1 : UInt64).toNat < UInt64.size := Nat.not_lt.2 last.ge
        simp only [add?, full, last, if_true, if_false]
        rfl
      · have fits : bound.toNat + (1 : UInt64).toNat < UInt64.size :=
          Nat.lt_of_le_of_ne bound.toNat_lt last
        have next : (bound + 1).toNat = bound.toNat + 1 := by
          rw [UInt64.toNat_add]
          exact Nat.mod_eq_of_lt fits
        simp only [add?, fits, last, if_true, if_false, rangeWord?_none, next]
  | ge => exact rangeWord?_none bound

/-! ## One relation -/

/-- A bit is set iff some count that has this bit satisfies the relation. -/
theorem testBit_ofRelation (r : Relation) (k : Nat) :
    (ofRelation r).bits.toNat.testBit k = true ↔
      ∃ count : UInt64, min count.toNat top = k ∧ r.holds count.toNat = true := by
  rcases Nat.lt_trichotomy k top with own | rfl | beyond
  · have bit : (ofRelation r).bits.toNat.testBit k = r.holds k := by
      rw [← permits_ofRelation_of_lt r own, permits_eq_testBit, Nat.min_eq_left own.le]
    rw [bit, exists_toNat (P := fun m => min m top = k ∧ r.holds m = true)]
    constructor
    · exact fun holds => ⟨k, own.trans (by decide), Nat.min_eq_left own.le, holds⟩
    · rintro ⟨m, -, same, holds⟩
      obtain rfl : m = k := by omega
      exact holds
  · have bit : (ofRelation r).bits.toNat.testBit top = (ofRelation r).permits top := by
      rw [permits_eq_testBit, Nat.min_self]
    have shares : ∀ n, min n top = top ↔ top ≤ n := fun n => by omega
    rw [bit, permits_ofRelation_of_ge r le_rfl]
    simp only [shares]
  · have wide : 2 ^ 64 ≤ 2 ^ k := Nat.pow_le_pow_right (by decide) beyond
    rw [Nat.testBit_lt_two_pow ((ofRelation r).bits.toNat_lt.trans_le wide)]
    refine ⟨fun set => absurd set Bool.false_ne_true, ?_⟩
    rintro ⟨count, rfl, -⟩
    exact absurd (Nat.min_le_right _ _) (Nat.not_le_of_lt beyond)

/-! ## Several relations -/

theorem permits_ofRelations_of_lt (rs : List Relation) {n : Nat} (small : n < top) :
    (ofRelations rs).permits n = rs.all (·.holds n) := by
  rw [permits_ofRelations]
  exact congrArg rs.all (funext fun r => permits_ofRelation_of_lt r small)

theorem permits_ofRelations_of_holds {rs : List Relation} {count : UInt64}
    (holds : rs.all (·.holds count.toNat) = true) :
    (ofRelations rs).permits count.toNat = true := by
  rw [List.all_eq_true] at holds
  rw [permits_ofRelations, List.all_eq_true]
  exact fun r member => permits_ofRelation_of_holds (holds r member)

theorem ofRelations_append (xs ys : List Relation) :
    ofRelations (xs ++ ys) = (ofRelations xs).inter (ofRelations ys) := by
  refine eq_of_permits fun n => ?_
  rw [permits_inter, permits_ofRelations, permits_ofRelations, permits_ofRelations,
    List.all_append]

/-- Neither the order nor the number of times that relations are given matters. -/
theorem ofRelations_congr {xs ys : List Relation} (same : ∀ r, r ∈ xs ↔ r ∈ ys) :
    ofRelations xs = ofRelations ys := by
  refine eq_of_permits fun n => ?_
  rw [permits_ofRelations, permits_ofRelations, Bool.eq_iff_iff, List.all_eq_true,
    List.all_eq_true]
  exact forall_congr' fun r => imp_congr_left (same r)

/-- **Sets of counts are saturated images.** The bits of a relation are found without wrapping, and
each of them is set iff some count that has this bit satisfies the relation. Several relations
permit a count up to 62 iff all of them hold of it, and any greater count of which all of them hold;
relations that are put together permit what both parts permit, however they are ordered and
repeated. -/
theorem ofRelations_saturated (r : Relation) (xs ys : List Relation) :
    relationWord? r = some (ofRelation r).bits ∧
    (∀ k, (ofRelation r).bits.toNat.testBit k = true ↔
      ∃ count : UInt64, min count.toNat 63 = k ∧ r.holds count.toNat = true) ∧
    (∀ n ≤ 62, (ofRelations xs).permits n = xs.all (·.holds n)) ∧
    (∀ count : UInt64, 63 ≤ count.toNat → xs.all (·.holds count.toNat) = true →
      (ofRelations xs).permits count.toNat = true) ∧
    ofRelations (xs ++ ys) = (ofRelations xs).inter (ofRelations ys) ∧
    ((∀ r, r ∈ xs ↔ r ∈ ys) → ofRelations xs = ofRelations ys) := by
  refine ⟨relationWord?_eq r, testBit_ofRelation r, ?_, ?_, ofRelations_append xs ys,
    ofRelations_congr⟩
  · exact fun n small => permits_ofRelations_of_lt xs (Nat.lt_succ_of_le small)
  · exact fun count _ holds => permits_ofRelations_of_holds holds

/-- At least 63, and not the count next to it. -/
def fromLastBit : List Relation :=
  [⟨.ge, 63⟩, ⟨.ne, 64⟩]

/-- The counts on either side of the last bit's first, and the relations given twice, the first time
in the other order. -/
theorem ofRelations_saturated_lastBit :
    (62 ≤ 62 ∧ (ofRelations fromLastBit).permits 62 = fromLastBit.all (·.holds 62)) ∧
    (63 ≤ (65 : UInt64).toNat ∧ fromLastBit.all (·.holds (65 : UInt64).toNat) = true ∧
      (ofRelations fromLastBit).permits (65 : UInt64).toNat = true) ∧
    ofRelations fromLastBit = ofRelations (fromLastBit.reverse ++ fromLastBit) := by
  have saturated := ofRelations_saturated ⟨.gt, 0xffffffffffffffff⟩ fromLastBit
    (fromLastBit.reverse ++ fromLastBit)
  obtain ⟨-, -, own, shared, -, same⟩ := saturated
  refine ⟨⟨le_rfl, own 62 le_rfl⟩, ⟨by decide, by decide, shared 65 (by decide) (by decide)⟩, ?_⟩
  exact same fun r => by simp

-- From 63 on, relations that cannot hold together may still permit a count.
example : (ofRelations [⟨.gt, 100⟩, ⟨.lt, 80⟩]).permits 90 = true := by decide

end CountSet

end DumpRules
