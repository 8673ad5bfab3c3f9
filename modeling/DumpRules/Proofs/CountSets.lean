import DumpRules.CountSet
import Mathlib.Data.Nat.Bitwise

/-!
# Which counts a count set permits

A set of counts is known by the counts it permits, and a count of 63 or more is permitted with all
others of that size. The operations are stated in these terms only, down to the set of a relation,
which permits a count iff the relation holds of it, or of some count from 63 on if it is one of
those.
-/

namespace DumpRules.CountSet

set_option autoImplicit false

/-! ## Bits -/

theorem toNat_place {n : Nat} (small : n ≤ top) : n.toUInt64.toNat % 64 = n := by
  have bound : n < 64 := Nat.lt_succ_of_le small
  have same : n.toUInt64.toNat = n := UInt64.toNat_ofNat_of_lt' (bound.trans (by decide))
  rw [same, Nat.mod_eq_of_lt bound]

theorem permits_eq_testBit (s : CountSet) (n : Nat) :
    s.permits n = s.bits.toNat.testBit (min n top) := by
  rw [permits, Bool.eq_iff_iff, beq_iff_eq, ← UInt64.toNat_inj, UInt64.toNat_and,
    UInt64.toNat_shiftRight, toNat_place (Nat.min_le_right n top)]
  show s.bits.toNat >>> min n top &&& 1 = 1 ↔ _
  rw [Nat.and_one_is_mod, Nat.shiftRight_eq_div_pow, Nat.testBit_eq_decide_div_mod_eq,
    decide_eq_true_iff]

theorem testBit_all (i : Nat) : all.bits.toNat.testBit i = decide (i < 64) :=
  Nat.testBit_two_pow_sub_one 64 i

/-! ## Operations -/

@[simp] theorem permits_all (n : Nat) : all.permits n = true := by
  rw [permits_eq_testBit, testBit_all, decide_eq_true_iff]
  exact Nat.lt_succ_of_le (Nat.min_le_right n top)

@[simp] theorem permits_empty (n : Nat) : empty.permits n = false := by
  rw [permits_eq_testBit]
  exact Nat.zero_testBit _

@[simp] theorem permits_inter (s t : CountSet) (n : Nat) :
    (s.inter t).permits n = (s.permits n && t.permits n) := by
  simp only [permits_eq_testBit, inter, UInt64.toNat_and, Nat.testBit_and]

@[simp] theorem permits_compl (s : CountSet) (n : Nat) : s.compl.permits n = !s.permits n := by
  have below : min n top < 64 := Nat.lt_succ_of_le (Nat.min_le_right n top)
  have flipped : (~~~s.bits).toNat = 2 ^ 64 - (s.bits.toNat + 1) := by
    rw [UInt64.toNat_not, Nat.sub_sub, Nat.add_comm]
    rfl
  simp only [permits_eq_testBit, compl, flipped]
  rw [Nat.testBit_two_pow_sub_succ s.bits.toNat_lt]
  simp [below]

@[simp] theorem permits_atLeast (low n : Nat) :
    (atLeast low).permits n = decide (min low top ≤ min n top) := by
  have below : min n top < 64 := Nat.lt_succ_of_le (Nat.min_le_right n top)
  simp only [permits_eq_testBit, atLeast, UInt64.toNat_shiftLeft,
    toNat_place (Nat.min_le_right low top), Nat.testBit_mod_two_pow, Nat.testBit_shiftLeft,
    testBit_all]
  rw [Bool.eq_iff_iff]
  simp only [Bool.and_eq_true, decide_eq_true_iff]
  omega

@[simp] theorem permits_atMost (high n : Nat) :
    (atMost high).permits n = decide (min n top ≤ min high top) := by
  simp only [permits_eq_testBit, atMost, UInt64.toNat_shiftRight,
    toNat_place (Nat.sub_le top (min high top)), Nat.testBit_shiftRight, testBit_all]
  have last : top = 63 := rfl
  rw [decide_eq_decide]
  omega

@[simp] theorem permits_exactly (m n : Nat) :
    (exactly m).permits n = decide (min n top = min m top) := by
  rw [exactly, permits_inter, permits_atMost, permits_atLeast, Bool.eq_iff_iff]
  simp only [Bool.and_eq_true, decide_eq_true_iff]
  omega

theorem permitsZero_eq (s : CountSet) : s.permitsZero = s.permits 0 := by
  have unshifted : s.bits >>> (min 0 top).toUInt64 = s.bits := by
    rw [← UInt64.toNat_inj, UInt64.toNat_shiftRight, toNat_place (Nat.min_le_right 0 top)]
    rfl
  rw [permitsZero, permits, unshifted]

/-- A set is known by the counts that it permits. -/
theorem eq_of_permits {s t : CountSet} (same : ∀ n, s.permits n = t.permits n) : s = t := by
  obtain ⟨bits⟩ := s
  obtain ⟨bits'⟩ := t
  rw [mk.injEq, ← UInt64.toNat_inj]
  refine Nat.eq_of_testBit_eq fun i => ?_
  by_cases inside : i ≤ top
  · have here := same i
    rwa [permits_eq_testBit, permits_eq_testBit, Nat.min_eq_left inside] at here
  · -- Beyond the last bit both words are clear.
    have beyond : 2 ^ 64 ≤ 2 ^ i := Nat.pow_le_pow_right (by decide) (Nat.lt_of_not_le inside)
    rw [Nat.testBit_lt_two_pow (bits.toNat_lt.trans_le beyond),
      Nat.testBit_lt_two_pow (bits'.toNat_lt.trans_le beyond)]

theorem isEmpty_iff (s : CountSet) : s.isEmpty = true ↔ ∀ n, s.permits n = false := by
  have clear : s.isEmpty = true ↔ s = empty := by
    rw [isEmpty, beq_iff_eq]
    exact ⟨fun zero => congrArg mk zero, fun same => congrArg bits same⟩
  rw [clear]
  constructor
  · rintro rfl n
    exact permits_empty n
  · intro nothing
    refine eq_of_permits fun n => ?_
    rw [nothing, permits_empty]

theorem isEmpty_eq_false_iff (s : CountSet) : s.isEmpty = false ↔ ∃ n, s.permits n = true := by
  rw [← Bool.not_eq_true, isEmpty_iff]
  simp

/-! ## Relations -/

/-- Where the bits of a relation are set, in numbers. -/
theorem permits_ofRelation (r : Relation) (n : Nat) :
    (ofRelation r).permits n = true ↔
      match r.comparator with
      | .eq => min n top = min r.bound.toNat top
      | .ne => r.bound.toNat < top → min n top ≠ r.bound.toNat
      | .lt => r.bound.toNat ≠ 0 ∧ min n top ≤ min (r.bound.toNat - 1) top
      | .le => min n top ≤ min r.bound.toNat top
      | .gt => r.bound.toNat + 1 ≠ UInt64.size ∧ min (r.bound.toNat + 1) top ≤ min n top
      | .ge => min r.bound.toNat top ≤ min n top := by
  obtain ⟨comparator, bound⟩ := r
  unfold ofRelation
  cases comparator with
  | eq => simp
  | ne =>
      by_cases small : bound.toNat < top
      · simp [small, Nat.min_eq_left small.le]
      · simp [small]
  | lt => by_cases zero : bound.toNat = 0 <;> simp [zero]
  | le => simp
  | gt => by_cases last : bound.toNat + 1 = UInt64.size <;> simp [last]
  | ge => simp

/-- A count with a bit of its own is permitted iff the relation holds of it. -/
theorem permits_ofRelation_of_lt (r : Relation) {n : Nat} (small : n < top) :
    (ofRelation r).permits n = r.holds n := by
  have limit : r.bound.toNat < UInt64.size := r.bound.toNat_lt
  have words : top < UInt64.size := by decide
  rw [Bool.eq_iff_iff, permits_ofRelation]
  obtain ⟨comparator, bound⟩ := r
  cases comparator <;> simp [Relation.holds, Comparator.holds] at limit ⊢ <;> omega

theorem exists_toNat {P : Nat → Prop} :
    (∃ count : UInt64, P count.toNat) ↔ ∃ m < UInt64.size, P m := by
  constructor
  · rintro ⟨count, holds⟩
    exact ⟨count.toNat, count.toNat_lt, holds⟩
  · rintro ⟨m, small, holds⟩
    exact ⟨.ofNat m, by rwa [UInt64.toNat_ofNat_of_lt' small]⟩

/-- The last bit is set iff the relation holds of some count from 63 on. -/
theorem permits_ofRelation_of_ge (r : Relation) {n : Nat} (large : top ≤ n) :
    (ofRelation r).permits n = true ↔
      ∃ count : UInt64, top ≤ count.toNat ∧ r.holds count.toNat = true := by
  have limit : r.bound.toNat < UInt64.size := r.bound.toNat_lt
  have words : top + 1 < UInt64.size := by decide
  rw [permits_ofRelation, exists_toNat (P := fun m => top ≤ m ∧ r.holds m = true)]
  obtain ⟨comparator, bound⟩ := r
  -- Upper bounds are met by 63 if at all, lower ones by the greatest count.
  cases comparator <;> simp only [Relation.holds, Comparator.holds, decide_eq_true_eq, beq_iff_eq,
    bne_iff_ne] at limit ⊢
  case eq =>
    exact ⟨fun same => ⟨bound.toNat, limit, by omega, rfl⟩, fun ⟨m, _, _, same⟩ => by omega⟩
  case ne =>
    refine ⟨fun _ => ?_, fun _ => by omega⟩
    by_cases same : bound.toNat = top
    · exact ⟨top + 1, words, by omega, by omega⟩
    · exact ⟨top, by omega, by omega, by omega⟩
  case lt | le =>
    exact ⟨fun _ => ⟨top, by omega, by omega, by omega⟩, fun ⟨m, _, _, less⟩ => by omega⟩
  case gt | ge =>
    exact ⟨fun _ => ⟨UInt64.size - 1, by omega, by omega, by omega⟩,
      fun ⟨m, _, _, more⟩ => by omega⟩

/-- No count that satisfies a relation is left out of its set. -/
theorem permits_ofRelation_of_holds {r : Relation} {count : UInt64}
    (holds : r.holds count.toNat = true) : (ofRelation r).permits count.toNat = true := by
  by_cases small : count.toNat < top
  · rwa [permits_ofRelation_of_lt r small]
  · have large := Nat.le_of_not_lt small
    exact (permits_ofRelation_of_ge r large).2 ⟨count, large, holds⟩

/-- Several relations permit what each of them permits. -/
theorem permits_ofRelations (rs : List Relation) (n : Nat) :
    (ofRelations rs).permits n = rs.all fun r => (ofRelation r).permits n := by
  have run : ∀ s : CountSet, (rs.foldl (fun s r => s.inter (ofRelation r)) s).permits n =
      (s.permits n && rs.all fun r => (ofRelation r).permits n) := by
    induction rs with
    | nil => simp
    | cons r later ih =>
        intro s
        rw [List.foldl_cons, ih, permits_inter, List.all_cons, Bool.and_assoc]
  rw [ofRelations, run, permits_all, Bool.true_and]

end DumpRules.CountSet
