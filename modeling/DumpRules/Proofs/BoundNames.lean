import DumpRules.Bindings
import Mathlib.Data.List.Nodup

/-!
# Names bound in order

Bindings are a list without repeated names, known by its names in order and by the value of each
(`eq_of_get?`). When names are bound one after the other, a name has the value that it was bound to
last and stands where it was bound first (`get?_insertAll`, `keys_insertAll`). To bind the same
names to the same values again changes neither (`insertAll_again`).
-/

namespace DumpRules.Bindings

set_option autoImplicit false

variable {β : Type}

theorem get?_eq_some_iff (b : Bindings β) {name : String} {value : β} :
    b.get? name = some value ↔ (name, value) ∈ b.entries := by
  rw [Bindings.get?, List.lookup_eq_some_iff]
  constructor
  · rintro ⟨before, after, split, -⟩
    simp [split]
  · intro member
    obtain ⟨before, after, split⟩ := List.append_of_mem member
    refine ⟨before, after, split, fun e earlier => ?_⟩
    have once := b.nodup
    rw [split, List.map_append, List.map_cons] at once
    have apart := List.disjoint_of_nodup_append once (List.mem_map_of_mem earlier)
    simp only [bne_iff_ne, ne_eq]
    intro same
    exact apart (same ▸ List.mem_cons_self)

theorem get?_perm {b b' : Bindings β} (perm : b.entries.Perm b'.entries) (name : String) :
    b.get? name = b'.get? name := by
  apply Option.ext
  intro value
  rw [b.get?_eq_some_iff, b'.get?_eq_some_iff]
  exact perm.mem_iff

/-- The entries are the names, each with its value. -/
theorem entries_eq (b : Bindings β) :
    b.entries = b.keys.filterMap fun name => (b.get? name).map (name, ·) := by
  have own : ∀ entry ∈ b.entries, (b.get? entry.1).map (entry.1, ·) = some entry := by
    intro entry member
    rw [b.get?_eq_some_iff.2 member]
    rfl
  calc b.entries
    _ = b.entries.filterMap some := List.filterMap_some.symm
    _ = b.entries.filterMap fun entry => (b.get? entry.1).map (entry.1, ·) :=
        (List.filterMap_congr own).symm
    _ = b.keys.filterMap fun name => (b.get? name).map (name, ·) := by
        rw [keys, List.filterMap_map]
        rfl

/-- Bindings with the same names in the same order and with the same values are the same. -/
theorem eq_of_get? {b b' : Bindings β} (keys : b.keys = b'.keys)
    (values : ∀ name, b.get? name = b'.get? name) : b = b' := by
  apply Bindings.ext
  rw [b.entries_eq, b'.entries_eq, keys]
  simp only [values]

/-! ## Names bound one after the other -/

/-- The value that the last of some pairs has for a name. -/
def lastValue? (pairs : List (String × β)) (name : String) : Option β :=
  pairs.reverse.lookup name

/-- The names of some pairs that are not known yet, in the order in which they first occur. -/
def newNames (known : List String) (pairs : List (String × β)) : List String :=
  ((pairs.map Prod.fst).filter (· ∉ known)).eraseDups

theorem lastValue?_cons (name other : String) (value : β) (later : List (String × β)) :
    lastValue? ((name, value) :: later) other =
      (lastValue? later other).or (if other = name then some value else none) := by
  rw [lastValue?, List.reverse_cons, List.lookup_append]
  congr 1
  by_cases same : other = name
  · simp [same]
  · simp [List.lookup_cons, same, beq_false_of_ne same]

theorem newNames_of_mem {known : List String} {name : String} (old : name ∈ known) (value : β)
    (later : List (String × β)) :
    newNames known ((name, value) :: later) = newNames known later := by
  simp [newNames, old]

theorem newNames_of_not_mem {known : List String} {name : String} (new : name ∉ known) (value : β)
    (later : List (String × β)) :
    newNames known ((name, value) :: later) = name :: newNames (known ++ [name]) later := by
  have both : ∀ n, (!n == name && decide (n ∉ known)) = decide (n ∉ known ++ [name]) := by
    intro n
    by_cases same : n = name <;> simp [same]
  simp only [newNames, List.map_cons, List.filter_cons, new, not_false_eq_true, decide_true,
    if_true, List.eraseDups_cons, List.filter_filter, both]

theorem insertAll_cons (b : Bindings β) (name : String) (value : β) (later : List (String × β)) :
    b.insertAll ((name, value) :: later) = (b.insert name value).insertAll later :=
  rfl

/-- The last binding of a name gives its value. -/
theorem get?_insertAll (b : Bindings β) (pairs : List (String × β)) (name : String) :
    (b.insertAll pairs).get? name = (lastValue? pairs name).or (b.get? name) := by
  induction pairs generalizing b with
  | nil => rfl
  | cons pair later ih =>
      obtain ⟨n, value⟩ := pair
      rw [insertAll_cons, ih, get?_insert, lastValue?_cons, Option.or_assoc]
      split <;> rfl

/-- The first binding of a name gives its place. -/
theorem keys_insertAll (b : Bindings β) (pairs : List (String × β)) :
    (b.insertAll pairs).keys = b.keys ++ newNames b.keys pairs := by
  induction pairs generalizing b with
  | nil => simp [insertAll, newNames]
  | cons pair later ih =>
      obtain ⟨name, value⟩ := pair
      rw [insertAll_cons, ih, keys_insert]
      by_cases old : name ∈ b.keys
      · rw [if_pos old, newNames_of_mem old]
      · rw [if_neg old, newNames_of_not_mem old, List.append_assoc, List.singleton_append]

theorem insertAll_again (b : Bindings β) (pairs : List (String × β)) :
    (b.insertAll pairs).insertAll pairs = b.insertAll pairs := by
  have nothing : newNames (b.insertAll pairs).keys pairs = [] := by
    -- Once they are bound, the names are known.
    have bound : ∀ name ∈ pairs.map Prod.fst, name ∈ (b.insertAll pairs).keys := by
      intro name member
      rw [keys_insertAll, List.mem_append, newNames, List.mem_eraseDups, List.mem_filter]
      by_cases old : name ∈ b.keys
      · exact .inl old
      · exact .inr ⟨member, decide_eq_true old⟩
    have none_left : (pairs.map Prod.fst).filter (· ∉ (b.insertAll pairs).keys) = [] := by
      rw [List.filter_eq_nil_iff]
      exact fun name member => by simpa using bound name member
    rw [newNames, none_left]
    rfl
  apply eq_of_get?
  · rw [keys_insertAll, nothing, List.append_nil]
  · intro name
    rw [get?_insertAll, get?_insertAll, ← Option.or_assoc, Option.or_self]

end DumpRules.Bindings
