/-!
Names bound to values, in the order in which they were first bound. Binding a name again replaces its
value and keeps its place. A name is bound at most once.
-/

namespace DumpRules

set_option autoImplicit false

variable {β : Type}

/-- Puts a value at a name: in place of the present one, or else at the end. -/
def bindIn (name : String) (value : β) : List (String × β) → List (String × β)
  | [] => [(name, value)]
  | (n, v) :: later => if n = name then (n, value) :: later else (n, v) :: bindIn name value later

theorem keys_bindIn (name : String) (value : β) (entries : List (String × β)) :
    (bindIn name value entries).map Prod.fst =
      if name ∈ entries.map Prod.fst then entries.map Prod.fst
      else entries.map Prod.fst ++ [name] := by
  induction entries with
  | nil => simp [bindIn]
  | cons e later ih =>
    obtain ⟨n, v⟩ := e
    by_cases h : n = name
    · simp [bindIn, h]
    · have h' : name ≠ n := fun e => h e.symm
      simp only [bindIn, h, if_false, List.map_cons, ih, List.mem_cons, h', false_or]
      split <;> simp

theorem lookup_bindIn (name other : String) (value : β) (entries : List (String × β)) :
    (bindIn name value entries).lookup other =
      if other = name then some value else entries.lookup other := by
  induction entries with
  | nil =>
    by_cases h : other = name
    · simp [bindIn, h]
    · have hb : (other == name) = false := by simp [h]
      simp [bindIn, List.lookup_cons, h, hb]
  | cons e later ih =>
    obtain ⟨n, v⟩ := e
    by_cases ho : other = n
    · subst ho
      by_cases h : other = name <;> simp [bindIn, h]
    · have hb : (other == n) = false := by simp [ho]
      by_cases h : n = name
      · subst h
        simp [bindIn, List.lookup_cons, ho, hb]
      · simp [bindIn, h, List.lookup_cons, hb, ih]

/-- Names bound to values, in order. -/
structure Bindings (β : Type) where
  entries : List (String × β)
  nodup : (entries.map Prod.fst).Nodup

namespace Bindings

@[ext] theorem ext {a b : Bindings β} (h : a.entries = b.entries) : a = b := by
  cases a; cases b; simp_all

instance [DecidableEq β] : DecidableEq (Bindings β) := fun a b =>
  decidable_of_iff (a.entries = b.entries) ⟨ext, fun h => h ▸ rfl⟩

/-- No names. -/
def empty : Bindings β :=
  ⟨[], by simp⟩

instance : Inhabited (Bindings β) := ⟨empty⟩

/-- The names, in order. -/
def keys (b : Bindings β) : List String :=
  b.entries.map Prod.fst

/-- The value of a name. -/
def get? (b : Bindings β) (name : String) : Option β :=
  b.entries.lookup name

/-- Binds a name. -/
def insert (b : Bindings β) (name : String) (value : β) : Bindings β where
  entries := bindIn name value b.entries
  nodup := by
    rw [keys_bindIn]
    split
    · exact b.nodup
    · next h =>
      refine List.nodup_append.2 ⟨b.nodup, by simp, ?_⟩
      intro x hx y hy e
      simp only [List.mem_singleton] at hy
      exact h (hy ▸ e ▸ hx)

/-- A new name comes last, a known one stays where it is. -/
theorem keys_insert (b : Bindings β) (name : String) (value : β) :
    (b.insert name value).keys = if name ∈ b.keys then b.keys else b.keys ++ [name] :=
  keys_bindIn name value b.entries

/-- Binding a name sets its value and no other. -/
theorem get?_insert (b : Bindings β) (name other : String) (value : β) :
    (b.insert name value).get? other = if other = name then some value else b.get? other :=
  lookup_bindIn name other value b.entries

/-- Binds names one after the other. -/
def insertAll (b : Bindings β) (pairs : List (String × β)) : Bindings β :=
  pairs.foldl (fun b (name, value) => b.insert name value) b

/-- The bindings that come of binding names one after the other. -/
def ofList (pairs : List (String × β)) : Bindings β :=
  empty.insertAll pairs

end Bindings

end DumpRules
