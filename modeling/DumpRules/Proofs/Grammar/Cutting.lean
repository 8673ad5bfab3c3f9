import DumpRules.Proofs.Grammar.Soundness

/-!
# What was written stands for itself

A derivation never looks behind the text that it reads, except to see that a token goes no further,
and then less text behind it cannot hurt. So whatever is written in front of some text is also
written alone (`Cuttable`), and an entry can be cut out of its list.

References are cut out too where the names before their node are no names of phases, or not of
distinct ones. `RefShaped` is the form that such a reference still has.
-/

namespace DumpRules.Grammar

set_option autoImplicit false

variable {α : Type}

/-! ## Shapes -/

/-- What the name of a phase, if it were one, goes on with. -/
def NameLater (c : Char) : Prop :=
  Letter c ∨ Digit c ∨ c = '_'

/-- A name, as long as it can be. -/
inductive NameWritten : Reading String
  | mk {c : Char} {cs rest : List Char} (first : Letter c) (later : ∀ x ∈ cs, NameLater x)
      (ends : Ends NameLater rest) : NameWritten (String.ofList (c :: cs)) (c :: cs ++ rest) rest

/-- Names with `|` between them and `:` after the last. -/
inductive NamesWritten : Reading (List String)
  | mk {names : List String} {source m m' rest : List Char}
      (each : Items NameWritten (Behind '|' NameWritten) names source m)
      (before : Gap m (':' :: m')) (after : Gap m' rest) : NamesWritten names source rest

/-- A node, perhaps behind names. -/
inductive RefShaped : Reading (Option (List String) × String)
  | plain {node : String} {source rest : List Char} (ident : NodeWritten node source rest) :
      RefShaped (none, node) source rest
  | prefixed {names : List String} {node : String} {source m rest : List Char}
      (named : NamesWritten names source m) (ident : NodeWritten node m rest) :
      RefShaped (some names, node) source rest

/-! ## Cutting -/

/-- What is written in front of a text is written alone. -/
def Cuttable (R : Reading α) : Prop :=
  ∀ a source rest tail, R a source (rest ++ tail) → ∃ front, source = front ++ tail ∧ R a front rest

theorem Ends.of_append {P : Char → Prop} {rest tail : List Char} (ends : Ends P (rest ++ tail)) :
    Ends P rest := by
  rintro c later rfl
  exact ends c (later ++ tail) rfl

theorem Gap.cut {source rest tail : List Char} (gap : Gap source (rest ++ tail)) :
    ∃ front, source = front ++ tail ∧ Gap front rest := by
  obtain ⟨white, all, rfl⟩ := gap
  exact ⟨white ++ rest, (List.append_assoc ..).symm, white, all, rfl⟩

theorem Cuttable.behind {R : Reading α} (cuttable : Cuttable R) (c : Char) :
    Cuttable (Behind c R) := by
  rintro a _ rest tail ⟨gap, item⟩
  obtain ⟨_, rfl, item'⟩ := cuttable _ _ _ _ item
  obtain ⟨_, rfl, gap'⟩ := gap.cut
  exact ⟨_, rfl, .mk gap' item'⟩

theorem Cuttable.further {R : Reading α} (cuttable : Cuttable R) : Cuttable (Further R) := by
  intro as source rest tail written
  generalize whole : rest ++ tail = behind at written
  induction written with
  | done behind => exact ⟨rest, whole.symm, .done rest⟩
  | next gap item later ih =>
      obtain ⟨_, rfl, later'⟩ := ih whole
      obtain ⟨_, rfl, item'⟩ := cuttable _ _ _ _ item
      obtain ⟨_, rfl, gap'⟩ := gap.cut
      exact ⟨_, rfl, .next gap' item' later'⟩

theorem Cuttable.items {R L : Reading α} (first : Cuttable R) (later : Cuttable L) :
    Cuttable (Items R L) := by
  rintro _ source rest tail ⟨item, others⟩
  obtain ⟨_, rfl, others'⟩ := later.further _ _ _ _ others
  obtain ⟨_, rfl, item'⟩ := first _ _ _ _ item
  exact ⟨_, rfl, .mk item' others'⟩

/-! ### Tokens -/

theorem cuttable_node : Cuttable NodeWritten := by
  rintro _ _ rest tail ⟨first, later, ends⟩
  exact ⟨_, (List.append_assoc ..).symm, .mk first later ends.of_append⟩

theorem cuttable_name : Cuttable NameWritten := by
  rintro _ _ rest tail ⟨first, later, ends⟩
  exact ⟨_, (List.append_assoc ..).symm, .mk first later ends.of_append⟩

theorem cuttable_phase : Cuttable PhaseWritten := by
  rintro _ _ rest tail ⟨concrete⟩
  exact ⟨_, (List.append_assoc ..).symm, .mk concrete⟩

theorem cuttable_comparator : Cuttable ComparatorWritten := by
  rintro _ _ rest tail (⟨spelled, ends⟩ | ⟨spelled, ends⟩)
  · exact ⟨_, (List.append_assoc ..).symm, .signs spelled ends.of_append⟩
  · exact ⟨_, (List.append_assoc ..).symm, .letters spelled ends.of_append⟩

theorem cuttable_bound : Cuttable BoundWritten := by
  rintro _ _ rest tail ⟨sign, filled, decimal, value, ends⟩
  exact ⟨_, (List.append_assoc ..).symm, .mk sign filled decimal value ends.of_append⟩

/-! ### References and entries -/

theorem cuttable_relation : Cuttable RelationWritten := by
  rintro _ source rest tail (⟨comparator, gap, bound⟩ | ⟨bound⟩)
  · obtain ⟨_, rfl, bound'⟩ := cuttable_bound _ _ _ _ bound
    obtain ⟨_, rfl, gap'⟩ := gap.cut
    obtain ⟨_, rfl, comparator'⟩ := cuttable_comparator _ _ _ _ comparator
    exact ⟨_, rfl, .compared comparator' gap' bound'⟩
  · obtain ⟨_, rfl, bound'⟩ := cuttable_bound _ _ _ _ bound
    exact ⟨_, rfl, .bare bound'⟩

/-- Items behind one another, a colon and white space are cut like items. -/
theorem cut_before_colon {R : Reading (List α)} (cuttable : Cuttable R) {as : List α}
    {source m m' rest tail : List Char} (items : R as source m) (before : Gap m (':' :: m'))
    (after : Gap m' (rest ++ tail)) :
    ∃ front m₁ m₂, source = front ++ tail ∧ R as front m₁ ∧ Gap m₁ (':' :: m₂) ∧ Gap m₂ rest := by
  obtain ⟨_, rfl, after'⟩ := after.cut
  rw [← List.cons_append] at before
  obtain ⟨_, rfl, before'⟩ := before.cut
  obtain ⟨front, rfl, items'⟩ := cuttable _ _ _ _ items
  exact ⟨front, _, _, rfl, items', before', after'⟩

theorem cuttable_phases : Cuttable PrefixWritten := by
  rintro ps source rest tail ⟨names, distinct, before, after⟩
  obtain ⟨_, _, _, rfl, names, before, after⟩ :=
    cut_before_colon (cuttable_phase.items (cuttable_phase.behind '|')) names before after
  exact ⟨_, rfl, .mk names distinct before after⟩

theorem cuttable_names : Cuttable NamesWritten := by
  rintro names source rest tail ⟨each, before, after⟩
  obtain ⟨_, _, _, rfl, each, before, after⟩ :=
    cut_before_colon (cuttable_name.items (cuttable_name.behind '|')) each before after
  exact ⟨_, rfl, .mk each before after⟩

theorem cuttable_ref : Cuttable RefWritten := by
  rintro _ source rest tail (⟨ident⟩ | ⟨phases, ident⟩)
  · obtain ⟨_, rfl, ident'⟩ := cuttable_node _ _ _ _ ident
    exact ⟨_, rfl, .plain ident'⟩
  · obtain ⟨_, rfl, ident'⟩ := cuttable_node _ _ _ _ ident
    obtain ⟨_, rfl, phases'⟩ := cuttable_phases _ _ _ _ phases
    exact ⟨_, rfl, .prefixed phases' ident'⟩

theorem cuttable_shape : Cuttable RefShaped := by
  rintro _ source rest tail (⟨ident⟩ | ⟨named, ident⟩)
  · obtain ⟨_, rfl, ident'⟩ := cuttable_node _ _ _ _ ident
    exact ⟨_, rfl, .plain ident'⟩
  · obtain ⟨_, rfl, ident'⟩ := cuttable_node _ _ _ _ ident
    obtain ⟨_, rfl, named'⟩ := cuttable_names _ _ _ _ named
    exact ⟨_, rfl, .prefixed named' ident'⟩

theorem cuttable_failOn : Cuttable FailOnWritten := by
  rintro _ source rest tail ⟨ref⟩
  obtain ⟨_, rfl, ref'⟩ := cuttable_ref _ _ _ _ ref
  exact ⟨_, rfl, .mk ref'⟩

theorem cuttable_counts : Cuttable CountsWritten := by
  rintro _ source rest tail ⟨ref, gap, related⟩
  obtain ⟨_, rfl, related'⟩ := cuttable_relation.items cuttable_relation _ _ _ _ related
  obtain ⟨_, rfl, gap'⟩ := gap.cut
  obtain ⟨_, rfl, ref'⟩ := cuttable_ref _ _ _ _ ref
  exact ⟨_, rfl, .mk ref' gap' related'⟩

/-! ## The shape of what is read -/

open Scanner

theorem isPhaseChar_iff (c : Char) : isPhaseChar c = true ↔ NameLater c := by
  simp [isPhaseChar, NameLater, Char.isAlphanum, isAlpha_iff, isDigit_iff, or_assoc]

theorem nameWritten_of_phaseName {cur cur' : Cursor} {t : Token}
    (read : (phaseName cur).result = some (t, cur')) : NameWritten t.text cur.rest cur'.rest := by
  obtain ⟨c, cs, first, later, ends, split, -, rfl⟩ :=
    (wordToken_eq_some isAlpha_iff isPhaseChar_iff).1 read
  rw [split]
  exact .mk first later ends

theorem namesWritten_of_phasePrefix {cur cur' : Cursor} {ts : List Token}
    (read : (phasePrefix cur).result = some (ts, cur')) :
    NamesWritten (ts.map Token.text) cur.rest cur'.skipGap.rest := by
  obtain ⟨first, others, m₁, m₂, rfl, name, names, colon⟩ := phasePrefix_eq_some.1 read
  have sound : Sound phaseName fun t s r => NameWritten t.text s r :=
    fun _ _ _ => nameWritten_of_phaseName
  obtain ⟨m, further, white⟩ := further_of_many (sound.separated '|') names
  have named : ∀ t ∈ first :: others, ∀ s r, NameWritten t.text s r →
      ∃ name, (some ∘ Token.text) t = some name ∧ NameWritten name s r :=
    fun t _ s r written => ⟨t.text, rfl, written⟩
  rw [← List.filterMap_eq_map]
  refine .mk (Items.filterMap (.mk (nameWritten_of_phaseName name) further) named
    fun t member s r behind => behind.map (named t member)) ?_ (gap_skipGap cur')
  rw [← (symbol_eq_some.1 colon).1]
  exact white.trans (gap_skipGap m₂)

/-- References have their shape, whatever the faults of their names. -/
theorem sound_shape :
    Sound nodeRef fun r s t =>
      RefShaped (r.phases.map (List.map Token.text), r.node.text) s t := by
  intro cur r cur' read
  obtain ⟨phases, node, span⟩ := r
  obtain ⟨m, optional, ident, -⟩ := nodeRef_eq_some.1 read
  have written := nodeWritten_of_nodeIdent ident
  rcases optional_eq_some.1 optional with ⟨ts, rfl, prefixed⟩ | ⟨rfl, -, rfl⟩
  · exact .prefixed (namesWritten_of_phasePrefix prefixed) written
  · rw [skipGap_skipGap] at written
    exact .plain written

end DumpRules.Grammar
