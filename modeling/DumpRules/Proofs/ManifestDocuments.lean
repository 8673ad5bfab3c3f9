import DumpRules.Command.Run
import DumpRules.Proofs.Acceptance
import DumpRules.Proofs.Grammar.Tokens
import DumpRules.Proofs.SuiteTexts

/-!
# Manifests as documents

A manifest, and everything in it that is a record of its own, is written as a document and read from
one. The two are `Faithful` to each other: what was written is read as it was, and what was written
and then `Widened`, by a strange field in one of its records, at any depth, is not read at all. For
each kind of record a lemma `ofJson?_object` says once what its reader asks of the fields, and lists
of records are faithful as their items are. `documents_faithful` has the five kinds of record, and
that a manifest is also read back from its printed text.
-/

namespace DumpRules

set_option autoImplicit false

namespace Json

/-! ## Records with a strange field -/

/-- Where a document has records, and with which fields. The names of bindings are no fields. -/
inductive Shape where
  | leaf
  | list (item : Shape)
  | record (fields : List (String × Shape))

/-- The fields of a record in which there are further records. -/
def Shape.nested (fields : List (String × Shape)) : List (String × Shape) :=
  fields.filter fun
    | (_, .leaf) => false
    | _ => true

/-- One record of a document has one more field, whose name is not one of the record's. -/
inductive Widened : Shape → Json → Json → Prop
  | here {known : List (String × Shape)} {before after : List (String × Json)} {name : String}
      (value : Json) (strange : name ∉ known.map Prod.fst) :
      Widened (.record known) (.object (before ++ after))
        (.object (before ++ (name, value) :: after))
  | field {known : List (String × Shape)} {before after : List (String × Json)} {name : String}
      {shape : Shape} {value wider : Json} (kind : (name, shape) ∈ known)
      (deeper : Widened shape value wider) :
      Widened (.record known) (.object (before ++ (name, value) :: after))
        (.object (before ++ (name, wider) :: after))
  | item {shape : Shape} {before after : List Json} {value wider : Json}
      (deeper : Widened shape value wider) :
      Widened (.list shape) (.array (before ++ value :: after)) (.array (before ++ wider :: after))

/-- What is written is read as it was, and is not read if it has a strange field. -/
structure Faithful {α : Type} (shape : Shape) (write : α → Json) (read : Json → Option α) :
    Prop where
  back : ∀ a, read (write a) = some a
  strict : ∀ a wider, Widened shape (write a) wider → read wider = none

/-- The fields of a record: none is strange and none is repeated. -/
def Known (names : List String) (fields : List (String × Json)) : Prop :=
  (∀ f ∈ fields, f.1 ∈ names) ∧ (fields.map Prod.fst).Nodup

theorem record?_object_eq_some_iff {names : List String} {fields : List (String × Json)}
    {values : List (Option Json)} :
    record? names (.object fields) = some values ↔
      Known names fields ∧ (names.map fun name => fields.lookup name) = values := by
  have known : ((fields.map Prod.fst).all names.contains &&
      decide (fields.map Prod.fst).Nodup) = true ↔ Known names fields := by
    simp [Known]
  simp only [record?]
  rw [Option.ite_none_right_eq_some, known, Option.some.injEq]

section Record

variable {α : Type} {known : List (String × Shape)} {fields : List (String × Json)}
  {read : Json → Option α}

/-- A strange field within a field of a record is noticed when the record is read. -/
def Noticed (fields : List (String × Json)) (read : Json → Option α) (field : String × Shape) :
    Prop :=
  ∀ value wider, (field.1, value) ∈ fields → Widened field.2 value wider →
    ∀ fields', fields'.lookup field.1 = some wider → read (.object fields') = none

/-- A reader of records that takes known fields only, and looks at those in which there are further
records, takes no record that has been widened. -/
theorem eq_none_of_widened {wider : Json} (wide : Widened (.record known) (.object fields) wider)
    (reads : ∀ fields' a, read (.object fields') = some a → Known (known.map Prod.fst) fields')
    (each : ∀ f ∈ Shape.nested known, Noticed fields read f) : read wider = none := by
  generalize given : Json.object fields = whole at wide
  rw [Option.eq_none_iff_forall_ne_some]
  intro a accepted
  cases wide with
  | here value strange =>
      exact strange ((reads _ a accepted).1 (_, value) (by simp))
  | @field _ before after name shape value value' kind deeper =>
      cases given
      have nested : (name, shape) ∈ Shape.nested known := by
        refine List.mem_filter.2 ⟨kind, ?_⟩
        cases deeper <;> rfl
      -- No field is repeated, so it is the widened one that is looked at.
      have distinct := (reads _ a accepted).2
      rw [List.map_append, List.map_cons, List.nodup_append] at distinct
      have found : (before ++ (name, value') :: after).lookup name = some value' := by
        refine List.lookup_eq_some_iff.2 ⟨before, after, rfl, fun f member => bne_iff_ne.2 ?_⟩
        exact (distinct.2.2 f.1 (List.mem_map_of_mem member) name List.mem_cons_self).symm
      have refused := each _ nested value value' (by simp) deeper _ found
      cases refused.symm.trans accepted

end Record

/-! ## Lists -/

variable {α : Type} {shape : Shape} {write : α → Json} {read : Json → Option α}

theorem asList?_eq_none {items : List Json} {j : Json} (member : j ∈ items)
    (refused : read j = none) : asList? read (.array items) = none := by
  rw [Option.eq_none_iff_forall_ne_some]
  intro as accepted
  rw [asList?, mapM_eq_some_iff] at accepted
  have among : none ∈ as.map some := by
    rw [← accepted, ← refused]
    exact List.mem_map_of_mem member
  simp at among

theorem asList?_map (back : ∀ a, read (write a) = some a) (as : List α) :
    asList? read (.array (as.map write)) = some as := by
  rw [asList?, mapM_eq_some_iff, List.map_map]
  exact List.map_congr_left fun a _ => back a

theorem Faithful.list (faithful : Faithful shape write read) :
    Faithful (.list shape) (fun as => .array (as.map write)) (asList? read) where
  back := asList?_map faithful.back
  strict := by
    intro as wider wide
    generalize given : Json.array (as.map write) = whole at wide
    cases wide with
    | @item _ before after value value' deeper =>
        obtain ⟨a, -, rfl⟩ : ∃ a ∈ as, write a = value := by
          rw [← List.mem_map, Json.array.inj given]
          simp
        exact asList?_eq_none (by simp) (faithful.strict a value' deeper)

theorem Noticed.list {β : Type} {fields : List (String × Json)} {reader : Json → Option β}
    {name : String} (faithful : Faithful shape write read) (as : List α)
    (written : ∀ value, (name, value) ∈ fields → value = .array (as.map write))
    (reads : ∀ fields' b value, reader (.object fields') = some b →
      fields'.lookup name = some value → ∃ as, asList? read value = some as) :
    Noticed fields reader (name, .list shape) := by
  intro value wider member wide fields' found
  cases written value member
  rw [Option.eq_none_iff_forall_ne_some]
  intro b accepted
  obtain ⟨as', items⟩ := reads fields' b wider accepted found
  cases (faithful.list.strict as wider wide).symm.trans items

end Json

open Json

/-! ## Bindings and numbers -/

theorem bindIn_of_fresh {β : Type} {name : String} {value : β} {entries : List (String × β)}
    (fresh : name ∉ entries.map Prod.fst) :
    bindIn name value entries = entries ++ [(name, value)] := by
  induction entries with
  | nil => rfl
  | cons e later ih =>
      rw [List.map_cons, List.mem_cons, not_or] at fresh
      rw [bindIn, if_neg (Ne.symm fresh.1), ih fresh.2, List.cons_append]

namespace Bindings

variable {β : Type}

theorem entries_insertAll (b : Bindings β) {pairs : List (String × β)}
    (distinct : ((b.entries ++ pairs).map Prod.fst).Nodup) :
    (b.insertAll pairs).entries = b.entries ++ pairs := by
  induction pairs generalizing b with
  | nil => simp [insertAll]
  | cons pair later ih =>
      obtain ⟨name, value⟩ := pair
      have fresh : name ∉ b.entries.map Prod.fst := by
        rw [List.map_append, List.map_cons] at distinct
        intro member
        exact (List.nodup_append.1 distinct).2.2 name member name List.mem_cons_self rfl
      have bound : (b.insert name value).entries = b.entries ++ [(name, value)] :=
        bindIn_of_fresh fresh
      have step : b.insertAll ((name, value) :: later) =
          (b.insert name value).insertAll later := rfl
      rw [step, ih (b.insert name value) (by rwa [bound, List.append_assoc]), bound,
        List.append_assoc]
      rfl

theorem ofList_entries (b : Bindings β) : ofList b.entries = b :=
  Bindings.ext (entries_insertAll empty b.nodup)

/-- Bindings keep their values and their order. -/
theorem asBindings?_toJson (b : Bindings String) : asBindings? b.toJson = some b := by
  have written : b.toJson = .object (b.entries.map fun e => (e.1, .string e.2)) := rfl
  have each : (b.entries.map fun e => (e.1, Json.string e.2)).mapM
      (fun f : String × Json => (asString? f.2).map fun s => (f.1, s)) = some b.entries := by
    rw [mapM_eq_some_iff, List.map_map]
    rfl
  rw [written, asBindings?]
  simp only [each, Option.map_some, ofList_entries]

end Bindings

theorem Json.asUInt32?_nat (n : UInt32) : asUInt32? (.nat n.toNat) = some n := by
  rw [nat, asUInt32?, Grammar.numeral?_toString, Option.bind_some, if_pos n.toNat_lt]
  simp

theorem Json.asList?_strings {α : Type} {ofName? : String → Option α} {name : α → String}
    (back : ∀ a, ofName? (name a) = some a) (as : List α) :
    asList? (asName? ofName?) (.strings (as.map name)) = some as := by
  rw [strings, List.map_map]
  exact asList?_map back as

/-! ## Records -/

namespace FlagCondition

/-- The fields of a condition. -/
def shape : Shape :=
  .record [("flag", .leaf), ("value", .leaf)]

theorem ofJson?_object {fields : List (String × Json)} {c : FlagCondition} :
    ofJson? (.object fields) = some c ↔ Known ["flag", "value"] fields ∧
      required asString? (fields.lookup "flag") = some c.flag ∧
      required asString? (fields.lookup "value") = some c.value := by
  cases c
  simp [ofJson?, record?_object_eq_some_iff, Option.bind_eq_some_iff]

theorem faithful : Faithful shape toJson ofJson? where
  back c := ofJson?_object.2 ⟨by simp [Known], rfl, rfl⟩
  strict c wider wide :=
    eq_none_of_widened wide (fun _ _ accepted => (ofJson?_object.1 accepted).1)
      (List.forall_mem_nil _)

end FlagCondition

namespace RuleDeclaration

/-- The fields of a rule. -/
def shape : Shape :=
  .record [("name", .leaf), ("phases", .leaf), ("fail_on", .leaf), ("counts", .leaf),
    ("apply_if", .list FlagCondition.shape)]

theorem ofJson?_object {fields : List (String × Json)} {d : RuleDeclaration} :
    ofJson? (.object fields) = some d ↔
      Known ["name", "phases", "fail_on", "counts", "apply_if"] fields ∧
      nullable asString? (fields.lookup "name") = some d.name ∧
      withDefault [] (asList? (asName? Phase.ofName?)) (fields.lookup "phases") = some d.phases ∧
      withDefault "" asString? (fields.lookup "fail_on") = some d.failOn ∧
      withDefault "" asString? (fields.lookup "counts") = some d.counts ∧
      withDefault [] (asList? FlagCondition.ofJson?) (fields.lookup "apply_if") =
        some d.applyIf := by
  cases d
  simp [ofJson?, record?_object_eq_some_iff, Option.bind_eq_some_iff]

theorem faithful : Faithful shape toJson ofJson? where
  back d := by
    have phases := asList?_strings Phase.ofName?_name d.phases
    have conditions := asList?_map FlagCondition.faithful.back d.applyIf
    obtain ⟨_ | name, _, _, _, _⟩ := d
    all_goals exact ofJson?_object.2 ⟨by simp [Known], rfl, phases, rfl, rfl, conditions⟩
  strict d wider wide := by
    refine eq_none_of_widened wide (fun _ _ accepted => (ofJson?_object.1 accepted).1)
      (List.forall_mem_singleton.2 ?_)
    refine .list FlagCondition.faithful d.applyIf (by cases d.name <;> simp) ?_
    intro fields d' value accepted found
    obtain ⟨-, -, -, -, -, conditions⟩ := ofJson?_object.1 accepted
    exact ⟨_, found ▸ conditions⟩

end RuleDeclaration

namespace DefaultOverride

/-- The fields of an override. -/
def shape : Shape :=
  .record [("flag", .leaf), ("value", .leaf), ("phase", .leaf)]

theorem ofJson?_object {fields : List (String × Json)} {o : DefaultOverride} :
    ofJson? (.object fields) = some o ↔ Known ["flag", "value", "phase"] fields ∧
      required asString? (fields.lookup "flag") = some o.flag ∧
      required asString? (fields.lookup "value") = some o.value ∧
      required (asName? Phase.ofName?) (fields.lookup "phase") = some o.phase := by
  cases o
  simp [ofJson?, record?_object_eq_some_iff, Option.bind_eq_some_iff]

theorem faithful : Faithful shape toJson ofJson? where
  back o := ofJson?_object.2 ⟨by simp [Known], rfl, rfl, Phase.ofName?_name o.phase⟩
  strict o wider wide :=
    eq_none_of_widened wide (fun _ _ accepted => (ofJson?_object.1 accepted).1)
      (List.forall_mem_nil _)

end DefaultOverride

namespace NodeEntry

/-- The fields of an entry. -/
def shape : Shape :=
  .record [("name", .leaf), ("regex", .leaf), ("classes", .leaf), ("default_phase", .leaf),
    ("default_overrides", .list DefaultOverride.shape)]

theorem ofJson?_object {fields : List (String × Json)} {e : NodeEntry} :
    ofJson? (.object fields) = some e ↔
      Known ["name", "regex", "classes", "default_phase", "default_overrides"] fields ∧
      required asString? (fields.lookup "name") = some e.name ∧
      nullable asString? (fields.lookup "regex") = some e.regex ∧
      withDefault [] (asList? (asName? OutputClass.ofName?)) (fields.lookup "classes") =
        some e.classes ∧
      nullable (asName? Phase.ofName?) (fields.lookup "default_phase") = some e.defaultPhase ∧
      withDefault [] (asList? DefaultOverride.ofJson?) (fields.lookup "default_overrides") =
        some e.overrides := by
  cases e
  simp [ofJson?, record?_object_eq_some_iff, Option.bind_eq_some_iff]

theorem faithful : Faithful shape toJson ofJson? where
  back e := by
    have regex : nullable asString? (some (.optionalString e.regex)) = some e.regex := by
      cases e.regex <;> rfl
    have phase : nullable (asName? Phase.ofName?)
        (some (.optionalString (e.defaultPhase.map Phase.name))) = some e.defaultPhase := by
      cases e.defaultPhase with
      | none => rfl
      | some p => exact congrArg (Option.map some) (Phase.ofName?_name p)
    exact ofJson?_object.2 ⟨by simp [Known], rfl, regex,
      asList?_strings OutputClass.ofName?_name e.classes, phase,
      asList?_map DefaultOverride.faithful.back e.overrides⟩
  strict e wider wide := by
    refine eq_none_of_widened wide (fun _ _ accepted => (ofJson?_object.1 accepted).1)
      (List.forall_mem_singleton.2 ?_)
    refine .list DefaultOverride.faithful e.overrides (by simp) ?_
    intro fields e' value accepted found
    obtain ⟨-, -, -, -, -, overrides⟩ := ofJson?_object.1 accepted
    exact ⟨_, found ▸ overrides⟩

end NodeEntry

namespace Manifest

/-- The fields of a manifest. -/
def shape : Shape :=
  .record [("schema_version", .leaf), ("suite_name", .leaf), ("description", .leaf),
    ("flags", .leaf), ("nodes", .list NodeEntry.shape), ("rules", .list RuleDeclaration.shape),
    ("dumps", .leaf)]

theorem ofJson?_object {fields : List (String × Json)} {m : Manifest} :
    ofJson? (.object fields) = some m ↔
      Known ["schema_version", "suite_name", "description", "flags", "nodes", "rules", "dumps"]
        fields ∧
      required asUInt32? (fields.lookup "schema_version") = some m.schemaVersion ∧
      required asString? (fields.lookup "suite_name") = some m.suiteName ∧
      nullable asString? (fields.lookup "description") = some m.description ∧
      withDefault .empty asBindings? (fields.lookup "flags") = some m.flags ∧
      required (asList? NodeEntry.ofJson?) (fields.lookup "nodes") = some m.nodes ∧
      required (asList? RuleDeclaration.ofJson?) (fields.lookup "rules") = some m.rules ∧
      withDefault .empty asBindings? (fields.lookup "dumps") = some m.dumps := by
  cases m
  simp [ofJson?, record?_object_eq_some_iff, Option.bind_eq_some_iff]

theorem faithful : Faithful shape toJson ofJson? where
  back m := by
    have description : nullable asString? (some (.optionalString m.description)) =
        some m.description := by
      cases m.description <;> rfl
    exact ofJson?_object.2 ⟨by simp [Known], asUInt32?_nat m.schemaVersion, rfl, description,
      m.flags.asBindings?_toJson, asList?_map NodeEntry.faithful.back m.nodes,
      asList?_map RuleDeclaration.faithful.back m.rules, m.dumps.asBindings?_toJson⟩
  strict m wider wide := by
    refine eq_none_of_widened wide (fun _ _ accepted => (ofJson?_object.1 accepted).1)
      (List.forall_mem_cons.2 ⟨?_, List.forall_mem_singleton.2 ?_⟩)
    · refine .list NodeEntry.faithful m.nodes (by simp) ?_
      intro fields m' value accepted found
      obtain ⟨-, -, -, -, -, nodes, -, -⟩ := ofJson?_object.1 accepted
      exact ⟨_, found ▸ nodes⟩
    · refine .list RuleDeclaration.faithful m.rules (by simp) ?_
      intro fields m' value accepted found
      obtain ⟨-, -, -, -, -, -, rules, -⟩ := ofJson?_object.1 accepted
      exact ⟨_, found ▸ rules⟩

end Manifest

/-! ## Manifests as texts -/

theorem within_strings (depth : Nat) (ss : List String) : (Json.strings ss).Within (depth + 1) := by
  simp [strings]

theorem within_optionalString (depth : Nat) (o : Option String) :
    (Json.optionalString o).Within depth := by
  cases o <;> simp [optionalString]

theorem within_nodeEntry (depth : Nat) (e : NodeEntry) : e.toJson.Within (depth + 3) := by
  simp [NodeEntry.toJson, DefaultOverride.toJson, within_strings, within_optionalString]

theorem within_ruleDeclaration (depth : Nat) (d : RuleDeclaration) :
    d.toJson.Within (depth + 3) := by
  obtain ⟨_ | name, _, _, _, _⟩ := d
  all_goals simp [RuleDeclaration.toJson, FlagCondition.toJson, within_strings]

namespace Manifest

theorem within_toJson (m : Manifest) : m.toJson.Within maxDepth := by
  rw [show maxDepth = 122 + 5 from rfl]
  simp [toJson, Bindings.within_toJson, within_optionalString, within_nodeEntry,
    within_ruleDeclaration]

theorem ofText?_pretty (m : Manifest) : ofText? m.toJson.pretty = some m := by
  have parsed : parse? (m.toJson.pretty ++ "") = _ := parse?_pretty m.within_toJson blank_nil
  rw [String.append_empty] at parsed
  rw [ofText?, parsed, Option.bind_some, faithful.back]

end Manifest

/-- **Reading undoes writing, and takes nothing that was not written.** This holds of manifests and
of everything in them that is a record of its own. -/
theorem documents_faithful :
    Faithful DefaultOverride.shape DefaultOverride.toJson DefaultOverride.ofJson? ∧
      Faithful NodeEntry.shape NodeEntry.toJson NodeEntry.ofJson? ∧
      Faithful FlagCondition.shape FlagCondition.toJson FlagCondition.ofJson? ∧
      Faithful RuleDeclaration.shape RuleDeclaration.toJson RuleDeclaration.ofJson? ∧
      Faithful Manifest.shape Manifest.toJson Manifest.ofJson? ∧
      ∀ m : Manifest, Manifest.ofText? m.toJson.pretty = some m :=
  ⟨DefaultOverride.faithful, NodeEntry.faithful, FlagCondition.faithful, RuleDeclaration.faithful,
    Manifest.faithful, Manifest.ofText?_pretty⟩

/-- A manifest with a rule that depends on a flag. -/
def conditionalManifest : Manifest where
  schemaVersion := 1
  suiteName := "conditional"
  nodes := []
  rules := [{ applyIf := [⟨"UseAVX", "2"⟩] }]

theorem documents_faithful_nested :
    ∃ wider, Widened Manifest.shape conditionalManifest.toJson wider ∧
      Manifest.ofJson? wider = none := by
  obtain ⟨_, condition⟩ : ∃ wider,
      Widened FlagCondition.shape (FlagCondition.toJson ⟨"UseAVX", "2"⟩) wider :=
    ⟨_, @Widened.here _ [_, _] [] "unless" .null (by simp)⟩
  obtain ⟨_, rule⟩ : ∃ wider, Widened RuleDeclaration.shape
      (RuleDeclaration.toJson { applyIf := [⟨"UseAVX", "2"⟩] }) wider :=
    ⟨_, @Widened.field _ [_, _, _] [] "apply_if" _ _ _ (by simp)
      (@Widened.item _ [] [] _ _ condition)⟩
  obtain ⟨wider, whole⟩ : ∃ wider,
      Widened Manifest.shape conditionalManifest.toJson wider :=
    ⟨_, @Widened.field _ [_, _, _, _, _] [_] "rules" _ _ _ (by simp)
      (@Widened.item _ [] [] _ _ rule)⟩
  obtain ⟨-, -, -, -, manifests, -⟩ := documents_faithful
  exact ⟨wider, whole, manifests.strict conditionalManifest wider whole⟩

end DumpRules
