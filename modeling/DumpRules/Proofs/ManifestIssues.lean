import DumpRules.Proofs.CheckCommand
import DumpRules.Proofs.RepeatedDumps

/-!
# What is wrong with a manifest

A manifest is looked at place by place, and at each `Place` there is at most one thing to be said.
`Collects` says that a list of remarks is made in this way, without leaving out or adding any;
`Manifest.Violation` says what is wrong where, with regard neither to the names that the validation
remembers nor to the order in which it goes. The issues of a manifest are the remarks on its places
(`collects_issues`), so there are none just if it is `Valid`. The phases that the keys of dumps name
are then all concrete, so that loading leaves no dump out and lets none take the place of another:
`issues_exact`.
-/

namespace DumpRules

set_option autoImplicit false

/-! ## Remarks on things in order -/

/-- One remark for each thing on which there is one, in the order of the things. -/
inductive Collects {α β : Type} (tells : α → β → Prop) : List α → List β → Prop
  | nil : Collects tells [] []
  | silent {a : α} {as : List α} {bs : List β} (fine : ∀ b, ¬tells a b)
      (later : Collects tells as bs) : Collects tells (a :: as) bs
  | remark {a : α} {b : β} {as : List α} {bs : List β} (wrong : tells a b)
      (later : Collects tells as bs) : Collects tells (a :: as) (b :: bs)

namespace Collects

variable {α β γ : Type} {tells : α → β → Prop} {as as' : List α} {bs bs' : List β}

theorem append (first : Collects tells as bs) (second : Collects tells as' bs') :
    Collects tells (as ++ as') (bs ++ bs') := by
  induction first with
  | nil => exact second
  | silent fine _ ih => exact .silent fine ih
  | remark wrong _ ih => exact .remark wrong ih

theorem flatMap {cs : List γ} {things : γ → List α} {remarks : γ → List β}
    (each : ∀ c ∈ cs, Collects tells (things c) (remarks c)) :
    Collects tells (cs.flatMap things) (cs.flatMap remarks) := by
  induction cs with
  | nil => exact .nil
  | cons c later ih =>
      rw [List.forall_mem_cons] at each
      exact each.1.append (ih each.2)

/-- A thing on which there is a remark if something is wrong with it. -/
theorem ite {a : α} {b : β} (wrong : Prop) [Decidable wrong] (told : wrong → tells a b)
    (only : ∀ b, tells a b → wrong) : Collects tells [a] (if wrong then [b] else []) := by
  split
  · exact .remark (told ‹wrong›) .nil
  · exact .silent (fun b said => absurd (only b said) ‹¬wrong›) .nil

theorem filter {cs : List γ} {wrong : γ → Bool} {thing : γ → α} {remark : γ → β}
    (told : ∀ c, wrong c = true → tells (thing c) (remark c))
    (only : ∀ c b, tells (thing c) b → wrong c = true) :
    Collects tells (cs.map thing) ((cs.filter wrong).map remark) := by
  induction cs with
  | nil => exact .nil
  | cons c later ih =>
      by_cases here : wrong c = true
      · rw [List.filter_cons_of_pos here]
        exact .remark (told c here) ih
      · rw [List.filter_cons_of_neg here]
        exact .silent (fun b said => here (only c b said)) ih

theorem eq_nil_iff (collected : Collects tells as bs) :
    bs = [] ↔ ∀ a ∈ as, ∀ b, ¬tells a b := by
  induction collected with
  | nil => simp
  | silent fine _ ih => simp [ih, fine]
  | @remark a b as bs wrong _ ih =>
      simp only [List.cons_ne_nil, List.forall_mem_cons, false_iff, not_and]
      exact fun fine => absurd wrong (fine b)

end Collects

/-! ## Blank texts and names of phases -/

theorem Text.isBlankText_iff (s : String) : Text.isBlankText s = true ↔ Text.trim s = "" := by
  have empty : Text.trim s = "" ↔ Text.trimChars s.toList = [] := by
    rw [Text.trim, ← String.toList_inj, String.toList_ofList]
    rfl
  rw [empty, Text.isBlankText, List.all_eq_true, Text.trimChars, List.reverse_eq_nil_iff,
    List.dropWhile_eq_nil_iff]
  simp only [List.mem_reverse]
  constructor
  · intro blank c member
    exact blank c ((List.dropWhile_sublist _).mem member)
  · intro blank
    -- What is left once blanks are dropped in front starts with something else.
    have nothing : s.toList.dropWhile Text.isBlank = [] := by
      by_contra filled
      have first := List.head_dropWhile_not Text.isBlank filled
      rw [blank _ (List.head_mem filled)] at first
      cases first
    exact List.dropWhile_eq_nil_iff.1 nothing

theorem Phase.read?_eq_some_iff {text : String} {p : Phase} :
    Phase.read? text = some p ↔ Text.trim text = p.name := by
  constructor
  · intro found
    exact (Grammar.name_of_ofName? found).symm
  · intro named
    rw [Phase.read?, named, Phase.ofName?_name]

theorem Phase.read?_eq_none_iff {text : String} :
    Phase.read? text = none ↔ ∀ p : Phase, Text.trim text ≠ p.name := by
  rw [Option.eq_none_iff_forall_ne_some]
  exact forall_congr' fun p => not_congr Phase.read?_eq_some_iff

namespace Manifest

/-! ## Places -/

/-- A place of a manifest at which something can be wrong. Rules are numbered from 0. -/
inductive Place where
  | schema
  | suiteName
  | rules
  | rule (index : Nat)
  | flag (name : String)
  | dumpPhase (key : String)
  | dumpPath (key path : String)

/-- The places of a manifest, in the order in which they are looked at. -/
def places (m : Manifest) : List Place :=
  [.schema, .suiteName, .rules] ++ (List.range m.rules.length).map .rule ++
    m.flags.keys.map .flag ++
    m.dumps.entries.flatMap fun dump => [.dumpPhase dump.1, .dumpPath dump.1 dump.2]

/-- What is wrong at a place of a manifest. -/
inductive Violation (m : Manifest) : Place → ManifestIssue → Prop
  | schema (other : m.schemaVersion ≠ 1) : Violation m .schema (.schemaVersion m.schemaVersion)
  | suiteName (blank : Text.trim m.suiteName = "") : Violation m .suiteName .blankSuiteName
  | rules (missing : m.rules = []) : Violation m .rules .noRules
  | blankRule {i : Nat} {r : RuleDeclaration} {name : String} (here : m.rules[i]? = some r)
      (named : r.name = some name) (blank : Text.trim name = "") :
      Violation m (.rule i) (.blankRuleName i)
  | repeatedRule {i j : Nat} {r earlier : RuleDeclaration} {name : String}
      (here : m.rules[i]? = some r) (named : r.name = some name) (filled : Text.trim name ≠ "")
      (before : j < i) (there : m.rules[j]? = some earlier) (same : earlier.name = some name) :
      Violation m (.rule i) (.duplicateRuleName i name)
  | flag {name : String} (blank : Text.trim name = "") : Violation m (.flag name) .blankFlagName
  | placeholder {key : String} (named : Text.trim key = Phase.placeholder.name) :
      Violation m (.dumpPhase key) .placeholderDump
  | unknown {key : String} (strange : ∀ p : Phase, Text.trim key ≠ p.name) :
      Violation m (.dumpPhase key) (.unknownDump key)
  | path {key path : String} (blank : Text.trim path = "") :
      Violation m (.dumpPath key path) (.blankDumpPath key)

/-- A manifest with which nothing is wrong. -/
structure Valid (m : Manifest) : Prop where
  schema : m.schemaVersion = 1
  suiteName : Text.trim m.suiteName ≠ ""
  rules : m.rules ≠ []
  named : ∀ r ∈ m.rules, ∀ name, r.name = some name → Text.trim name ≠ ""
  distinct : m.rules.Pairwise fun r later => ∀ name, r.name = some name → later.name ≠ some name
  flags : ∀ name ∈ m.flags.keys, Text.trim name ≠ ""
  phases : ∀ dump ∈ m.dumps.entries, ∃ p : Phase, p ≠ .placeholder ∧ Text.trim dump.1 = p.name
  paths : ∀ dump ∈ m.dumps.entries, Text.trim dump.2 ≠ ""

variable {m : Manifest} {σ : Type}

/-! ## Issues -/

theorem violation_rule_iff {before later : List RuleDeclaration} {r : RuleDeclaration}
    (split : m.rules = before ++ r :: later) {issue : ManifestIssue} :
    m.Violation (.rule before.length) issue ↔ ∃ name, r.name = some name ∧
      (Text.trim name = "" ∧ issue = .blankRuleName before.length ∨
        Text.trim name ≠ "" ∧ (∃ r' ∈ before, r'.name = some name) ∧
          issue = .duplicateRuleName before.length name) := by
  have place : m.rules[before.length]? = some r := by
    rw [split, List.getElem?_append_right le_rfl, Nat.sub_self, List.getElem?_cons_zero]
  have earlier : ∀ {i : Nat}, i < before.length → m.rules[i]? = before[i]? := by
    intro i inside
    rw [split, List.getElem?_append_left inside]
  constructor
  · intro wrong
    cases wrong with
    | blankRule here named blank =>
        cases place.symm.trans here
        exact ⟨_, named, .inl ⟨blank, rfl⟩⟩
    | repeatedRule here named filled inside there same =>
        cases place.symm.trans here
        rw [earlier inside] at there
        exact ⟨_, named, .inr ⟨filled, ⟨_, List.mem_of_getElem? there, same⟩, rfl⟩⟩
  · rintro ⟨name, named, ⟨blank, rfl⟩ | ⟨filled, ⟨r', member, same⟩, rfl⟩⟩
    · exact .blankRule place named blank
    · obtain ⟨i, inside, there⟩ := List.mem_iff_getElem.1 member
      refine .repeatedRule place named filled inside ?_ same
      rw [earlier inside, List.getElem?_eq_getElem inside, there]

/-- The names that are remembered: those that are not blank. -/
def Remembers (seen : List String) (before : List RuleDeclaration) : Prop :=
  ∀ name, name ∈ seen ↔ Text.trim name ≠ "" ∧ ∃ r ∈ before, r.name = some name

theorem exists_named_concat {before : List RuleDeclaration} {r : RuleDeclaration} {name : String} :
    (∃ r' ∈ before ++ [r], r'.name = some name) ↔
      (∃ r' ∈ before, r'.name = some name) ∨ r.name = some name := by
  simp only [List.mem_append, List.mem_singleton, or_and_right, exists_or, exists_eq_left]

theorem Remembers.old {seen : List String} {before : List RuleDeclaration} {r : RuleDeclaration}
    (known : Remembers seen before)
    (old : ∀ name, r.name = some name → Text.trim name ≠ "" → name ∈ seen) :
    Remembers seen (before ++ [r]) := by
  intro name
  rw [exists_named_concat]
  constructor
  · intro member
    obtain ⟨filled, earlier⟩ := (known name).1 member
    exact ⟨filled, .inl earlier⟩
  · rintro ⟨filled, earlier | here⟩
    · exact (known name).2 ⟨filled, earlier⟩
    · exact old name here filled

theorem Remembers.new {seen : List String} {before : List RuleDeclaration} {r : RuleDeclaration}
    {name : String} (known : Remembers seen before) (named : r.name = some name)
    (filled : Text.trim name ≠ "") : Remembers (name :: seen) (before ++ [r]) := by
  intro other
  rw [exists_named_concat, List.mem_cons, known other, named, Option.some.injEq]
  constructor
  · rintro (rfl | ⟨filled, earlier⟩)
    · exact ⟨filled, .inr rfl⟩
    · exact ⟨filled, .inl earlier⟩
  · rintro ⟨filled, earlier | rfl⟩
    · exact .inr ⟨filled, earlier⟩
    · exact .inl rfl

/-- The names of rules, from some rule on. -/
theorem collects_ruleNameIssues (seen : List String) (before later : List RuleDeclaration)
    (split : m.rules = before ++ later) (known : Remembers seen before) :
    Collects m.Violation ((List.range' before.length later.length).map .rule)
      (ruleNameIssues seen before.length later) := by
  induction later generalizing seen before with
  | nil => exact .nil
  | cons r later ih =>
      have next : ∀ seen', Remembers seen' (before ++ [r]) →
          Collects m.Violation ((List.range' (before.length + 1) later.length).map .rule)
            (ruleNameIssues seen' (before.length + 1) later) := by
        intro seen' known'
        have rest := ih seen' (before ++ [r]) (by rw [split, List.append_assoc]; rfl) known'
        rwa [List.length_append] at rest
      rw [List.length_cons, List.range'_succ, List.map_cons, ruleNameIssues]
      cases named : r.name with
      | none =>
          refine .silent (fun b wrong => ?_) (next seen (known.old (by simp [named])))
          obtain ⟨name, other, -⟩ := (violation_rule_iff split).1 wrong
          cases named.symm.trans other
      | some name =>
          simp only [Text.isBlankText_iff]
          by_cases blank : Text.trim name = ""
          · rw [if_pos blank]
            refine .remark ?_ (next seen (known.old ?_))
            · exact (violation_rule_iff split).2 ⟨name, named, .inl ⟨blank, rfl⟩⟩
            · rintro other again filled
              cases named.symm.trans again
              exact absurd blank filled
          rw [if_neg blank]
          by_cases old : name ∈ seen
          · rw [if_pos old]
            refine .remark ?_ (next seen (known.old ?_))
            · exact (violation_rule_iff split).2
                ⟨name, named, .inr ⟨blank, ((known name).1 old).2, rfl⟩⟩
            · rintro other again -
              cases named.symm.trans again
              exact old
          · rw [if_neg old]
            refine .silent (fun b wrong => ?_) (next (name :: seen) (known.new named blank))
            obtain ⟨other, again, ⟨empty, -⟩ | ⟨filled, earlier, -⟩⟩ :=
              (violation_rule_iff split).1 wrong
            all_goals cases named.symm.trans again
            · exact blank empty
            · exact old ((known name).2 ⟨filled, earlier⟩)

theorem collects_dumpIssues (dump : String × String) :
    Collects m.Violation [.dumpPhase dump.1, .dumpPath dump.1 dump.2] (dumpIssues dump) := by
  obtain ⟨key, path⟩ := dump
  show Collects m.Violation ([.dumpPhase key] ++ [.dumpPath key path]) _
  rw [dumpIssues]
  refine .append ?_ ?_
  · cases read : Phase.read? key with
    | none => exact .remark (.unknown (Phase.read?_eq_none_iff.1 read)) .nil
    | some p =>
        have named := Phase.read?_eq_some_iff.1 read
        have concrete : p ≠ .placeholder → ∀ issue, ¬m.Violation (.dumpPhase key) issue := by
          intro other issue wrong
          cases wrong with
          | placeholder again =>
              exact other (Option.some.inj (read.symm.trans (Phase.read?_eq_some_iff.2 again)))
          | unknown strange => exact strange p named
        cases p with
        | placeholder => exact .remark (.placeholder named) .nil
        | _ => exact .silent (concrete (by decide)) .nil
  · simp only [Text.isBlankText_iff]
    exact .ite _ .path fun | _, .path blank => blank

theorem collects_issues (m : Manifest) : Collects m.Violation m.places m.issues := by
  have schema : Collects m.Violation [.schema]
      (if m.schemaVersion = currentSchema then [] else [.schemaVersion m.schemaVersion]) := by
    rw [← ite_not]
    exact .ite _ .schema fun | _, .schema other => other
  have suiteName : Collects m.Violation [.suiteName]
      (if Text.isBlankText m.suiteName then [.blankSuiteName] else []) := by
    simp only [Text.isBlankText_iff]
    exact .ite _ .suiteName fun | _, .suiteName blank => blank
  have rules : Collects m.Violation [.rules] (if m.rules.isEmpty then [.noRules] else []) := by
    simp only [List.isEmpty_iff]
    exact .ite _ .rules fun | _, .rules missing => missing
  have names := collects_ruleNameIssues (m := m) [] [] m.rules rfl (by simp [Remembers])
  rw [List.length_nil, ← List.range_eq_range'] at names
  have flags : Collects m.Violation (m.flags.keys.map .flag)
      ((m.flags.keys.filter Text.isBlankText).map fun _ => .blankFlagName) := by
    refine .filter (fun name blank => .flag ((Text.isBlankText_iff name).1 blank)) ?_
    rintro name issue (_ | _)
    exact (Text.isBlankText_iff name).2 ‹_›
  exact (((schema.append suiteName).append rules).append names).append flags |>.append
    (.flatMap fun dump _ => collects_dumpIssues dump)

/-! ## Validity -/

theorem mem_places {place : Place} : place ∈ m.places ↔
    match place with
    | .schema | .suiteName | .rules => True
    | .rule i => i < m.rules.length
    | .flag name => name ∈ m.flags.keys
    | .dumpPhase key => ∃ path, (key, path) ∈ m.dumps.entries
    | .dumpPath key path => (key, path) ∈ m.dumps.entries := by
  cases place <;> simp [places]

theorem valid_iff : m.Valid ↔ ∀ place ∈ m.places, ∀ issue, ¬m.Violation place issue := by
  constructor
  · intro valid place member issue wrong
    rw [mem_places] at member
    cases wrong with
    | schema other => exact other valid.schema
    | suiteName blank => exact valid.suiteName blank
    | rules missing => exact valid.rules missing
    | blankRule here named blank =>
        exact valid.named _ (List.mem_of_getElem? here) _ named blank
    | repeatedRule here named filled before there same =>
        obtain ⟨inside, rfl⟩ := List.getElem?_eq_some_iff.1 here
        obtain ⟨within, rfl⟩ := List.getElem?_eq_some_iff.1 there
        exact List.pairwise_iff_getElem.1 valid.distinct _ _ within inside before _ same named
    | flag blank => exact valid.flags _ member blank
    | placeholder named =>
        obtain ⟨path, listed⟩ := member
        obtain ⟨p, concrete, again⟩ := valid.phases _ listed
        rw [← Phase.read?_eq_some_iff] at named again
        exact concrete (Option.some.inj (again.symm.trans named))
    | unknown strange =>
        obtain ⟨path, listed⟩ := member
        obtain ⟨p, -, named⟩ := valid.phases _ listed
        exact strange p named
    | path blank => exact valid.paths _ member blank
  · intro fine
    have silent : ∀ {place issue}, place ∈ m.places → ¬m.Violation place issue :=
      fun member => fine _ member _
    exact {
      schema := by
        by_contra other
        exact silent (mem_places.2 trivial) (.schema other)
      suiteName := fun blank => silent (mem_places.2 trivial) (.suiteName blank)
      rules := fun missing => silent (mem_places.2 trivial) (.rules missing)
      named := by
        intro r member name named blank
        obtain ⟨i, inside, rfl⟩ := List.mem_iff_getElem.1 member
        exact silent (mem_places.2 inside)
          (.blankRule (List.getElem?_eq_getElem inside) named blank)
      distinct := by
        refine List.pairwise_iff_getElem.2 fun i j within inside before name same named => ?_
        by_cases blank : Text.trim name = ""
        · exact silent (mem_places.2 inside)
            (.blankRule (List.getElem?_eq_getElem inside) named blank)
        · exact silent (mem_places.2 inside)
            (.repeatedRule (List.getElem?_eq_getElem inside) named blank before
              (List.getElem?_eq_getElem within) same)
      flags := fun name member blank => silent (mem_places.2 member) (.flag blank)
      phases := by
        intro dump member
        have place : .dumpPhase dump.1 ∈ m.places := mem_places.2 ⟨dump.2, member⟩
        cases read : Phase.read? dump.1 with
        | none => exact absurd (.unknown (Phase.read?_eq_none_iff.1 read)) (silent place)
        | some p =>
            have named := Phase.read?_eq_some_iff.1 read
            refine ⟨p, ?_, named⟩
            rintro rfl
            exact silent place (.placeholder named)
      paths := fun dump member blank => silent (mem_places.2 member) (.path blank) }

theorem issues_eq_nil_iff : m.issues = [] ↔ m.Valid :=
  m.collects_issues.eq_nil_iff.trans valid_iff.symm

/-! ## Loading -/

/-- Where the file of a dump is found, given where the manifest is. -/
def located (manifestPath file : String) : String :=
  Path.join ((Path.parent? manifestPath).getD ".") file

/-- A declared dump with its concrete phase and the place of its file. -/
structure Declares (manifestPath : String) (dump : String × String) (file : Phase × String) :
    Prop where
  concrete : file.1 ≠ .placeholder
  named : Text.trim dump.1 = file.1.name
  place : file.2 = located manifestPath dump.2

theorem Valid.declares (valid : m.Valid) (manifestPath : String) :
    List.Forall₂ (Declares manifestPath) m.dumps.entries (m.dumpPaths manifestPath) := by
  have phases := valid.phases
  rw [dumpPaths]
  generalize m.dumps.entries = dumps at phases
  induction dumps with
  | nil => exact .nil
  | cons dump later ih =>
      rw [List.forall_mem_cons] at phases
      obtain ⟨⟨p, concrete, named⟩, phases⟩ := phases
      simp only [List.filterMap_cons, Phase.read?_eq_some_iff.2 named, Option.map_some]
      exact .cons ⟨concrete, named, rfl⟩ (ih phases)

/-- The texts that are declared for a phase, in the order of the manifest. -/
def declaredTexts (m : Manifest) (manifestPath : String) (fs : FileSystem σ) (s : σ) (p : Phase) :
    List String :=
  m.dumps.entries.filterMap fun dump =>
    if Text.trim dump.1 = p.name then fs.read s (located manifestPath dump.2) else none

/-- Each phase has the texts that are declared for it, one behind the other, so that no text that is
declared is lost. -/
structure Keeps (m : Manifest) (manifestPath : String) (fs : FileSystem σ) (s : σ) (dumps : Dumps) :
    Prop where
  joined : ∀ p, dumps.text? p = (m.declaredTexts manifestPath fs s p).foldl Dumps.grow none
  kept : ∀ dump ∈ m.dumps.entries, ∀ p : Phase, Text.trim dump.1 = p.name →
    ∃ given text, fs.read s (located manifestPath dump.2) = some given ∧
      dumps.text? p = some text ∧ given.toList <:+: text.toList

/-- The dumps of a manifest are all loaded, or else the file of one of them cannot be read. -/
def LoadsAll (m : Manifest) (manifestPath : String) (fs : FileSystem σ) (s : σ) : Prop :=
  (∃ dump ∈ m.dumps.entries, fs.read s (located manifestPath dump.2) = none) ∧
      (∃ e, (readDumps fs.store .empty (m.dumpPaths manifestPath)).run.run s = (.error e, s)) ∨
    ∃ dumps, m.Keeps manifestPath fs s dumps ∧
      (readDumps fs.store .empty (m.dumpPaths manifestPath)).run.run s = (.ok dumps, s)

end Manifest

theorem Dumps.infix_join (first second : String) :
    first.toList <:+: (join first second).toList ∧
      second.toList <:+: (join first second).toList := by
  rw [join]
  split
  · rw [String.toList_append]
    exact ⟨(List.prefix_append _ _).isInfix, (List.suffix_append _ _).isInfix⟩
  · rw [String.toList_append, String.toList_append]
    refine ⟨?_, (List.suffix_append _ _).isInfix⟩
    rw [List.append_assoc]
    exact (List.prefix_append _ _).isInfix

theorem Dumps.infix_foldl_grow (old : String) (later : List String) :
    ∃ out, later.foldl grow (some old) = some out ∧
      ∀ text ∈ old :: later, text.toList <:+: out.toList := by
  induction later generalizing old with
  | nil => exact ⟨old, rfl, by simp⟩
  | cons text later ih =>
      obtain ⟨out, joined, kept⟩ := ih (join old text)
      rw [List.forall_mem_cons] at kept
      have parts := infix_join old text
      refine ⟨out, joined, ?_⟩
      rw [List.forall_mem_cons, List.forall_mem_cons]
      exact ⟨parts.1.trans kept.1, parts.2.trans kept.1, kept.2⟩

namespace Manifest

variable {m : Manifest} {manifestPath : String} {σ : Type} {fs : FileSystem σ} {s : σ}

/-- The texts that are read for a phase are those that are declared for it. -/
theorem textsFor_eq_declaredTexts {files texts : List (Phase × String)}
    (declared : List.Forall₂ (Declares manifestPath) m.dumps.entries files)
    (dumped : List.Forall₂ (fs.Dumped s) files texts) (p : Phase) :
    Dumps.textsFor p texts = m.declaredTexts manifestPath fs s p := by
  rw [declaredTexts]
  generalize m.dumps.entries = dumps at declared
  induction declared generalizing texts with
  | nil =>
      cases dumped
      rfl
  | @cons dump file dumps files declares _ ih =>
      cases dumped with
      | @cons _ text _ texts here later =>
          have own : text.1 = p ↔ Text.trim dump.1 = p.name := by
            rw [here.1, ← Phase.read?_eq_some_iff, Phase.read?_eq_some_iff.2 declares.named,
              Option.some.injEq]
          have read : fs.read s (located manifestPath dump.2) = some text.2 :=
            declares.place ▸ here.2
          have rest := ih later
          rw [Dumps.textsFor] at rest ⊢
          simp only [List.filterMap_cons, own, read, rest]

theorem mem_dumpPaths {file : Phase × String} : file ∈ m.dumpPaths manifestPath ↔
    ∃ dump ∈ m.dumps.entries, Text.trim dump.1 = file.1.name ∧
      located manifestPath dump.2 = file.2 := by
  rw [dumpPaths, List.mem_filterMap]
  refine exists_congr fun dump => and_congr_right fun _ => ?_
  rw [← Phase.read?_eq_some_iff, Option.map_eq_some_iff]
  constructor
  · rintro ⟨p, read, rfl⟩
    exact ⟨read, rfl⟩
  · rintro ⟨read, place⟩
    exact ⟨file.1, read, Prod.ext rfl place⟩

theorem Valid.keeps_insertAll {texts : List (Phase × String)} (valid : m.Valid)
    (dumped : List.Forall₂ (fs.Dumped s) (m.dumpPaths manifestPath) texts) :
    m.Keeps manifestPath fs s (Dumps.empty.insertAll texts) := by
  have declared := valid.declares manifestPath
  have joined : ∀ p, (Dumps.empty.insertAll texts).text? p =
      (m.declaredTexts manifestPath fs s p).foldl Dumps.grow none := by
    intro p
    rw [Dumps.text?_insertAll, textsFor_eq_declaredTexts declared dumped]
    rfl
  refine ⟨joined, fun dump member p named => ?_⟩
  have file : (p, located manifestPath dump.2) ∈ m.dumpPaths manifestPath :=
    mem_dumpPaths.2 ⟨dump, member, named, rfl⟩
  obtain ⟨⟨_, given⟩, -, read⟩ := Grammar.exists_of_forall₂ dumped.flip _ file
  have listed : given ∈ m.declaredTexts manifestPath fs s p :=
    List.mem_filterMap.2 ⟨dump, member, (if_pos named).trans read⟩
  obtain ⟨first, later, own⟩ := List.exists_cons_of_ne_nil (List.ne_nil_of_mem listed)
  obtain ⟨text, grown, kept⟩ := Dumps.infix_foldl_grow first later
  refine ⟨given, text, read, ?_, kept given (own ▸ listed)⟩
  rw [joined, own]
  exact grown

theorem Valid.loadsAll (valid : m.Valid) (manifestPath : String) (fs : FileSystem σ) (s : σ) :
    m.LoadsAll manifestPath fs s := by
  rcases readDumps_cases fs s (m.dumpPaths manifestPath) .empty with
    ⟨⟨file, member, missing⟩, failed⟩ | ⟨texts, dumped, done⟩
  · obtain ⟨dump, listed, -, place⟩ := mem_dumpPaths.1 member
    exact .inl ⟨⟨dump, listed, place ▸ missing⟩, failed⟩
  · exact .inr ⟨_, valid.keeps_insertAll dumped, done⟩

/-- **Validation is exact and protects the loading of dumps.** There is one issue for each place at
which something is wrong, in the order of the places, hence none just if the manifest is valid. Then
each dump has its concrete phase and its file, and all of their texts are loaded. -/
theorem issues_exact (m : Manifest) :
    (m.issues = [] ↔ m.Valid) ∧ Collects m.Violation m.places m.issues ∧
      (m.issues = [] → ∀ manifestPath,
        List.Forall₂ (Declares manifestPath) m.dumps.entries (m.dumpPaths manifestPath) ∧
          ∀ (σ : Type) (fs : FileSystem σ) (s : σ), m.LoadsAll manifestPath fs s) := by
  refine ⟨issues_eq_nil_iff, m.collects_issues, fun clean manifestPath => ?_⟩
  have valid := issues_eq_nil_iff.1 clean
  exact ⟨valid.declares manifestPath, fun σ fs s => valid.loadsAll manifestPath fs s⟩

/-- A manifest with two dumps of one phase, whose keys differ in white space. -/
def spacedManifest : Manifest where
  schemaVersion := 1
  suiteName := "spaced"
  nodes := []
  rules := [{}]
  dumps := ⟨[("FINAL_CODE", "first"), (" FINAL_CODE", "second")], by decide⟩

/-- Where the two dumps are found. -/
def spacedFiles : Files where
  files := [(["data", "first"], some "a\n"), (["data", "second"], some "b")]
  here := ["work"]

theorem issues_exact_spaced :
    spacedManifest.issues = [] ∧
      ∃ dumps, spacedManifest.Keeps "/data/suite.json" Files.system spacedFiles dumps ∧
        dumps.text? .finalCode = some "a\nb" := by
  have clean : spacedManifest.issues = [] := by decide +kernel
  have readable : ∀ dump ∈ spacedManifest.dumps.entries,
      spacedFiles.read (located "/data/suite.json" dump.2) ≠ none := by decide +kernel
  obtain ⟨-, loads⟩ := (issues_exact spacedManifest).2.2 clean "/data/suite.json"
  rcases loads Files Files.system spacedFiles with ⟨⟨dump, listed, missing⟩, -⟩ |
    ⟨dumps, keeps, -⟩
  · exact absurd missing (readable dump listed)
  · refine ⟨clean, dumps, keeps, ?_⟩
    rw [keeps.joined]
    decide +kernel

end Manifest

end DumpRules
