import DumpRules.Text.Blank

/-!
The phases of a compilation for which a dump can be captured, in the order in which the compiler
goes through them, and the two kinds of dump they produce. `DEFAULT` is a placeholder: it stands for
the phase in which a node is looked for when a rule names none, and no dump belongs to it.
-/

namespace DumpRules

set_option autoImplicit false

/-- The kind of dump that a phase produces. -/
inductive OutputClass where
  /-- A dump of the platform-independent graph. -/
  | ideal
  /-- A dump of machine nodes. -/
  | mach
deriving DecidableEq

namespace OutputClass

/-- The written name of a kind of dump. -/
def name : OutputClass → String
  | ideal => "ideal"
  | mach => "mach"

/-- The kind of dump with a given name. -/
def ofName? : String → Option OutputClass
  | "ideal" => some ideal
  | "mach" => some mach
  | _ => none

@[simp] theorem ofName?_name (c : OutputClass) : ofName? c.name = some c := by
  cases c <;> rfl

end OutputClass

/-- A phase of a compilation, or the placeholder for a node's own default phase. -/
inductive Phase where
  | placeholder
  | beforeStringopts
  | afterStringopts
  | afterParsing
  | iterGvn1
  | phaseIdealLoop1
  | phaseIdealLoop2
  | phaseIdealLoop3
  | ccp1
  | iterGvn2
  | beforeMacroExpansion
  | afterMacroExpansion
  | beforeMatching
  | matching
  | globalCodeMotion
  | finalCode
  | printIdeal
  | printOptoAssembly
deriving DecidableEq

namespace Phase

/-- All phases, the placeholder first and the others in the order of the compilation. -/
def all : List Phase :=
  [placeholder, beforeStringopts, afterStringopts, afterParsing, iterGvn1, phaseIdealLoop1,
   phaseIdealLoop2, phaseIdealLoop3, ccp1, iterGvn2, beforeMacroExpansion, afterMacroExpansion,
   beforeMatching, matching, globalCodeMotion, finalCode, printIdeal, printOptoAssembly]

/-- The written name of a phase. -/
def name : Phase → String
  | placeholder => "DEFAULT"
  | beforeStringopts => "BEFORE_STRINGOPTS"
  | afterStringopts => "AFTER_STRINGOPTS"
  | afterParsing => "AFTER_PARSING"
  | iterGvn1 => "ITER_GVN1"
  | phaseIdealLoop1 => "PHASE_IDEAL_LOOP1"
  | phaseIdealLoop2 => "PHASE_IDEAL_LOOP2"
  | phaseIdealLoop3 => "PHASE_IDEAL_LOOP3"
  | ccp1 => "CCP1"
  | iterGvn2 => "ITER_GVN2"
  | beforeMacroExpansion => "BEFORE_MACRO_EXPANSION"
  | afterMacroExpansion => "AFTER_MACRO_EXPANSION"
  | beforeMatching => "BEFORE_MATCHING"
  | matching => "MATCHING"
  | globalCodeMotion => "GLOBAL_CODE_MOTION"
  | finalCode => "FINAL_CODE"
  | printIdeal => "PRINT_IDEAL"
  | printOptoAssembly => "PRINT_OPTO_ASSEMBLY"

/-- The phase with a given name, letter by letter. -/
def ofName? (name : String) : Option Phase :=
  all.find? fun p => p.name == name

/-- The phase that a text names, white space at its ends aside. -/
def read? (text : String) : Option Phase :=
  ofName? (Text.trim text)

/-- What is said of a text that names no phase. -/
def unknownMessage (text : String) : String :=
  s!"unknown compile phase '{text}'"

/-- The place of a phase in the compilation, the placeholder at 0. -/
def rank (p : Phase) : Nat :=
  all.idxOf p

instance : LT Phase := ⟨fun a b => a.rank < b.rank⟩

instance (a b : Phase) : Decidable (a < b) :=
  inferInstanceAs (Decidable (a.rank < b.rank))

/-- The kind of dump that a phase produces; the placeholder produces none. -/
def outputClass? : Phase → Option OutputClass
  | placeholder => none
  | matching | globalCodeMotion | finalCode | printOptoAssembly => some .mach
  | _ => some .ideal

@[simp] theorem mem_all (p : Phase) : p ∈ all := by
  cases p <;> decide

@[simp] theorem ofName?_name (p : Phase) : ofName? p.name = some p := by
  cases p <;> decide

end Phase

end DumpRules
