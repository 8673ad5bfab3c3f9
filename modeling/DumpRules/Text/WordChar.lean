import DumpRules.Text.Alphabetic
import DumpRules.Text.Mark
import DumpRules.Text.Number

/-!
Two notions of a character that belongs to a name. A *word character* is what a search pattern
means by a word: alphabetic characters, marks, decimal digits, connecting punctuation and the two
join controls. An *alphanumeric* character is an alphabetic one or a number of any kind. The two
differ: a superscript digit is alphanumeric and no word character, a combining accent the other way
round.
-/

namespace DumpRules.Text

set_option autoImplicit false

/-- Punctuation that joins words, the underscore among it. -/
def connectorPoints : CodePoints :=
  [(0x5f, 0x5f), (0x203f, 0x2040), (0x2054, 0x2054), (0xfe33, 0xfe34), (0xfe4d, 0xfe4f),
   (0xff3f, 0xff3f)]

/-- The zero-width non-joiner and joiner. -/
def joinControlPoints : CodePoints :=
  [(0x200c, 0x200d)]

/-- Whether a search pattern counts the character as part of a word. -/
def isWordChar (c : Char) : Bool :=
  c.isAlphanum || c == '_' || isAlphabetic c || isMark c || isDecimal c ||
    connectorPoints.contains c || joinControlPoints.contains c

/-- Whether the character is a letter or a number. -/
def isAlphanumeric (c : Char) : Bool :=
  c.isAlphanum || isAlphabetic c || isNumber c

/-- The letters and digits of ASCII are alphanumeric. -/
theorem isAlphanumeric_of_isAlphanum {c : Char} (h : c.isAlphanum = true) :
    isAlphanumeric c = true := by
  simp [isAlphanumeric, h]

end DumpRules.Text
