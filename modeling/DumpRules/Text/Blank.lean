import DumpRules.Text.CodePoints

/-!
White space in the wide sense, that of the property White_Space, and the trimming of texts by it.
The narrow sense, the four characters that may stand between the tokens of a clause list, belongs to
the grammar of those lists.
-/

namespace DumpRules.Text

set_option autoImplicit false

/-- The intervals of the property White_Space, in ascending order. -/
def blankPoints : CodePoints :=
  [(0x9, 0xd), (0x20, 0x20), (0x85, 0x85), (0xa0, 0xa0), (0x1680, 0x1680), (0x2000, 0x200a),
   (0x2028, 0x2029), (0x202f, 0x202f), (0x205f, 0x205f), (0x3000, 0x3000)]

/-- Whether a character is white space. -/
def isBlank (c : Char) : Bool :=
  blankPoints.contains c

/-- The characters from the first to the last that is not white space. -/
def trimChars (cs : List Char) : List Char :=
  ((cs.dropWhile isBlank).reverse.dropWhile isBlank).reverse

/-- A text without the white space at its two ends. -/
def trim (s : String) : String :=
  String.ofList (trimChars s.toList)

/-- Whether a text holds nothing but white space. -/
def isBlankText (s : String) : Bool :=
  s.toList.all isBlank

end DumpRules.Text
