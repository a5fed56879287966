import Graft.Unicode.Property
import Graft.Unicode.Script

/-!
# Classes of characters

The classes that patterns and text formats ask for: white space, decimal digits,
word characters, alphabetic and alphanumeric characters, and the characters that
a quoted text shows as they are. The last part finds a class by the name that a
pattern gives for it.
-/

namespace Graft.Unicode

/-- White space. -/
def whiteSpace : Ranges :=
  [(0x9, 0xD), (0x20, 0x20), (0x85, 0x85), (0xA0, 0xA0), (0x1680, 0x1680), (0x2000, 0x200A),
   (0x2028, 0x2029), (0x202F, 0x202F), (0x205F, 0x205F), (0x3000, 0x3000)]

/-- Whether a character is white space. -/
def isWhiteSpace (c : Char) : Bool := whiteSpace.contains c.toNat

/-- The decimal digits of all scripts. -/
def decimalDigit : Ranges := (category? "nd").getD []

/-- The alphabetic characters. -/
def alphabetic : Ranges := (property? "alphabetic").getD []

/-- Whether a character is alphabetic. -/
def isAlphabetic (c : Char) : Bool := c.isAlpha || alphabetic.contains c.toNat

/-- The characters that are alphabetic or some kind of number. -/
def alphanumeric : Ranges := alphabetic.union (unionOfCategories ["nd", "nl", "no"])

/-- Whether a character is alphabetic or some kind of number. -/
def isAlphanumeric (c : Char) : Bool := c.isAlphanum || alphanumeric.contains c.toNat

/-- Word characters: alphabetic characters, marks, decimal digits, connecting
punctuation and the two join controls. -/
def word : Ranges :=
  (alphabetic.union (unionOfCategories ["mn", "mc", "me", "nd", "pc"])).union [(0x200C, 0x200D)]

/-- Whether a character is a word character. -/
def isWord (c : Char) : Bool :=
  if c.toNat < 0x80 then c.isAlphanum || c = '_' else word.contains c.toNat

/-- Characters that extend the one before them, and so cannot be shown on their
own. -/
def graphemeExtend : Ranges := (property? "graphemeextend").getD []

/-- Controls, format characters, separators, and code points for private use or
without a use. -/
def unprintable : Ranges :=
  assigned.complement.union (unionOfCategories ["cc", "cf", "co", "zl", "zp", "zs"])

/-- Whether a quoted text shows the character as it is. -/
def isShown (c : Char) : Bool :=
  if c.toNat < 0x7F then 0x20 ≤ c.toNat
  else !(unprintable.contains c.toNat || graphemeExtend.contains c.toNat)

/-- The class of this name: a binary property, a general category or a script,
in this order. -/
def classNamed? (name : String) : Option Ranges :=
  let name := normalName name
  (property? name).orElse fun _ => (category? name).orElse fun _ => script? name

/-- The class of the characters for which the property has this value. -/
def classOfValue? (property value : String) : Option Ranges :=
  let property := normalName property
  let value := normalName value
  if property = "gc" || property = "generalcategory" then category? value
  else if property = "sc" || property = "script" then script? value
  else if property = "scx" || property = "scriptextensions" then extendedScript? value
  else none

end Graft.Unicode
