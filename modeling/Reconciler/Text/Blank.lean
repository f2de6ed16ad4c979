/-!
# Blank text

The characters with the Unicode property `White_Space`, and what it means for a text to be blank.
A name that consists of such characters only is as good as no name.
-/

namespace Reconciler.Text

/-- The code points with the Unicode property `White_Space`. -/
def blankCodePoints : List Nat :=
  [0x9, 0xA, 0xB, 0xC, 0xD, 0x20, 0x85, 0xA0, 0x1680, 0x2000, 0x2001, 0x2002, 0x2003, 0x2004,
    0x2005, 0x2006, 0x2007, 0x2008, 0x2009, 0x200A, 0x2028, 0x2029, 0x202F, 0x205F, 0x3000]

/-- Whether a character is white space. -/
def isBlankChar (character : Char) : Bool :=
  blankCodePoints.contains character.toNat

/-- Whether nothing remains of a text once white space is trimmed from it. -/
def isBlank (text : String) : Bool :=
  text.toList.all isBlankChar

/-- A text without its leading white space. -/
def trimStart (characters : List Char) : List Char :=
  characters.dropWhile isBlankChar

example : blankCodePoints.length = 25 ∧ blankCodePoints.Pairwise (· < ·) := by decide

end Reconciler.Text
