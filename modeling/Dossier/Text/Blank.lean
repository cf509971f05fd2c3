/-
Blanks, and texts without the blanks at their ends.

The table holds the codes of the characters with the property White_Space in
ascending ranges, ends included, by Unicode 17.
-/
import Dossier.Text.Ranges

namespace Dossier.Text

/-- The codes of blanks, in ascending ranges. -/
def blankRanges : List (Nat × Nat) :=
  [
    (0x0009, 0x000D), (0x0020, 0x0020), (0x0085, 0x0085), (0x00A0, 0x00A0), (0x1680, 0x1680),
    (0x2000, 0x200A), (0x2028, 0x2029), (0x202F, 0x202F), (0x205F, 0x205F), (0x3000, 0x3000)
  ]

/-- The character is a blank. -/
def isBlank (c : Char) : Bool := within blankRanges c.toNat

theorem ascending_blankRanges : ascending 0 blankRanges = true := by decide +kernel

/-- The text without the blanks at its ends. -/
def trim (text : List Char) : List Char :=
  ((text.dropWhile isBlank).reverse.dropWhile isBlank).reverse

end Dossier.Text
