/-
The numbers that a document can hold, and their text.

A number is an integer as long as it is written without fraction and
exponent and fits in 64 bits, with a sign or without; every other number is
a magnitude of the binary64 format with a sign, negative zero included.
-/
import Dossier.Decimal.Shortest

namespace Dossier.Json

/-- A number of a document. -/
inductive Number where
  | integer (value : Int)
  | float (negative : Bool) (magnitude : Double)
  deriving DecidableEq, Repr

/-- Numbers from 0.00001 to below 10^16 are written without an exponent. -/
def floatLayout : DecimalLayout := ⟨-5, 15⟩

namespace Number

/-- The decimal digits of an integer, after its sign. -/
def integerText (n : Int) : List Char :=
  if n < 0 then '-' :: Nat.toDigits 10 n.natAbs else Nat.toDigits 10 n.natAbs

/-- The text of a number. -/
def text : Number → List Char
  | .integer n => integerText n
  | .float negative magnitude =>
      (if negative then ['-'] else []) ++ magnitude.shortest.text floatLayout

end Number

end Dossier.Json
