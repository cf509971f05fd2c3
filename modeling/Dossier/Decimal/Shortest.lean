/-
The shortest decimal digits that read back as a given magnitude.

Around a magnitude lies the interval of the numbers that round to it, its
ends included when the mantissa is even. Of the grids of multiples of a
power of ten, `shortest` takes the coarsest that has a point in the
interval, and of its points the one next to the magnitude, so no decimal
with fewer digits reads back and none with as many lies nearer. If a grid
has a point in the interval at all, then one of the two next to the
magnitude lies there, so only these two are tried.
-/
import Dossier.Decimal.Double

namespace Dossier

/-- The decimal `digits * 10 ^ exponent`. -/
structure Decimal where
  digits : Nat
  exponent : Int
  deriving DecidableEq, Repr

namespace Double

/-- The factors by which quarter steps of the mantissa and multiples of the
power of ten are brought to one unit. -/
def gridFactors (x : Double) (power : Int) : Nat × Nat :=
  let binary := shift 1 1 (2 - x.exponent)
  let decimal := if 0 ≤ power then (Nat.pow 10 power.toNat, 1) else (1, Nat.pow 10 (-power).toNat)
  (binary.1 * decimal.2, decimal.1 * binary.2)

/-- The multiple of the power of ten next to the magnitude among those that
round to it; from halfway, the even one. -/
def gridPoint? (x : Double) (power : Int) : Option Nat :=
  let (quarter, point) := x.gridFactors power
  let value := 4 * x.mantissa * quarter
  let narrow := x.mantissa = 1 <<< 52 ∧ leastExponent < x.exponent
  let low := (4 * x.mantissa - if narrow then 1 else 2) * quarter
  let high := (4 * x.mantissa + 2) * quarter
  let inside (n : Nat) : Bool :=
    if x.mantissa % 2 = 0 then low ≤ n * point && n * point ≤ high
    else low < n * point && n * point < high
  let below := value / point
  let toBelow := value - below * point
  let toAbove := (below + 1) * point - value
  let takeAbove :=
    inside (below + 1)
      && (!inside below || toAbove < toBelow || (toAbove == toBelow && below % 2 == 1))
  if takeAbove then some (below + 1)
  else if inside below then some below
  else none

/-- Tries `count` grids, from the given one to finer ones. -/
def searchGrids (x : Double) : (count : Nat) → (power : Int) → Option Decimal
  | 0, _ => none
  | count + 1, power =>
      match x.gridPoint? power with
      | some digits => some ⟨digits, power⟩
      | none => x.searchGrids count (power - 1)

/-- The exponents of the coarsest and the finest grid that can be needed. -/
def coarsestGrid : Int := 309

/-- How many grids there are from the coarsest to the finest that can be needed. -/
def gridCount : Nat := 660

/-- The shortest decimal that reads back as the magnitude, and of those the
nearest. -/
def shortest (x : Double) : Decimal :=
  if x.mantissa = 0 then ⟨0, 0⟩ else (x.searchGrids gridCount coarsestGrid).getD ⟨0, 0⟩

end Double

-- ============================================================== layout

/-- How a decimal is laid out: which decimal orders are written without an
exponent. -/
structure DecimalLayout where
  leastOrder : Int
  greatestOrder : Int
  deriving DecidableEq, Repr

namespace Decimal

/-- The text of a decimal. Without an exponent it has a point and at least one
digit on each side; with one, the point stands behind the first digit if others
follow, and the exponent always has a sign and no needless zero. -/
def text (layout : DecimalLayout) (d : Decimal) : List Char :=
  let digits := Nat.toDigits 10 d.digits
  let order : Int := d.exponent + digits.length - 1
  if layout.leastOrder ≤ order ∧ order ≤ layout.greatestOrder then
    if 0 ≤ d.exponent then digits ++ List.replicate d.exponent.toNat '0' ++ ['.', '0']
    else if 0 ≤ order then
      digits.take (order + 1).toNat ++ '.' :: digits.drop (order + 1).toNat
    else '0' :: '.' :: List.replicate (-order - 1).toNat '0' ++ digits
  else
    let point := if digits.length ≤ 1 then digits else digits.take 1 ++ '.' :: digits.drop 1
    point ++ 'e' :: (if order < 0 then '-' else '+') :: Nat.toDigits 10 order.natAbs

end Decimal

end Dossier
