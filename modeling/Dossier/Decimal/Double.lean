/-
Numbers of the binary64 format as exact values.

A finite magnitude of the format is `mantissa * 2 ^ exponent` with a
mantissa below 2^53 and an exponent of at least -1074; the mantissa has 53
bits unless the exponent is the least. Every operation computes its exact
result as a quotient of natural numbers and rounds it once, to the nearest
magnitude and from halfway to the one with the even mantissa. A result that
rounds to 2^1024 or more has no magnitude.
-/
namespace Dossier

/-- The magnitude `mantissa * 2 ^ exponent`. -/
structure Double where
  mantissa : Nat
  exponent : Int
  deriving DecidableEq, Repr

namespace Double

/-- The exponent of the smallest magnitudes. -/
def leastExponent : Int := -1074

/-- The exponent of the largest magnitudes. -/
def greatestExponent : Int := 971

/-- The natural number nearest to a quotient, the even one from halfway. -/
def roundQuotient (num den : Nat) : Nat :=
  let twice := 2 * (num % den)
  if den < twice || (twice == den && num / den % 2 == 1) then num / den + 1 else num / den

/-- The quotient divided by a power of two, as numerator and denominator. -/
def shift (num den : Nat) (power : Int) : Nat × Nat :=
  if 0 ≤ power then (num, den <<< power.toNat) else (num <<< (-power).toNat, den)

/-- The power of two at or next below a positive quotient. -/
def binaryOrder (num den : Nat) : Int :=
  let guess : Int := (Nat.log2 num : Int) - (Nat.log2 den : Int)
  let (n, d) := shift num den guess
  if d ≤ n then guess else guess - 1

/-- The magnitude nearest to a quotient, if there is one. -/
def ofQuotient (num den : Nat) : Option Double :=
  if num = 0 then some ⟨0, leastExponent⟩
  else
    let exponent := max (binaryOrder num den - 52) leastExponent
    let (n, d) := shift num den exponent
    let mantissa := roundQuotient n d
    let rounded : Double :=
      if mantissa = 1 <<< 53 then ⟨1 <<< 52, exponent + 1⟩ else ⟨mantissa, exponent⟩
    if greatestExponent < rounded.exponent then none else some rounded

/-- The magnitude nearest to a natural number. -/
def ofNat (n : Nat) : Option Double := ofQuotient n 1

/-- The exact value as numerator and denominator. -/
def quotient (x : Double) : Nat × Nat := shift x.mantissa 1 (-x.exponent)

/-- The product, rounded once. -/
def mul (x y : Double) : Option Double :=
  ofQuotient (x.quotient.1 * y.quotient.1) (x.quotient.2 * y.quotient.2)

/-- The quotient of two magnitudes, rounded once. -/
def div (x y : Double) : Option Double :=
  ofQuotient (x.quotient.1 * y.quotient.2) (x.quotient.2 * y.quotient.1)

/-- The greatest power of ten among the magnitudes is `10 ^ 308`. -/
def greatestPower : Nat := 308

/-- The magnitude times a power of ten, each factor of at most `10 ^ 308` put in
as one rounded operation. A product beyond the largest magnitude has no value;
a quotient that has come down to zero stays there. -/
def scale (x : Double) (power : Int) : Option Double :=
  if power.natAbs ≤ greatestPower then
    (ofNat (Nat.pow 10 power.natAbs)).bind fun factor =>
      if 0 ≤ power then x.mul factor else x.div factor
  else if x.mantissa = 0 then some x
  else if 0 < power then none
  else
    (ofNat (Nat.pow 10 greatestPower)).bind fun factor =>
      (x.div factor).bind fun y => y.scale (power + greatestPower)
termination_by power.natAbs
decreasing_by
  simp only [greatestPower] at *
  omega

end Double

end Dossier
