import Formulary.Decimal.Arithmetic
import Formulary.Decimal.FixedPoint

/-!
Powers of decimals, by the methods of the decimal library. Small whole exponents multiply decimals
and round each product. From exponent 1024 on, and for exponents with a fraction, that library
turns to wider intermediates; here the work is then done in fixed point and rounded once.
-/
namespace Formulary

def FixedPoint.powFrom (product square : FixedPoint) (n : Nat) : Option FixedPoint :=
  let product := if n % 2 = 1 then product * square else product
  if product.isWide then none
  else if more : n / 2 = 0 then some product
  else if (square * square).isWide then none
  else powFrom product (square * square) (n / 2)
termination_by n
decreasing_by omega

namespace Decimal

def powFrom (product square : Decimal) (n : Nat) : Option Decimal := do
  let product ← if n % 2 = 1 then product.mul? square else some product
  if more : n / 2 = 0 then some product
  else do
    let square ← square.mul? square
    powFrom product square (n / 2)
termination_by n
decreasing_by omega

abbrev longExponent : Nat := 1024

def powNat? (base : Decimal) : (exponent : Nat) → Option Decimal
  | 0 => some one
  | 1 => some base
  | 2 => base.mul? base
  | exponent =>
    if exponent < longExponent then (powFrom one base exponent).map normalize
    else
      ((FixedPoint.powFrom (.ofInt 1) (.ofDecimal base) exponent).bind
        FixedPoint.toDecimal?).map normalize

/-- The power with a whole exponent. A negative exponent asks for the reciprocal, which does not
    exist when the power is zero or too wide. -/
def pow? (base : Decimal) (exponent : Int) : Option Decimal :=
  if exponent < 0 then (base.powNat? exponent.natAbs).bind one.div?
  else base.powNat? exponent.natAbs

/-- The power with any exponent, of the base's distance from zero when the exponent is not
    whole. -/
def realPow? (base exponent : Decimal) : Option Decimal :=
  if exponent.isZero then some one
  else if base.isZero then some zero
  else if base.order one = .eq then some one
  else if exponent.isWhole then
    if exponent.toInt.natAbs < exponentBound then base.pow? exponent.toInt else none
  else
    let magnitude := FixedPoint.ofDecimal base
    let growth := FixedPoint.ofDecimal exponent * FixedPoint.log ⟨magnitude.units.natAbs⟩
    (FixedPoint.exp? growth).bind FixedPoint.toDecimal?

end Decimal

end Formulary
