import Formulary.Decimal.Rounding

/-!
Sum, product and quotient. Each is the exact result, rounded half to even where it
does not fit; none means that its whole part is too wide.
-/
namespace Formulary.Decimal

def add? (a b : Decimal) : Option Decimal :=
  if a.isZero then some b
  else if b.isZero then some a
  else
    let scale := max a.scale b.scale
    nearest (a.coeffAt scale + b.coeffAt scale) (tenTo scale) scale

def sub? (a b : Decimal) : Option Decimal := a.add? b.neg

def mul? (a b : Decimal) : Option Decimal :=
  if a.isZero || b.isZero then some zero
  else nearest (a.coeff * b.coeff) (tenTo (a.scale + b.scale)) (a.scale + b.scale)

/-- The quotient at full precision, less the trailing zeros that the operands did not ask for.
    None also for a zero divisor. -/
def div? (a b : Decimal) : Option Decimal :=
  if b.isZero then none
  else if a.isZero then some zero
  else
    let quotient? := nearest (b.coeff.sign * a.coeff * tenTo b.scale)
      (b.coeff.natAbs * tenTo a.scale) maxScale
    quotient?.map (strip (a.scale - b.scale))

end Formulary.Decimal
