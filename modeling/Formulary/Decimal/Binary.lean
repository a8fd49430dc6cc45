import Formulary.Decimal.Basic

/-!
Decimals from binary fractions, as the decimal library makes them. A whole number keeps all its
digits. A fraction is halved its way down one bit at a time, within the width of a coefficient. A
double carries some 15 decimal digits, so the digits after the point are then rounded off, the last
one first, until the coefficient is below 2^52.
-/
namespace Formulary.Decimal

abbrev binaryPrecision : Nat := 0x10000000000000

/-- The number `coeff / 10^places`, halved `halvings` times. An odd coefficient is halved as five
    times itself with one more place, or loses its last unit where that would be too wide. -/
def halve : (halvings : Nat) → (coeff places : Nat) → Nat × Nat
  | 0, coeff, places => (coeff, places)
  | halvings + 1, coeff, places =>
    if coeff % 2 = 1 ∧ 5 * coeff < widthBound then halve halvings (5 * coeff) (places + 1)
    else halve halvings (coeff / 2) places

/-- Rounds digits after the point off, each one half up before the next is looked at, until the
    scale is allowed and the coefficient is below `binaryPrecision`. A number whose digits all stand
    beyond the largest scale is zero, however near it is to the last place. -/
def shorten : (places : Nat) → (coeff : Nat) → Nat × Nat
  | 0, coeff => (coeff, 0)
  | places + 1, coeff =>
    if places < maxScale ∧ coeff < binaryPrecision then (coeff, places + 1)
    else if coeff < 10 then (0, 0)
    else shorten places ((coeff + 5) / 10)

def ofFloat? (x : Float) : Option Decimal :=
  let bits := x.toBits.toNat
  let exponent := bits / binaryPrecision % 2048
  let fraction := bits % binaryPrecision
  if exponent = 2047 then none
  else
    let significand := if exponent = 0 then fraction else fraction + binaryPrecision
    let power := max exponent 1
    let unit := Nat.pow 2 (power - 1075)
    let (digits, places) := halve (1075 - power) (significand * unit) 0
    let (coeff, scale) := shorten places digits
    let signed : Int := if 0x8000000000000000 ≤ bits then -coeff else coeff
    (ofParts? signed scale).map normalize

end Formulary.Decimal
