import Formulary.Decimal.Rounding

/-!
Numbers with 80 places after the point and any number before it: the working precision of powers
that no chain of decimal products gives. A number is held as a whole count of units of 10^-80. The
decimal library has wider intermediates of its own there, in whose place these stand: such powers
have been compared with its own up to fifteen places, and may differ in the last ones.
-/
namespace Formulary

structure FixedPoint where
  units : Int
deriving DecidableEq

namespace FixedPoint

abbrev unit : Nat := tenTo 80

def ofInt (value : Int) : FixedPoint := ⟨value * unit⟩

def ofDecimal (d : Decimal) : FixedPoint := ⟨d.coeff * tenTo (80 - d.scale)⟩

def toDecimal? (x : FixedPoint) : Option Decimal := Decimal.nearest x.units unit Decimal.maxScale

instance : Add FixedPoint := ⟨fun x y => ⟨x.units + y.units⟩⟩
instance : Sub FixedPoint := ⟨fun x y => ⟨x.units - y.units⟩⟩
instance : Mul FixedPoint := ⟨fun x y => ⟨roundHalfEven (x.units * y.units) unit⟩⟩
instance : Div FixedPoint := ⟨fun x y => ⟨x.units * unit / y.units⟩⟩

def isWide (x : FixedPoint) : Bool := Decimal.widthBound * unit ≤ x.units.natAbs

/-- `1 + x/k (1 + x/(k+1) (1 + …))` with `terms` brackets: from `k = 1` the exponential series. -/
def exponentialFrom (x : FixedPoint) (k : Nat) : (terms : Nat) → FixedPoint
  | 0 => ofInt 1
  | terms + 1 => ofInt 1 + x * exponentialFrom x (k + 1) terms / ofInt k

/-- `1/k + z (1/(k+2) + z (1/(k+4) + …))`: from `k = 1`, at a square, the inverse hyperbolic
    tangent series divided by its argument. -/
def arctanhFrom (square : FixedPoint) (k : Nat) : (terms : Nat) → FixedPoint
  | 0 => ofInt 0
  | terms + 1 => ofInt 1 / ofInt k + square * arctanhFrom square (k + 2) terms

/-- The logarithm of a number from 1 to 2, by `log m = 2 artanh ((m - 1) / (m + 1))`. -/
def logMantissa (m : FixedPoint) : FixedPoint :=
  let z := (m - ofInt 1) / (m + ofInt 1)
  ofInt 2 * z * arctanhFrom (z * z) 1 90

def logTwo : FixedPoint := logMantissa (ofInt 2)

def log (x : FixedPoint) : FixedPoint :=
  let power : Int := (x.units.toNat.log2 : Int) - (unit.log2 : Int)
  let mantissa : FixedPoint :=
    if 0 ≤ power then ⟨x.units / Nat.pow 2 power.toNat⟩
    else ⟨x.units * Nat.pow 2 (-power).toNat⟩
  logMantissa mantissa + ofInt power * logTwo

/-- The exponential of a number that is not negative, by `exp x = 2^n exp (x - n log 2)`. -/
def expNonneg (x : FixedPoint) : FixedPoint :=
  let power := x.units / logTwo.units
  ⟨(exponentialFrom (x - ofInt power * logTwo) 1 60).units * Nat.pow 2 power.toNat⟩

def exp? (x : FixedPoint) : Option FixedPoint :=
  if (ofInt 128).units < x.units.natAbs then none
  else
    let grown := expNonneg ⟨x.units.natAbs⟩
    if grown.isWide then none
    else some (if x.units < 0 then ofInt 1 / grown else grown)

end FixedPoint

end Formulary
