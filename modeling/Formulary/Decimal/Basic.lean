/-!
Decimal fractions of bounded width: a whole coefficient of 96 bits over a power of ten of at most
28. Several decimals may stand for one number (`1.5` and `1.50`); order and equality look at the
number.

Here and in the modules that build on this one, the decimal library behind the program is followed,
which is not part of this project: its rounding, and the order of its cases.
-/
namespace Formulary

def tenTo (places : Nat) : Nat := Nat.pow 10 places

theorem tenTo_pos (places : Nat) : 0 < tenTo places := Nat.pow_pos (by decide)

abbrev Decimal.widthBound : Nat := 0x1000000000000000000000000

abbrev Decimal.maxScale : Nat := 28

abbrev Decimal.exponentBound : Nat := 0x100000000

structure Decimal where
  coeff : Int
  scale : Nat
  coeff_lt : coeff.natAbs < Decimal.widthBound
  scale_le : scale ≤ Decimal.maxScale
deriving DecidableEq

namespace Decimal

def ofParts? (coeff : Int) (scale : Nat) : Option Decimal :=
  if h : coeff.natAbs < widthBound ∧ scale ≤ maxScale then some ⟨coeff, scale, h.1, h.2⟩ else none

def ofInt (value : Int) (bounded : value.natAbs < widthBound) : Decimal :=
  ⟨value, 0, bounded, by decide⟩

def zero : Decimal := ofInt 0 (by decide)

def one : Decimal := ofInt 1 (by decide)

def ten : Decimal := ofInt 10 (by decide)

def hundredth : Decimal := ⟨1, 2, by decide, by decide⟩

def isZero (d : Decimal) : Bool := d.coeff == 0

def isNegative (d : Decimal) : Bool := d.coeff < 0

def isWhole (d : Decimal) : Bool := d.coeff % tenTo d.scale == 0

def toInt (d : Decimal) : Int := d.coeff.tdiv (tenTo d.scale)

def neg (d : Decimal) : Decimal :=
  ⟨-d.coeff, d.scale, by simpa using d.coeff_lt, d.scale_le⟩

def coeffAt (d : Decimal) (scale : Nat) : Int := d.coeff * tenTo (scale - d.scale)

def order (a b : Decimal) : Ordering :=
  compare (a.coeff * tenTo b.scale) (b.coeff * tenTo a.scale)

theorem ofParts?_eq_some_iff {coeff : Int} {scale : Nat} {d : Decimal} :
    ofParts? coeff scale = some d ↔ d.coeff = coeff ∧ d.scale = scale := by
  unfold ofParts?
  constructor
  · intro made
    split at made
    · cases made; exact ⟨rfl, rfl⟩
    · cases made
  · rintro ⟨rfl, rfl⟩
    rw [dif_pos ⟨d.coeff_lt, d.scale_le⟩]

theorem ofParts?_eq_none_iff {coeff : Int} {scale : Nat} :
    ofParts? coeff scale = none ↔ widthBound ≤ coeff.natAbs ∨ maxScale < scale := by
  unfold ofParts?
  split <;> simp <;> omega

def strip (least : Nat) (d : Decimal) : Decimal :=
  go d.scale d.coeff d.coeff_lt d.scale_le
where
  go : (scale : Nat) → (coeff : Int) → coeff.natAbs < widthBound → scale ≤ maxScale → Decimal
    | 0, coeff, small, _ => ⟨coeff, 0, small, by decide⟩
    | scale + 1, coeff, small, low =>
      if least ≤ scale ∧ coeff % 10 = 0 then
        go scale (coeff / 10) (by omega) (by omega)
      else ⟨coeff, scale + 1, small, low⟩

def normalize (d : Decimal) : Decimal := d.strip 0

end Decimal

end Formulary
