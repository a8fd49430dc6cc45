import Mathlib.Algebra.Order.Ring.Pow
import Formulary.Proofs.HeldFractions
import Formulary.Proofs.IntegerPowers

/-!
Repeated squaring where each product is rounded before it is used. The powers of decimals are
computed like this, up to a certain exponent in decimals and from there on in fixed point. Numbers
from one on lose little by that, whatever the exponent. Below one a product can lose half of
itself, but only in the last two steps.
-/
namespace Formulary

def heldDigit (hold : ℚ → Option ℚ) (product square : ℚ) (n : Nat) : Option ℚ :=
  if n % 2 = 1 then hold (product * square) else some product

/-- `product * square ^ n` for positive `n`, where `hold` says what is kept of each product. -/
def squaring (hold : ℚ → Option ℚ) (product square : ℚ) (n : Nat) : Option ℚ :=
  (heldDigit hold product square n).bind fun product =>
    if more : n / 2 = 0 then some product
    else (hold (square * square)).bind fun square => squaring hold product square (n / 2)
termination_by n
decreasing_by omega

section

variable {hold : ℚ → Option ℚ} {product square p s : ℚ} {n : Nat}

theorem squaring_last (last : n / 2 = 0) :
    squaring hold product square n = heldDigit hold product square n := by
  rw [squaring]
  cases heldDigit hold product square n with
  | none => rfl
  | some p => exact dif_pos last

theorem squaring_none (digit : heldDigit hold product square n = none) :
    squaring hold product square n = none := by
  rw [squaring, digit]
  rfl

theorem squaring_next (more : n / 2 ≠ 0) (digit : heldDigit hold product square n = some p) :
    squaring hold product square n =
      (hold (square * square)).bind fun s => squaring hold p s (n / 2) := by
  rw [squaring, digit]
  exact dif_neg more

theorem squaring_step (more : n / 2 ≠ 0) (digit : heldDigit hold product square n = some p)
    (squared : hold (square * square) = some s) :
    squaring hold product square n = squaring hold p s (n / 2) := by
  rw [squaring_next more digit, squared]
  rfl

end

/-! Powers of decimals -/

theorem Decimal.map_powFrom (product square : Decimal) (n : Nat) :
    (powFrom product square n).map toRat = squaring held? product.toRat square.toRat n := by
  induction n using Nat.strongRecOn generalizing product square with
  | ind n ih =>
    have digit : (if n % 2 = 1 then product.mul? square else some product).map toRat =
        heldDigit held? product.toRat square.toRat n := by
      unfold heldDigit
      split
      · exact mul?_held product square
      · rfl
    have squared := mul?_held square square
    rw [powFrom_eq]
    cases taken : (if n % 2 = 1 then product.mul? square else some product) with
    | none =>
      rw [taken] at digit
      exact (squaring_none digit.symm).symm
    | some p =>
      rw [taken] at digit
      rw [Option.bind_some]
      by_cases last : n / 2 = 0
      · rw [if_pos last, squaring_last last]
        exact digit
      · rw [if_neg last, squaring_next last digit.symm, ← squared]
        cases square.mul? square with
        | none => rfl
        | some s => exact ih (n / 2) (by omega) p s

namespace FixedPoint

open Decimal (widthBound)

def toRat (x : FixedPoint) : ℚ := x.units / unit

def held? (q : ℚ) : Option ℚ :=
  let units := roundHalfEven (q.num * unit) q.den
  if widthBound * unit ≤ units.natAbs then none else some (units / unit)

theorem toRat_ofInt (i : Int) : (ofInt i).toRat = i := by
  have places := (tenTo_cast_pos 80).ne'
  rw [toRat, ofInt]
  push_cast
  exact mul_div_cancel_right₀ _ places

theorem toRat_ofDecimal (d : Decimal) : (ofDecimal d).toRat = d.toRat :=
  d.coeffAt_div (d.scale_le.trans (by decide))

theorem mul_held (x y : FixedPoint) :
    held? (x.toRat * y.toRat) = if (x * y).isWide then none else some (x * y).toRat := by
  have units : roundHalfEven ((x.toRat * y.toRat).num * unit) (x.toRat * y.toRat).den =
      (x * y).units := by
    refine roundHalfEven_congr (Rat.den_pos _) (tenTo_pos 80) ?_
    have places := (tenTo_cast_pos 80).ne'
    push_cast
    rw [mul_div_right_comm, Rat.num_div_den, toRat, toRat]
    field_simp
  simp only [held?, units, isWide, decide_eq_true_eq]
  rfl

theorem map_powFrom {product : FixedPoint} (narrow : product.isWide = false)
    (square : FixedPoint) {n : Nat} :
    (powFrom product square n).map toRat = squaring held? product.toRat square.toRat n := by
  induction n using Nat.strongRecOn generalizing product square with
  | ind n ih =>
    have digit : heldDigit held? product.toRat square.toRat n =
        if (if n % 2 = 1 then product * square else product).isWide then none
        else some (if n % 2 = 1 then product * square else product).toRat := by
      unfold heldDigit
      split
      · exact mul_held product square
      · rw [narrow]
        rfl
    have squared := mul_held square square
    rw [powFrom]
    generalize (if n % 2 = 1 then product * square else product) = p at digit
    cases wide : p.isWide with
    | true =>
      rw [wide, if_pos rfl] at digit
      rw [if_pos rfl, squaring_none digit]
      rfl
    | false =>
      rw [wide, if_neg Bool.false_ne_true] at digit
      rw [if_neg Bool.false_ne_true]
      by_cases last : n / 2 = 0
      · rw [dif_pos last, squaring_last last, digit]
        rfl
      · rw [dif_neg last, squaring_next last digit, squared]
        split
        · rfl
        · exact ih (n / 2) (by omega) wide _

theorem map_toDecimal? (x : FixedPoint) :
    x.toDecimal?.map Decimal.toRat = Decimal.held? x.toRat :=
  Decimal.map_nearest (tenTo_pos 80) (.inl (Nat.le_refl _))

end FixedPoint

namespace Decimal

def heldPower? (q : ℚ) : (exponent : Nat) → Option ℚ
  | 0 => some 1
  | 1 => some q
  | 2 => held? (q * q)
  | exponent =>
    if exponent < longExponent then squaring held? 1 q exponent
    else (squaring FixedPoint.held? 1 q exponent).bind held?

theorem map_powNat? (base : Decimal) (n : Nat) :
    (base.powNat? n).map toRat = heldPower? base.toRat n := by
  have normal : toRat ∘ normalize = toRat := funext toRat_normalize
  match n with
  | 0 => exact congrArg some toRat_one
  | 1 => rfl
  | 2 => exact mul?_held base base
  | n + 3 =>
    have powered : (base.powNat? (n + 3)).map toRat =
        (if n + 3 < longExponent then (powFrom one base (n + 3)).map normalize
          else ((FixedPoint.powFrom (.ofInt 1) (.ofDecimal base) (n + 3)).bind
            FixedPoint.toDecimal?).map normalize).map toRat := rfl
    rw [powered, heldPower?]
    split
    · rw [Option.map_map, normal, map_powFrom, toRat_one]
    · have narrow : (FixedPoint.ofInt 1).isWide = false := by decide +kernel
      have fixed := FixedPoint.map_powFrom narrow (.ofDecimal base) (n := n + 3)
      rw [FixedPoint.toRat_ofInt, FixedPoint.toRat_ofDecimal, Int.cast_one] at fixed
      rw [Option.map_map, normal, ← fixed, Option.map_bind, Option.bind_map]
      exact congrArg _ (funext FixedPoint.map_toDecimal?)
    all_goals omega

end Decimal

end Formulary
