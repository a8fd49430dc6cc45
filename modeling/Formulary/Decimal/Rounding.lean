import Formulary.Decimal.Basic

/-!
Rounding quotients to whole numbers, and decimals to fewer places. `nearest` is the rule of all
decimal arithmetic: the exact result at the largest scale at which it fits.
-/
namespace Formulary

def roundHalfEven (num : Int) (den : Nat) : Int :=
  let floor := num / den
  let rest := num % den
  if 2 * rest < den then floor
  else if den < 2 * rest then floor + 1
  else if floor % 2 = 0 then floor
  else floor + 1

inductive Rounding where
  | halfAwayFromZero
  | ceiling
  | floor
deriving DecidableEq, Repr

namespace Rounding

def quotient (mode : Rounding) (num : Int) (den : Nat) : Int :=
  match mode with
  | halfAwayFromZero => num.sign * ((2 * num.natAbs + den) / (2 * den) : Nat)
  | ceiling => -(-num / den)
  | floor => num / den

theorem natAbs_quotient_le (mode : Rounding) (num : Int) (den : Nat) (positive : 0 < den) :
    (mode.quotient num den).natAbs ≤ num.natAbs := by
  cases mode with
  | halfAwayFromZero =>
    simp only [quotient, Int.natAbs_mul, Int.natAbs_natCast]
    by_cases h : num = 0
    · simp [h]
    · rw [Int.natAbs_sign_of_ne_zero h, Nat.one_mul]
      refine Nat.le_of_lt_succ ((Nat.div_lt_iff_lt_mul (by omega)).mpr ?_)
      have : num.natAbs.succ * (2 * 1) ≤ num.natAbs.succ * (2 * den) := by
        exact Nat.mul_le_mul_left _ (by omega)
      have expand : num.natAbs.succ * (2 * den) = 2 * (num.natAbs * den) + 2 * den := by
        rw [Nat.succ_mul]; congr 1; rw [Nat.mul_left_comm]
      have : num.natAbs * 1 ≤ num.natAbs * den := Nat.mul_le_mul_left _ positive
      omega
  | ceiling =>
    have := Int.natAbs_ediv_le_natAbs (-num) den
    simp only [quotient]; omega
  | floor => exact Int.natAbs_ediv_le_natAbs num den

end Rounding

namespace Decimal

/-- The value `num / den`, rounded half to even at the largest scale up to `cap` at which it fits.
    None when it is too wide at every scale. -/
def nearest (num : Int) (den : Nat) : (cap : Nat) → Option Decimal
  | 0 => ofParts? (roundHalfEven num den) 0
  | cap + 1 =>
    match ofParts? (roundHalfEven (num * tenTo (cap + 1)) den) (cap + 1) with
    | some d => some d
    | none => nearest num den cap

def roundTo (mode : Rounding) (places : Nat) (d : Decimal) : Decimal :=
  if fewer : places < d.scale then
    ⟨mode.quotient d.coeff (tenTo (d.scale - places)), places,
      Nat.lt_of_le_of_lt (mode.natAbs_quotient_le d.coeff _ (tenTo_pos _)) d.coeff_lt,
      Nat.le_trans (Nat.le_of_lt fewer) d.scale_le⟩
  else d

end Decimal

end Formulary
