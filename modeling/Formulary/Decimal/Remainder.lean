import Formulary.Decimal.Basic

/-!
Remainders. A divisor of up to two words of 32 bits leaves the exact remainder. For one of three
words the division is done at length, a word of the dividend at a time, and loses what the decimal
library loses.
-/
namespace Formulary

namespace LongDivision

abbrev wordBound : Nat := 0x100000000

abbrev twoWordBound : Nat := 0x10000000000000000

def wordCount (n : Nat) : Nat := n.log2 / 32 + 1

/-- What is left of a rest when one more word of the dividend is brought down. A rest that begins
    with the same word as the divisor asks for a digit of the quotient that no word holds: the
    first word of the rest is then lost. -/
def bringDown (divisor rest word : Nat) : Nat :=
  let longer := rest * wordBound + word
  if rest / twoWordBound = divisor / twoWordBound then longer % Decimal.widthBound % divisor
  else longer % divisor

def restOf (divisor dividend : Nat) : (words : Nat) → Nat
  | 0 => 0
  | words + 1 =>
    bringDown divisor (restOf divisor (dividend / wordBound) words) (dividend % wordBound)

/-- A divisor of three words is doubled until it fills them, and the dividend with it. -/
def remainder (dividend divisor : Nat) : Nat :=
  if divisor < twoWordBound then dividend % divisor
  else
    let doublings := 95 - divisor.log2
    let longer := dividend <<< doublings
    restOf (divisor <<< doublings) longer (wordCount longer) >>> doublings

theorem restOf_lt {divisor : Nat} (positive : 0 < divisor) (dividend words : Nat) :
    restOf divisor dividend words < divisor := by
  cases words with
  | zero => exact positive
  | succ words =>
    simp only [restOf, bringDown]
    split <;> exact Nat.mod_lt _ positive

theorem remainder_lt {divisor : Nat} (positive : 0 < divisor) (dividend : Nat) :
    remainder dividend divisor < divisor := by
  unfold remainder
  split
  · exact Nat.mod_lt _ positive
  · rw [Nat.shiftRight_eq_div_pow]
    apply Nat.div_lt_of_lt_mul
    rw [Nat.mul_comm, ← Nat.shiftLeft_eq]
    exact restOf_lt (by rw [Nat.shiftLeft_eq]; exact Nat.mul_pos positive (Nat.two_pow_pos _)) _ _

end LongDivision

namespace Decimal

theorem natAbs_sign_mul_le (i : Int) (n : Nat) : (i.sign * n).natAbs ≤ n := by
  rcases Int.lt_trichotomy i 0 with h | h | h
  · simp [Int.sign_eq_neg_one_of_neg h]
  · simp [h]
  · simp [Int.sign_eq_one_of_pos h]

theorem natAbs_coeffAt_max_lt {a b : Decimal} (nearer : (b.coeffAt (max a.scale b.scale)).natAbs ≤
    (a.coeffAt (max a.scale b.scale)).natAbs) :
    (b.coeffAt (max a.scale b.scale)).natAbs < widthBound := by
  rcases Nat.le_total a.scale b.scale with le | le
  · simpa [coeffAt, Nat.max_eq_right le, tenTo] using b.coeff_lt
  · refine Nat.lt_of_le_of_lt nearer ?_
    simpa [coeffAt, Nat.max_eq_left le, tenTo] using a.coeff_lt

/-- The remainder of truncated division, which has the sign of the dividend. A dividend nearer to
    zero than the divisor stays as it is written. None for a zero divisor. -/
def rem? (a b : Decimal) : Option Decimal :=
  let scale := max a.scale b.scale
  let dividend := (a.coeffAt scale).natAbs
  let divisor := (b.coeffAt scale).natAbs
  if isZero : divisor = 0 then none
  else if dividend = 0 ∨ dividend = divisor then some zero
  else if nearer : dividend < divisor then some a
  else
    let rest := LongDivision.remainder dividend divisor
    have narrow : (a.coeff.sign * rest).natAbs < widthBound :=
      Nat.lt_of_le_of_lt (natAbs_sign_mul_le _ _) <|
        Nat.lt_trans (LongDivision.remainder_lt (Nat.pos_of_ne_zero isZero) dividend)
          (natAbs_coeffAt_max_lt (Nat.le_of_not_lt nearer))
    some ⟨a.coeff.sign * rest, scale, narrow, Nat.max_le.mpr ⟨a.scale_le, b.scale_le⟩⟩

end Decimal

end Formulary
