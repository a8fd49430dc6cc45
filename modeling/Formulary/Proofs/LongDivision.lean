import Mathlib.Algebra.Order.Ring.Pow
import Mathlib.Data.Nat.Log
import Formulary.Decimal.Remainder

/-!
Division at length, a word of the dividend at a time. It leaves the remainder unless a rest on the
way begins with the same word as the divisor.
-/
namespace Formulary.LongDivision

/-- No rest on the way begins with the same word as the divisor. The rests are those of the dividend
    without some of its last words. -/
def KeepsWords (divisor dividend : Nat) : Prop :=
  ∀ words, dividend / wordBound ^ (words + 1) % divisor / twoWordBound ≠ divisor / twoWordBound

variable {divisor dividend : Nat}

theorem bringDown_of_ne {rest word : Nat} (apart : rest / twoWordBound ≠ divisor / twoWordBound) :
    bringDown divisor rest word = (rest * wordBound + word) % divisor := if_neg apart

theorem KeepsWords.shorter (keeps : KeepsWords divisor dividend) :
    KeepsWords divisor (dividend / wordBound) := by
  intro words
  rw [Nat.div_div_eq_div_mul, ← Nat.pow_succ']
  exact keeps (words + 1)

theorem restOf_eq_mod {words : Nat} (keeps : KeepsWords divisor dividend)
    (bounded : dividend < wordBound ^ words) :
    restOf divisor dividend words = dividend % divisor := by
  -- The induction goes over the words of the dividend, the last of them first.
  induction words generalizing dividend with
  | zero =>
    obtain rfl : dividend = 0 := Nat.lt_one_iff.mp bounded
    rw [restOf, Nat.zero_mod]
  | succ words ih =>
    have fewer : dividend / wordBound < wordBound ^ words := by
      rw [Nat.div_lt_iff_lt_mul (by decide), ← Nat.pow_succ]
      exact bounded
    have rest := ih keeps.shorter fewer
    have apart : dividend / wordBound % divisor / twoWordBound ≠ divisor / twoWordBound := by
      have first := keeps 0
      rwa [Nat.zero_add, Nat.pow_one] at first
    rw [restOf, rest, bringDown_of_ne apart, Nat.add_mod, Nat.mul_mod, Nat.mod_mod, ← Nat.mul_mod,
      ← Nat.add_mod, Nat.mul_comm, Nat.div_add_mod]

theorem lt_of_wordCount (n : Nat) : n < wordBound ^ wordCount n := by
  have words : wordBound ^ wordCount n = 2 ^ (32 * wordCount n) := by
    rw [Nat.pow_mul]
  rw [words]
  refine Nat.lt_of_lt_of_le Nat.lt_log2_self (Nat.pow_le_pow_right (by decide) ?_)
  unfold wordCount
  omega

/-- A divisor of up to two words, or with no word of the dividend lost on the way. -/
def Exact (dividend divisor : Nat) : Prop :=
  divisor < twoWordBound ∨
    KeepsWords (divisor <<< (95 - divisor.log2)) (dividend <<< (95 - divisor.log2))

theorem remainder_of_exact (exact : Exact dividend divisor) :
    remainder dividend divisor = dividend % divisor := by
  unfold remainder
  split
  · rfl
  · next long =>
    have keeps := exact.resolve_left long
    simp only [restOf_eq_mod keeps (lt_of_wordCount _)]
    rw [Nat.shiftLeft_eq, Nat.shiftLeft_eq, Nat.shiftRight_eq_div_pow, Nat.mul_mod_mul_right,
      Nat.mul_div_cancel _ (Nat.two_pow_pos _)]

end Formulary.LongDivision
