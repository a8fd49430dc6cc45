import Formulary.Proofs.HeldFractions
import Formulary.Proofs.LongDivision

/-!
Remainders with the sign of the divisor. The remainder is what it should be if the long division
loses no word and a decimal can hold it. In any case it is on the side of the divisor, and no
farther from zero.
-/
namespace Formulary

/-! Fractions -/

/-- What is left of `l` above a multiple of `r`: between zero and `r`, and not `r` itself. -/
structure IsFloored (l r m : ℚ) : Prop where
  multiple : ∃ k : Int, l - m = k * r
  sign : m = 0 ∨ 0 < m * r
  below : |m| < |r|

variable {l r m m' : ℚ}

theorem multiple_eq_zero {k : Int} (near : |k * r| < |r|) : k * r = 0 := by
  rw [abs_mul] at near
  have positive : 0 < |r| := (mul_nonneg (abs_nonneg _) (abs_nonneg _)).trans_lt near
  have size : |(k : ℚ)| < 1 := (mul_lt_iff_lt_one_left positive).mp near
  have nothing : k = 0 := Int.abs_lt_one_iff.mp (by exact_mod_cast size)
  rw [nothing, Int.cast_zero, zero_mul]

theorem eq_zero_or_mul_pos (nonzero : r ≠ 0) (side : 0 ≤ m * r) : m = 0 ∨ 0 < m * r := by
  rcases side.eq_or_lt with nothing | positive
  · exact .inl ((mul_eq_zero.mp nothing.symm).resolve_right nonzero)
  · exact .inr positive

theorem add_of_opposite (below : |m| < |r|) (opposite : m * r < 0) :
    |m + r| < |r| ∧ 0 < (m + r) * r := by
  rcases mul_neg_iff.mp opposite with ⟨above, negative⟩ | ⟨under, positive⟩
  · rw [abs_of_pos above, abs_of_neg negative] at below
    have sum : m + r < 0 := by linarith
    refine ⟨?_, mul_pos_of_neg_of_neg sum negative⟩
    rw [abs_of_neg sum, abs_of_neg negative]
    linarith
  · rw [abs_of_neg under, abs_of_pos positive] at below
    have sum : 0 < m + r := by linarith
    refine ⟨?_, mul_pos sum positive⟩
    rw [abs_of_pos sum, abs_of_pos positive]
    linarith

namespace IsFloored

theorem unique (left : IsFloored l r m) (right : IsFloored l r m') : m = m' := by
  obtain ⟨k, multiple⟩ := left.multiple
  obtain ⟨k', multiple'⟩ := right.multiple
  have apart : m' - m = ((k - k' : Int) : ℚ) * r := by
    push_cast
    linarith
  have side {m : ℚ} (sign : m = 0 ∨ 0 < m * r) : 0 ≤ m * r := by
    rcases sign with rfl | positive
    · rw [zero_mul]
    · exact positive.le
  have near : |m' - m| < |r| := by
    have nonneg := side left.sign
    have nonneg' := side right.sign
    have below := left.below
    have below' := right.below
    rw [abs_lt] at below below' ⊢
    rcases lt_trichotomy r 0 with negative | nothing | positive
    · have := nonpos_of_mul_nonneg_left nonneg negative
      have := nonpos_of_mul_nonneg_left nonneg' negative
      rw [abs_of_neg negative] at below below' ⊢
      constructor <;> linarith
    · rw [nothing, abs_zero] at below
      linarith
    · have := nonneg_of_mul_nonneg_left nonneg positive
      have := nonneg_of_mul_nonneg_left nonneg' positive
      rw [abs_of_pos positive] at below below' ⊢
      constructor <;> linarith
  rw [apart] at near
  have same := apart.trans (multiple_eq_zero near)
  linarith

theorem floor (l : ℚ) (nonzero : r ≠ 0) : IsFloored l r (l - r * ⌊l / r⌋) := by
  have fraction : l - r * ⌊l / r⌋ = Int.fract (l / r) * r := by
    rw [Int.fract, sub_mul, div_mul_cancel₀ _ nonzero, mul_comm r]
  have low := Int.fract_nonneg (l / r)
  refine ⟨⟨⌊l / r⌋, by ring⟩, ?_, ?_⟩
  · rw [fraction, mul_assoc]
    rcases low.eq_or_lt with nothing | positive
    · exact .inl (by rw [← nothing, zero_mul])
    · exact .inr (mul_pos positive (mul_self_pos.mpr nonzero))
  · rw [fraction, abs_mul, abs_of_nonneg low]
    exact mul_lt_of_lt_one_left (abs_pos.mpr nonzero) (Int.fract_lt_one _)

theorem of_side (nonzero : r ≠ 0) (multiple : ∃ k : Int, l - m = k * r) (below : |m| < |r|)
    (side : 0 ≤ m * r) : IsFloored l r m := ⟨multiple, eq_zero_or_mul_pos nonzero side, below⟩

theorem of_opposite (multiple : ∃ k : Int, l - m = k * r) (below : |m| < |r|)
    (opposite : m * r < 0) : IsFloored l r (m + r) := by
  obtain ⟨k, multiple⟩ := multiple
  obtain ⟨nearer, side⟩ := add_of_opposite below opposite
  refine ⟨⟨k - 1, ?_⟩, .inr side, nearer⟩
  push_cast
  linarith

end IsFloored

/-! Truncated remainders -/

namespace Decimal

variable {a b c d : Decimal}

def sizeBeside (a b : Decimal) : Nat := (a.coeffAt (max a.scale b.scale)).natAbs

def restBeside (a b : Decimal) : Nat :=
  if a.sizeBeside b ≤ b.sizeBeside a then a.sizeBeside b % b.sizeBeside a
  else LongDivision.remainder (a.sizeBeside b) (b.sizeBeside a)

/-- No word is lost in the division of one decimal by another. -/
def RestExact (a b : Decimal) : Prop := a.restBeside b = a.sizeBeside b % b.sizeBeside a

instance (a b : Decimal) : Decidable (a.RestExact b) := inferInstanceAs (Decidable (_ = _))

theorem restExact_of_le (nearer : a.sizeBeside b ≤ b.sizeBeside a) : a.RestExact b := if_pos nearer

theorem restExact_of_exact (exact : LongDivision.Exact (a.sizeBeside b) (b.sizeBeside a)) :
    a.RestExact b := by
  unfold RestExact restBeside
  split
  · rfl
  · exact LongDivision.remainder_of_exact exact

theorem isUnit_sign {i : Int} (nonzero : i ≠ 0) : IsUnit i.sign := by
  refine IsUnit.of_mul_eq_one i.sign ?_
  rw [← Int.sign_mul, Int.sign_eq_one_of_pos (mul_self_pos.mpr nonzero)]

theorem coeffAt_eq (a : Decimal) (scale : Nat) :
    a.coeffAt scale = a.coeff.sign * (a.coeffAt scale).natAbs := by
  have places : ((tenTo (scale - a.scale) : Nat) : Int).sign = 1 :=
    Int.sign_eq_one_of_pos (by exact_mod_cast tenTo_pos _)
  have sign : (a.coeffAt scale).sign = a.coeff.sign := by
    rw [coeffAt, Int.sign_mul, places, mul_one]
  rw [← sign, Int.sign_mul_natAbs]

theorem toRat_left (a b : Decimal) :
    a.toRat = (a.coeff.sign * a.sizeBeside b : Int) / tenTo (max a.scale b.scale) := by
  rw [sizeBeside, ← coeffAt_eq, coeffAt_div _ (le_max_left _ _)]

theorem toRat_right (a b : Decimal) :
    b.toRat = (b.coeff.sign * b.sizeBeside a : Int) / tenTo (max a.scale b.scale) := by
  rw [toRat_left b a, max_comm]

theorem abs_right (a b : Decimal) :
    |b.toRat| = b.sizeBeside a / tenTo (max a.scale b.scale) := by
  rw [sizeBeside, ← b.coeffAt_div (le_max_left b.scale a.scale), abs_div,
    abs_of_pos (tenTo_cast_pos _), max_comm, Nat.cast_natAbs, Int.cast_abs]

theorem sizeBeside_le_iff (a b : Decimal) :
    b.sizeBeside a ≤ a.sizeBeside b ↔ |b.toRat| ≤ |a.toRat| := by
  rw [abs_right a b, abs_right b a, max_comm b.scale,
    div_le_div_iff_of_pos_right (tenTo_cast_pos _), Nat.cast_le]

theorem sizeBeside_pos (nonzero : b.toRat ≠ 0) (a : Decimal) : 0 < b.sizeBeside a := by
  have size := abs_pos.mpr nonzero
  rw [abs_right a, div_pos_iff_of_pos_right (tenTo_cast_pos _)] at size
  exact_mod_cast size

theorem restBeside_lt (nonzero : b.toRat ≠ 0) : a.restBeside b < b.sizeBeside a := by
  unfold restBeside
  split
  · exact Nat.mod_lt _ (sizeBeside_pos nonzero a)
  · exact LongDivision.remainder_lt (sizeBeside_pos nonzero a) _

theorem rem?_eq (nonzero : b.toRat ≠ 0) : ∃ c, a.rem? b = some c ∧
    c.toRat = (a.coeff.sign * a.restBeside b : Int) / tenTo (max a.scale b.scale) := by
  have positive := sizeBeside_pos nonzero a
  have right : (b.coeffAt (max a.scale b.scale)).natAbs = b.sizeBeside a := by
    rw [sizeBeside, max_comm]
  have left : (a.coeffAt (max a.scale b.scale)).natAbs = a.sizeBeside b := rfl
  unfold rem?
  simp only [left, right]
  rw [dif_neg positive.ne']
  split
  · next nothing =>
    refine ⟨zero, rfl, ?_⟩
    have rest : a.restBeside b = 0 := by
      rcases nothing with nothing | same
      · rw [restBeside, nothing, if_pos (Nat.zero_le _), Nat.zero_mod]
      · rw [restBeside, same, if_pos (Nat.le_refl _), Nat.mod_self]
    rw [toRat_zero, rest, Nat.cast_zero, mul_zero, Int.cast_zero, zero_div]
  · split
    · next nearer =>
      refine ⟨a, rfl, ?_⟩
      rw [restBeside, if_pos nearer.le, Nat.mod_eq_of_lt nearer]
      exact toRat_left a b
    · next other farther =>
      refine ⟨_, rfl, ?_⟩
      have beyond : ¬ a.sizeBeside b ≤ b.sizeBeside a := by
        rcases not_or.mp other with ⟨-, apart⟩
        omega
      rw [restBeside, if_neg beyond]
      rfl

theorem restExact_iff_dvd (nonzero : b.toRat ≠ 0) :
    a.RestExact b ↔ (b.sizeBeside a : Int) ∣ a.sizeBeside b - a.restBeside b := by
  have small := restBeside_lt (a := a) nonzero
  constructor
  · intro exact
    rw [show a.restBeside b = _ from exact, Int.natCast_mod]
    exact Int.dvd_self_sub_emod
  · intro divides
    have same : (a.sizeBeside b : Int) % b.sizeBeside a = a.restBeside b % b.sizeBeside a :=
      Int.emod_eq_emod_iff_emod_sub_eq_zero.mpr (Int.emod_eq_zero_of_dvd divides)
    have same : a.sizeBeside b % b.sizeBeside a = a.restBeside b % b.sizeBeside a := by
      exact_mod_cast same
    rw [RestExact, same, Nat.mod_eq_of_lt small]

/-- The rest is the true remainder exactly if it differs from the dividend by a multiple of the
    divisor. -/
theorem restExact_iff (nonzero : b.toRat ≠ 0)
    (rest : c.toRat = (a.coeff.sign * a.restBeside b : Int) / tenTo (max a.scale b.scale)) :
    a.RestExact b ↔ ∃ k : Int, a.toRat - c.toRat = k * b.toRat := by
  have places := (tenTo_cast_pos (max a.scale b.scale)).ne'
  have units (k : Int) : a.toRat - c.toRat = k * b.toRat ↔
      a.coeff.sign * ((a.sizeBeside b : Int) - a.restBeside b) =
        k * (b.coeff.sign * b.sizeBeside a) := by
    rw [toRat_left a b, toRat_right a b, rest, ← sub_div, ← mul_div_assoc, div_left_inj' places,
      mul_sub]
    exact_mod_cast Iff.rfl
  simp only [units, ← dvd_iff_exists_eq_mul_left]
  have divisor := isUnit_sign (mt b.toRat_eq_zero_iff.mpr nonzero)
  by_cases none : a.coeff = 0
  · have exact : a.RestExact b := by
      refine restExact_of_le ?_
      rw [sizeBeside, coeffAt, none, zero_mul]
      exact Nat.zero_le _
    rw [none, Int.sign_zero, zero_mul]
    exact iff_of_true exact (dvd_zero _)
  · rw [restExact_iff_dvd nonzero, divisor.mul_left_dvd, (isUnit_sign none).dvd_mul_left]

/-! Floored remainders -/

theorem abs_rest_lt (nonzero : b.toRat ≠ 0)
    (rest : c.toRat = (a.coeff.sign * a.restBeside b : Int) / tenTo (max a.scale b.scale)) :
    |c.toRat| < |b.toRat| := by
  have places := tenTo_cast_pos (max a.scale b.scale)
  have size := natAbs_sign_mul_le a.coeff (a.restBeside b)
  have below := restBeside_lt (a := a) nonzero
  rw [rest, abs_right a b, abs_div, abs_of_pos places, div_lt_div_iff_of_pos_right places,
    ← Int.cast_abs, Int.abs_eq_natAbs]
  exact_mod_cast size.trans_lt below

theorem mod?_of_side (nonzero : b.toRat ≠ 0) (made : a.rem? b = some c)
    (side : 0 ≤ c.toRat * b.toRat) : a.mod? b = some c := by
  have same : (!c.isZero && c.isNegative != b.isNegative) = false := by
    rcases eq_zero_or_mul_pos nonzero side with nothing | positive
    · rw [c.isZero_iff.mpr nothing]
      rfl
    · have negative : c.isNegative = true ↔ b.isNegative = true := by
        rw [isNegative_iff, isNegative_iff]
        exact ⟨fun below => neg_of_mul_pos_right positive below.le,
          fun below => neg_of_mul_pos_left positive below.le⟩
      rw [Bool.eq_iff_iff.mpr negative, bne_self_eq_false, Bool.and_false]
  rw [mod?, made, Option.bind_eq_bind, Option.bind_some, same]
  rfl

theorem mod?_of_opposite (made : a.rem? b = some c) (opposite : c.toRat * b.toRat < 0) :
    a.mod? b = c.add? b := by
  have other : (!c.isZero && c.isNegative != b.isNegative) = true := by
    have some_part : c.isZero = false :=
      Bool.eq_false_iff.mpr fun nothing => by
        rw [c.isZero_iff.mp nothing, zero_mul] at opposite
        exact opposite.false
    have apart : ¬ (c.isNegative = true ↔ b.isNegative = true) := by
      rw [isNegative_iff, isNegative_iff]
      rcases mul_neg_iff.mp opposite with ⟨above, below⟩ | ⟨below, above⟩
      · exact fun both => above.not_gt (both.mpr below)
      · exact fun both => above.not_gt (both.mp below)
    rw [some_part, Bool.not_false, Bool.true_and, bne_iff_ne]
    exact fun same => apart (by rw [same])
  rw [mod?, made, Option.bind_eq_bind, Option.bind_some, other]
  rfl

theorem mod?_isSome (nonzero : b.toRat ≠ 0) : ∃ d, a.mod? b = some d ∧
    (d.toRat = 0 ∨ 0 < d.toRat * b.toRat) ∧ |d.toRat| ≤ |b.toRat| := by
  obtain ⟨c, made, rest⟩ := rem?_eq (a := a) nonzero
  have below := abs_rest_lt nonzero rest
  rcases lt_or_ge (c.toRat * b.toRat) 0 with opposite | side
  · obtain ⟨nearer, positive⟩ := add_of_opposite below opposite
    obtain ⟨x, held⟩ := held?_isSome nearer.le
    obtain ⟨d, sum, rfl⟩ := Option.map_eq_some_iff.mp ((add?_held c b).trans held)
    refine ⟨d, (mod?_of_opposite made opposite).trans sum, ?_, held?_abs_le nearer.le held⟩
    rw [or_iff_not_imp_left]
    intro some_part
    rcases mul_pos_iff.mp positive with ⟨above, divisor⟩ | ⟨under, divisor⟩
    · exact mul_pos (lt_of_le_of_ne (held?_nonneg above.le held) (Ne.symm some_part)) divisor
    · exact mul_pos_of_neg_of_neg (lt_of_le_of_ne (held?_nonpos under.le held) some_part) divisor
  · exact ⟨c, mod?_of_side nonzero made side, eq_zero_or_mul_pos nonzero side, below.le⟩

theorem map_mod? (nonzero : b.toRat ≠ 0) (exact : a.RestExact b) :
    (a.mod? b).map toRat = held? (a.toRat - b.toRat * ⌊a.toRat / b.toRat⌋) := by
  obtain ⟨c, made, rest⟩ := rem?_eq (a := a) nonzero
  have below := abs_rest_lt nonzero rest
  have multiple := (restExact_iff nonzero rest).mp exact
  have floor := IsFloored.floor a.toRat nonzero
  rcases lt_or_ge (c.toRat * b.toRat) 0 with opposite | side
  · rw [mod?_of_opposite made opposite, add?_held,
      (IsFloored.of_opposite multiple below opposite).unique floor]
  · rw [mod?_of_side nonzero made side,
      ← (IsFloored.of_side nonzero multiple below side).unique floor, held?_toRat]
    rfl

theorem held?_of_farther (farther : b.sizeBeside a ≤ a.sizeBeside b)
    (rest : c.toRat = (a.coeff.sign * a.restBeside b : Int) / tenTo (max a.scale b.scale))
    (nearer : |c.toRat + b.toRat| ≤ |b.toRat|) :
    held? (c.toRat + b.toRat) = some (c.toRat + b.toRat) := by
  have places := tenTo_cast_pos (max a.scale b.scale)
  have narrow : b.sizeBeside a < widthBound := by
    have common := natAbs_coeffAt_max_lt (a := a) (b := b)
    rw [sizeBeside, sizeBeside, max_comm b.scale] at farther
    rw [sizeBeside, max_comm]
    exact common farther
  have sum : c.toRat + b.toRat =
      (a.coeff.sign * a.restBeside b + b.coeff.sign * b.sizeBeside a : Int) /
        tenTo (max a.scale b.scale) := by
    rw [rest, toRat_right a b, Int.cast_add, add_div]
  generalize a.coeff.sign * a.restBeside b + b.coeff.sign * b.sizeBeside a = units at sum
  have bounded : units.natAbs < widthBound := by
    rw [sum, abs_right a b, abs_div, abs_of_pos places, div_le_div_iff_of_pos_right places,
      ← Int.cast_abs, Int.abs_eq_natAbs] at nearer
    exact lt_of_le_of_lt (by exact_mod_cast nearer) narrow
  rw [sum]
  exact held?_toRat ⟨units, max a.scale b.scale, bounded, Nat.max_le.mpr ⟨a.scale_le, b.scale_le⟩⟩

theorem dividend_opposite (opposite : c.toRat * b.toRat < 0)
    (rest : c.toRat = (a.coeff.sign * a.restBeside b : Int) / tenTo (max a.scale b.scale)) :
    a.toRat * b.toRat < 0 := by
  have places := tenTo_cast_pos (max a.scale b.scale)
  have side : (a.coeff.sign : ℚ) * b.toRat < 0 := by
    have size : (0 : ℚ) ≤ a.restBeside b / tenTo (max a.scale b.scale) := by positivity
    rw [rest, Int.cast_mul, Int.cast_natCast, mul_div_assoc, mul_right_comm] at opposite
    exact neg_of_mul_neg_left opposite size
  have some_part : a.toRat ≠ 0 := fun nothing => by
    rw [a.toRat_eq_zero_iff.mp nothing, Int.sign_zero, Int.cast_zero, zero_mul] at side
    exact side.false
  have size : (0 : ℚ) < a.sizeBeside b / tenTo (max a.scale b.scale) :=
    div_pos (Nat.cast_pos.mpr (sizeBeside_pos some_part b)) places
  rw [toRat_left a b, Int.cast_mul, Int.cast_natCast, mul_div_assoc, mul_right_comm]
  exact mul_neg_of_neg_of_pos side size

/-- Only a dividend on the other side that is nearer to zero than the divisor leaves a remainder
    that may have to be rounded. -/
theorem held?_floored (nonzero : b.toRat ≠ 0) (exact : a.RestExact b)
    (room : 0 ≤ a.toRat * b.toRat ∨ |b.toRat| ≤ |a.toRat|) :
    held? (a.toRat - b.toRat * ⌊a.toRat / b.toRat⌋) =
      some (a.toRat - b.toRat * ⌊a.toRat / b.toRat⌋) := by
  obtain ⟨c, -, rest⟩ := rem?_eq (a := a) nonzero
  have below := abs_rest_lt nonzero rest
  have multiple := (restExact_iff nonzero rest).mp exact
  have floor := IsFloored.floor a.toRat nonzero
  rcases lt_or_ge (c.toRat * b.toRat) 0 with opposite | side
  · have farther := room.resolve_left (dividend_opposite opposite rest).not_ge
    rw [← (IsFloored.of_opposite multiple below opposite).unique floor]
    exact held?_of_farther ((sizeBeside_le_iff a b).mpr farther) rest
      (add_of_opposite below opposite).1.le
  · rw [← (IsFloored.of_side nonzero multiple below side).unique floor, held?_toRat]

/-- The result is the floored remainder exactly if no word is lost and a decimal can hold it. -/
theorem mod?_isFloored_iff {d : Decimal} (nonzero : b.toRat ≠ 0) (made : a.mod? b = some d) :
    IsFloored a.toRat b.toRat d.toRat ↔
      a.RestExact b ∧ ∃ e : Decimal, IsFloored a.toRat b.toRat e.toRat := by
  constructor
  · intro floored
    refine ⟨?_, d, floored⟩
    rcases le_or_gt (a.sizeBeside b) (b.sizeBeside a) with nearer | farther
    · exact restExact_of_le nearer
    obtain ⟨c, computed, rest⟩ := rem?_eq (a := a) nonzero
    obtain ⟨k, multiple⟩ := floored.multiple
    refine (restExact_iff nonzero rest).mpr ?_
    rcases lt_or_ge (c.toRat * b.toRat) 0 with opposite | side
    · -- there was room for the sum, so the rounding cannot have made up for a lost word
      have sum := add?_held c b
      rw [← mod?_of_opposite computed opposite, made, held?_of_farther farther.le rest
        (add_of_opposite (abs_rest_lt nonzero rest) opposite).1.le] at sum
      have same : d.toRat = c.toRat + b.toRat := Option.some_inj.mp sum
      refine ⟨k + 1, ?_⟩
      push_cast
      linarith
    · rw [mod?_of_side nonzero computed side] at made
      cases made
      exact ⟨k, multiple⟩
  · rintro ⟨exact, e, floored⟩
    have held := map_mod? nonzero exact
    rw [made, ← floored.unique (.floor a.toRat nonzero), held?_toRat] at held
    rwa [show d.toRat = e.toRat from Option.some_inj.mp held]

end Decimal

namespace Number

/-- The decimal that a number is as an operand: one without places if it is whole and fits. -/
def operand (n : Number) : Decimal := (decimal n.toDecimal).narrow.toDecimal

theorem toRat_operand (n : Number) : n.operand.toRat = n.toRat := toRat_narrow n.toDecimal

theorem restExact_integers {a b : Int} (left : InWord a) (right : InWord b) :
    (integer a left).toDecimal.RestExact (integer b right).toDecimal := by
  refine Decimal.restExact_of_exact (.inl ?_)
  have size : (integer b right).toDecimal.sizeBeside (integer a left).toDecimal = b.natAbs :=
    congrArg Int.natAbs (mul_one b)
  rw [size]
  exact lt_of_le_of_lt right.natAbs_le (by decide)

end Number

namespace Arithmetic

theorem integers_of_words {op : Arithmetic} {l r n : Number}
    (words : op.onIntegerNumbers? l r = some n) : ∃ a left b right,
      l = .integer a left ∧ r = .integer b right ∧ op.onIntegers? a b = some n := by
  cases l with
  | decimal d => cases words
  | integer a left =>
    cases r with
    | decimal d => cases words
    | integer b right => exact ⟨a, left, b, right, rfl, rfl, words⟩

theorem compute_modulo (l r : Number) (nonzero : r.toRat ≠ 0) :
    ∃ m d, modulo.compute l r = .ok m ∧ l.toDecimal.mod? r.toDecimal = some d ∧
      m.toRat = d.toRat := by
  obtain ⟨d, made, -⟩ := Decimal.mod?_isSome (a := l.toDecimal) nonzero
  have noZero : r.isZero = false := Bool.eq_false_iff.mpr (mt r.toDecimal.isZero_iff.mp nonzero)
  cases words : modulo.onIntegerNumbers? l r with
  | none =>
    have decimals : modulo.onDecimals? l.toDecimal r.toDecimal = some d := made
    refine ⟨.decimal d, d, ?_, made, rfl⟩
    simp only [compute, noZero, words, decimals, Bool.false_eq_true, and_false, if_false]
  | some n =>
    refine ⟨n, d, ?_, made, ?_⟩
    · simp only [compute, noZero, words, Bool.false_eq_true, and_false, if_false]
    · obtain ⟨a, left, b, right, rfl, rfl, computed⟩ := integers_of_words words
      rw [Number.toRat_integer, Int.cast_ne_zero] at nonzero
      have rest := inWord_fmod a right nonzero
      have whole : n.toRat = a.fmod b := by
        simp only [onIntegers?, Number.ofInt?, dif_pos rest] at computed
        split at computed
        · cases computed
          exact Number.toRat_integer _ rest
        · cases computed
      have floored : (a - b * ⌊(a / b : ℚ)⌋ : ℚ) = (Number.integer (a.fmod b) rest).toRat := by
        rw [Number.toRat_integer, Int.fmod_def, fdiv_eq_floor]
        push_cast
        rfl
      have someDivisor : (Number.integer b right).toDecimal.toRat ≠ 0 := by
        rw [show (Number.integer b right).toDecimal.toRat = b from Number.toRat_integer b right]
        exact Int.cast_ne_zero.mpr nonzero
      have held := Decimal.map_mod? someDivisor (Number.restExact_integers left right)
      rw [made, show (Number.integer a left).toDecimal.toRat = a from Number.toRat_integer a left,
        show (Number.integer b right).toDecimal.toRat = b from Number.toRat_integer b right,
        floored] at held
      have held := held.trans (Decimal.held?_toRat _)
      rw [whole, Option.some_inj.mp held]
      exact (Number.toRat_integer _ rest).symm

theorem apply_modulo_zero (l : Number) {r : Number} (zero : r.toRat = 0) :
    modulo.apply (.number l) (.number r) = .error .divisionByZero := by
  have noQuotient : modulo ≠ division := nofun
  have narrow : (Number.decimal r.toDecimal).narrow.isZero = true :=
    (Decimal.isZero_iff _).mpr ((Number.toRat_narrow _).trans zero)
  rw [apply_numbers noQuotient]
  exact if_pos ⟨rfl, narrow⟩

theorem apply_modulo (l r : Number) (nonzero : r.toRat ≠ 0) :
    ∃ m d, modulo.apply (.number l) (.number r) = .ok m ∧ l.operand.mod? r.operand = some d ∧
      m.toRat = d.toRat := by
  have noQuotient : modulo ≠ division := nofun
  rw [apply_numbers noQuotient]
  exact compute_modulo _ _ ((Number.toRat_narrow r.toDecimal).symm ▸ nonzero)

/-- The remainder of numbers: it is on the side of the divisor and no farther from zero. It is the
    floored one exactly if the division loses no word and a decimal can hold the result. -/
theorem modulo_floored (l r : Number) (nonzero : r.toRat ≠ 0) :
    ∃ m, modulo.apply (.number l) (.number r) = .ok m ∧
      (m.toRat = 0 ∨ 0 < m.toRat * r.toRat) ∧ |m.toRat| ≤ |r.toRat| ∧
      (IsFloored l.toRat r.toRat m.toRat ↔
        l.operand.RestExact r.operand ∧ ∃ d : Decimal, IsFloored l.toRat r.toRat d.toRat) ∧
      (LongDivision.Exact (l.operand.sizeBeside r.operand) (r.operand.sizeBeside l.operand) →
        0 ≤ l.toRat * r.toRat ∨ |r.toRat| ≤ |l.toRat| → IsFloored l.toRat r.toRat m.toRat) := by
  have someOperand : r.operand.toRat ≠ 0 := r.toRat_operand.symm ▸ nonzero
  obtain ⟨m, d, applied, made, same⟩ := apply_modulo l r nonzero
  obtain ⟨d', made', side, bounded⟩ := Decimal.mod?_isSome (a := l.operand) someOperand
  obtain rfl : d = d' := Option.some_inj.mp (made.symm.trans made')
  have floored := Decimal.mod?_isFloored_iff someOperand made
  rw [l.toRat_operand, r.toRat_operand] at floored
  rw [r.toRat_operand] at side bounded
  refine ⟨m, applied, same ▸ side, same ▸ bounded, same ▸ floored, fun exact room => ?_⟩
  have exact := Decimal.restExact_of_exact exact
  rw [← l.toRat_operand, ← r.toRat_operand] at room
  have held := Decimal.map_mod? someOperand exact
  rw [made, Decimal.held?_floored someOperand exact room] at held
  rw [same, Option.some_inj.mp held, l.toRat_operand, r.toRat_operand]
  exact .floor l.toRat nonzero

/-- With a divisor of two words, the remainder of opposite numbers is the floored one. -/
theorem modulo_floored_negative :
    let l : Number := .decimal ⟨-75, 1, by decide, by decide⟩
    let r : Number := .integer 2 (by decide)
    r.toRat ≠ 0 ∧ (0 ≤ l.toRat * r.toRat ∨ |r.toRat| ≤ |l.toRat|) ∧
      ∃ m, modulo.apply (.number l) (.number r) = .ok m ∧ m.toRat = 1 / 2 := by
  intro l r
  have nonzero : r.toRat ≠ 0 := by decide +kernel
  have room : |r.toRat| ≤ |l.toRat| := by decide +kernel
  obtain ⟨m, made, -, -, -, floored⟩ := modulo_floored l r nonzero
  refine ⟨nonzero, .inr room, m, made, ?_⟩
  have known : IsFloored l.toRat r.toRat (1 / 2) :=
    ⟨⟨-4, by decide +kernel⟩, .inr (by decide +kernel), by decide +kernel⟩
  exact (floored (.inl (by decide +kernel)) (.inr room)).unique known

/-- With zeros behind its last digit, a divisor takes a third word, and one is lost in the division.
    And a remainder may be rounded to the divisor itself. -/
theorem modulo_not_floored :
    let most : Number := .integer 9223372036854775806 (by decide)
    let long : Number := .decimal ⟨50000000000000000000000, 26, by decide, by decide⟩
    let least : Number := .decimal ⟨1, 28, by decide, by decide⟩
    let eight : Number := .integer (-8) (by decide)
    (long.toRat ≠ 0 ∧ ∃ m, modulo.apply (.number most) (.number long) = .ok m ∧
        ¬ ∃ k : Int, most.toRat - m.toRat = k * long.toRat) ∧
      eight.toRat ≠ 0 ∧ ∃ m, modulo.apply (.number least) (.number eight) = .ok m ∧
        ¬ |m.toRat| < |eight.toRat| := by
  intro most long least eight
  have noMultiple (m : ℚ) (side : 0 < m * long.toRat) (below : |m| < |long.toRat|) :
      ¬ ∃ k : Int, most.toRat - m = k * long.toRat := by
    intro multiple
    have floored : IsFloored most.toRat long.toRat 0 :=
      ⟨⟨18446744073709551612000, by decide +kernel⟩, .inl rfl, by decide +kernel⟩
    have nothing := floored.unique ⟨multiple, .inr side, below⟩
    rw [← nothing, zero_mul] at side
    exact side.false
  refine ⟨⟨by decide +kernel, .decimal ⟨42314096482655081070592, 26, by decide, by decide⟩,
    by decide +kernel, noMultiple _ (by decide +kernel) (by decide +kernel)⟩, by decide +kernel,
    .decimal ⟨-8000000000000000000000000000, 27, by decide, by decide⟩,
    by decide +kernel, by decide +kernel⟩

end Arithmetic

end Formulary
