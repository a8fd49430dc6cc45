import Formulary.Proofs.IntegerArithmetic

/-!
Quotients of integers. A quotient that does not come out even is rounded to as many places as there
is room for, and that is always enough to keep it apart from the whole numbers: so it is an integer
exactly if the division leaves no remainder.
-/
namespace Formulary

namespace Decimal

variable {a b d : Decimal}

theorem quotient_eq (noZero : b.coeff ≠ 0) :
    ((b.coeff.sign * a.coeff * tenTo b.scale : Int) : ℚ) / (b.coeff.natAbs * tenTo a.scale : Nat) =
      a.toRat / b.toRat := by
  have left := (tenTo_cast_pos a.scale).ne'
  have right := (tenTo_cast_pos b.scale).ne'
  have some_part : (b.coeff : ℚ) ≠ 0 := Int.cast_ne_zero.mpr noZero
  unfold toRat
  rcases lt_or_gt_of_ne noZero with below | above
  · have size : (b.coeff.natAbs : ℚ) = -b.coeff := by
      rw [Nat.cast_natAbs, abs_of_neg below, Int.cast_neg]
    rw [Int.sign_eq_neg_one_of_neg below]
    push_cast
    rw [size]
    field_simp
  · have size : (b.coeff.natAbs : ℚ) = b.coeff := by
      rw [Nat.cast_natAbs, abs_of_pos above]
    rw [Int.sign_eq_one_of_pos above]
    push_cast
    rw [size]
    field_simp

theorem div?_rounded (noZero : b.coeff ≠ 0) (made : a.div? b = some d) :
    ∃ places, Rounded maxScale (a.toRat / b.toRat) d places := by
  have someDivisor : ¬ b.isZero = true := by simpa [isZero] using noZero
  rw [div?, if_neg someDivisor] at made
  split at made
  · next nothing =>
    have none : a.coeff = 0 := by simpa [isZero] using nothing
    cases made
    refine ⟨maxScale, Nat.le_refl _, ⟨0, ?_⟩, ?_, fun fewer => absurd fewer (Nat.lt_irrefl _)⟩
    · simp [toRat, zero, ofInt]
    · simp [toRat, zero, ofInt, none]
  · obtain ⟨q, quotient, rfl⟩ := Option.map_eq_some_iff.mp made
    have positive : 0 < b.coeff.natAbs * tenTo a.scale :=
      Nat.mul_pos (Int.natAbs_pos.mpr noZero) (tenTo_pos _)
    have rounded := rounded_of_nearest positive (Nat.le_refl _) quotient
    rw [quotient_eq noZero] at rounded
    exact ⟨q.scale, rounded.strip _⟩

theorem div?_isSome (noZero : b.coeff ≠ 0) (narrow : a.coeff.natAbs * tenTo b.scale < widthBound) :
    ∃ d, a.div? b = some d := by
  have someDivisor : ¬ b.isZero = true := by simpa [isZero] using noZero
  rw [div?, if_neg someDivisor]
  split
  · exact ⟨zero, rfl⟩
  · have fits : (b.coeff.sign * a.coeff * tenTo b.scale).natAbs < widthBound := by
      rwa [Int.natAbs_mul, Int.natAbs_mul, Int.natAbs_sign_of_ne_zero noZero, Nat.one_mul,
        Int.natAbs_natCast]
    have positive : 0 < b.coeff.natAbs * tenTo a.scale :=
      Nat.mul_pos (Int.natAbs_pos.mpr noZero) (tenTo_pos _)
    obtain ⟨q, made⟩ := nearest_isSome positive fits maxScale
    exact ⟨q.strip (a.scale - b.scale), by rw [made]; rfl⟩

theorem distance_from_whole {a b i : Int} (nonzero : b ≠ 0) (apart : a ≠ i * b) :
    1 ≤ |(i - a / b : ℚ)| * |(b : ℚ)| := by
  have some_part : (b : ℚ) ≠ 0 := Int.cast_ne_zero.mpr nonzero
  have whole : (i - a / b : ℚ) * b = ((i * b - a : Int) : ℚ) := by
    push_cast
    rw [sub_mul, div_mul_cancel₀ _ some_part]
  rw [← abs_mul, whole]
  exact_mod_cast Int.one_le_abs (sub_ne_zero.mpr apart.symm)

/-- There is room for so many places of a quotient of words that no rounding makes it whole. -/
theorem Rounded.whole_of_words {a b i : Int} {places : Nat} (left : InWord a) (right : InWord b)
    (nonzero : b ≠ 0) (rounded : Rounded maxScale (a / b) d places) (whole : d.toRat = i) :
    a = i * b := by
  by_contra apart
  have size : (0 : ℚ) < |(b : ℚ)| := abs_pos.mpr (Int.cast_ne_zero.mpr nonzero)
  have near := rounded.near
  rw [whole] at near
  have few : 2 * (tenTo places : ℚ) ≤ |(b : ℚ)| := by
    calc
      2 * (tenTo places : ℚ) ≤ 2 * tenTo places * (|(i - a / b : ℚ)| * |(b : ℚ)|) :=
        le_mul_of_one_le_right (mul_nonneg zero_le_two (tenTo_cast_pos _).le)
          (distance_from_whole nonzero apart)
      _ = 2 * (|(i - a / b : ℚ)| * tenTo places) * |(b : ℚ)| := by ring
      _ ≤ 1 * |(b : ℚ)| := mul_le_mul_of_nonneg_right (by linarith) size.le
      _ = |(b : ℚ)| := one_mul _
  by_cases all : places = maxScale
  · -- 28 places are more than a divisor of one word can ask for
    have least := right.abs_le
    rw [all] at few
    norm_num [tenTo] at few
    linarith
  · -- fewer are left only by a quotient that is wider than words make it
    have full := rounded.full (Nat.lt_of_le_of_ne rounded.low all)
    have wide : |(a / b : ℚ)| * tenTo (places + 1) ≤ 5 * |(a : ℚ)| := by
      calc
        |(a / b : ℚ)| * tenTo (places + 1) = |(a : ℚ)| / |(b : ℚ)| * (5 * (2 * tenTo places)) := by
          rw [abs_div, tenTo_succ]
          push_cast
          ring
        _ ≤ |(a : ℚ)| / |(b : ℚ)| * (5 * |(b : ℚ)|) := by gcongr
        _ = 5 * |(a : ℚ)| := by field_simp
    have least := left.abs_le
    norm_num [widthBound] at full
    linarith

end Decimal

namespace Arithmetic

variable {a b : Int}

theorem apply_quotient {l r : Number} {d : Decimal} (noZero : r.isZero = false)
    (made : (Number.decimal l.toDecimal).narrow.toDecimal.div? r.toDecimal = some d) :
    division.apply (.number l) (.number r) = .ok (Number.decimal d).narrow := by
  have divisor : (Number.decimal r.toDecimal).isZero = false := noZero
  have below : (Value.number r).coerce (.arithmetic division) false =
      .ok (.decimal r.toDecimal) := rfl
  have above : (Value.number l).coerce (.arithmetic division) true =
      .ok (Number.decimal l.toDecimal).narrow := rfl
  have quotient : (Number.decimal l.toDecimal).narrow.toDecimal.div?
      (Number.decimal r.toDecimal).toDecimal = some d := made
  simp only [apply, divide, below, above, bind, Except.bind, divisor, quotient,
    Bool.false_eq_true, if_false]

theorem quotient_of_integers (left : InWord a) (right : InWord b) (nonzero : b ≠ 0) :
    ∃ d places, division.apply (.number (.integer a left)) (.number (.integer b right)) =
      .ok (Number.decimal d).narrow ∧ Decimal.Rounded Decimal.maxScale (a / b) d places := by
  have narrow : a.natAbs * tenTo 0 < Decimal.widthBound := by
    have least := left.natAbs_le
    rw [show tenTo 0 = 1 from rfl]
    unfold Decimal.widthBound
    omega
  have someDivisor : (Number.integer b right).toDecimal.coeff ≠ 0 := nonzero
  have dividend : (Number.integer a left).toDecimal.coeff.natAbs *
      tenTo (Number.integer b right).toDecimal.scale < Decimal.widthBound := narrow
  obtain ⟨d, made⟩ := Decimal.div?_isSome someDivisor dividend
  obtain ⟨places, rounded⟩ := Decimal.div?_rounded someDivisor made
  have numerator : (Number.integer a left).toDecimal.toRat = a := Number.toRat_integer a left
  have denominator : (Number.integer b right).toDecimal.toRat = b := Number.toRat_integer b right
  rw [numerator, denominator] at rounded
  have noZero : (Number.integer b right).isZero = false := beq_false_of_ne nonzero
  refine ⟨d, places, apply_quotient noZero ?_, rounded⟩
  rw [Number.narrow_integer]
  exact made

/-- The quotient of two integers is an integer exactly if the division leaves no remainder. It is
    then the exact quotient, and held as an integer if a word can hold it. -/
theorem quotient_whole_iff (a b : Int) (left : InWord a) (right : InWord b) (nonzero : b ≠ 0) :
    ∃ n, division.apply (.number (.integer a left)) (.number (.integer b right)) = .ok n ∧
      ((∃ i : Int, n.toRat = i) ↔ b ∣ a) ∧ (b ∣ a → n.toRat = a / b) ∧
      ∀ fits : InWord (a / b), b ∣ a → n = .integer (a / b) fits := by
  obtain ⟨d, places, divided, rounded⟩ := quotient_of_integers left right nonzero
  have even (divides : b ∣ a) : ((a / b : Int) : ℚ) = a / b :=
    Int.cast_div divides (Int.cast_ne_zero.mpr nonzero)
  have exact (divides : b ∣ a) : d.toRat = (a / b : Int) :=
    rounded.exact_of_whole (even divides).symm
  refine ⟨_, divided, ⟨?_, fun divides => ?_⟩, fun divides => ?_, fun fits divides => ?_⟩
  · rintro ⟨i, whole⟩
    rw [Number.toRat_narrow] at whole
    exact ⟨i, (rounded.whole_of_words left right nonzero whole).trans (mul_comm i b)⟩
  · exact ⟨a / b, by rw [Number.toRat_narrow, exact divides]⟩
  · rw [Number.toRat_narrow, exact divides, even divides]
  · exact Number.narrow_of_fits (exact divides) fits

/-- The least integer over -1 comes out even, though in no word, and over 3 it does not. -/
theorem quotient_whole_iff_least :
    let least : Value := .number (.integer (-0x8000000000000000) (by decide))
    let minusOne : Value := .number (.integer (-1) (by decide))
    let three : Value := .number (.integer 3 (by decide))
    InWord (-0x8000000000000000) ∧ (InWord (-1) ∧ (-1 : Int) ≠ 0) ∧ (InWord 3 ∧ (3 : Int) ≠ 0) ∧
      (∃ n, division.apply least minusOne = .ok n ∧ n.toRat = 0x8000000000000000) ∧
      ∃ n, division.apply least three = .ok n ∧ ∀ i : Int, n.toRat ≠ i := by
  intro least minusOne three
  obtain ⟨n, even, _, exact, _⟩ :=
    quotient_whole_iff (-0x8000000000000000) (-1) (by decide) (by decide) (by decide)
  obtain ⟨m, uneven, whole, _⟩ :=
    quotient_whole_iff (-0x8000000000000000) 3 (by decide) (by decide) (by decide)
  refine ⟨by decide, by decide, by decide, ⟨n, even, ?_⟩, m, uneven, fun i same => ?_⟩
  · rw [exact (by decide)]
    norm_num
  · exact absurd (whole.mp ⟨i, same⟩) (by decide)

end Arithmetic

end Formulary
