import Formulary.Proofs.HeldPowers

/-!
Powers at the ends of the range. A power that is said to be too small is, and one that is said to be
too large is large, though with a small base it need not be too large for a decimal: the power with
the exponent turned round may be rounded to nothing, and then has no reciprocal. A power is only
rounded to nothing below the last place; that is never reported.
-/
namespace Formulary

open Decimal (widthBound maxScale powerPart)

theorem abs_zpow_of_neg {q : ℚ} {e : Int} (negative : e < 0) :
    |q ^ e| = 1 / |q| ^ e.natAbs := by
  have turned : e = -(e.natAbs : Int) := by omega
  rw [turned, zpow_neg, zpow_natCast, abs_inv, abs_pow, Int.natAbs_neg, Int.natAbs_natCast,
    one_div]

theorem abs_zpow_of_nonneg {q : ℚ} {e : Int} (positive : 0 ≤ e) : |q ^ e| = |q| ^ e.natAbs := by
  have same : e = (e.natAbs : Int) := by omega
  rw [same, zpow_natCast, abs_pow, Int.natAbs_natCast]

namespace Decimal

variable {base d r : Decimal} {n : Nat} {e : Int}

/-! Natural exponents -/

theorem heldPower?_of_powNat? (made : base.powNat? n = some d) :
    heldPower? base.toRat n = some d.toRat := by
  rw [← map_powNat?, made]
  rfl

theorem wide_of_powNat? (short : n < 2 ^ 64) (none : base.powNat? n = none) :
    1 < |base.toRat| ∧ (widthBound - 1 / 2) * powerPart ≤ |base.toRat| ^ n := by
  have held := map_powNat? base n
  rw [none] at held
  have large : 1 < |base.toRat| := by
    by_contra small
    obtain ⟨x, made, -⟩ := heldPower?_of_small (not_lt.mp small) n
    rw [made] at held
    cases held
  have size := (heldPower?_of_large large.le short).2
  rw [← held] at size
  exact ⟨large, size⟩

theorem powNat?_ne_zero (short : n < 2 ^ 64) (enough : 1 ≤ |base.toRat| ^ n * tenTo maxScale)
    (made : base.powNat? n = some d) : d.toRat ≠ 0 := by
  have held := heldPower?_of_powNat? made
  rcases le_total |base.toRat| 1 with small | large
  · obtain ⟨x, same, nonzero⟩ := heldPower?_ne_zero small (held?_toRat base) short enough
    rw [held] at same
    cases same
    exact nonzero
  · have least := (heldPower?_of_large large short).1 _ held
    exact abs_pos.mp (lt_of_lt_of_le one_pos least)

theorem powNat?_le (short : n < 2 ^ 64) (made : base.powNat? n = some d) :
    |d.toRat| * powerPart ≤ max 1 (|base.toRat| ^ n) := by
  have held := heldPower?_of_powNat? made
  rcases le_total |base.toRat| 1 with small | large
  · obtain ⟨x, same, bounded⟩ := heldPower?_of_small small n
    rw [held] at same
    cases same
    refine le_max_of_le_left (mul_le_one₀ bounded ?_ ?_) <;> norm_num [powerPart, tenTo]
  · have size := (heldPower?_of_large large short).2
    rw [held, Option.elim_some] at size
    exact le_max_of_le_right size

/-! Reciprocals -/

theorem reciprocal_isSome (nonzero : d.toRat ≠ 0) : ∃ r, one.div? d = some r := by
  have noZero : d.coeff ≠ 0 := mt d.toRat_eq_zero_iff.mpr nonzero
  refine div?_isSome noZero ?_
  have unit : one.coeff.natAbs = 1 := rfl
  rw [unit, one_mul]
  calc
    tenTo d.scale ≤ tenTo maxScale := Nat.pow_le_pow_right (by decide) d.scale_le
    _ < widthBound := by decide

theorem reciprocal_ne_zero (nonzero : d.toRat ≠ 0) (narrow : |d.toRat| < 2 * tenTo maxScale)
    (made : one.div? d = some r) : r.toRat ≠ 0 := by
  have held := div?_held (a := one) nonzero
  rw [made, toRat_one] at held
  have positive : 0 < |d.toRat| := abs_pos.mpr nonzero
  have size : |1 / d.toRat| = 1 / |d.toRat| := by rw [abs_div, abs_one]
  rcases le_total |d.toRat| 1 with small | large
  · have least : 1 ≤ |1 / d.toRat| := by
      rw [size]
      exact one_le_one_div positive small
    exact abs_pos.mp (lt_of_lt_of_le one_pos (keepsLarge.large least held.symm))
  · have most : |1 / d.toRat| ≤ 1 := by
      rw [size]
      exact (div_le_one positive).mpr large
    have half : 1 / 2 < |1 / d.toRat| * tenTo maxScale := by
      rw [size, one_div_mul_eq_div, lt_div_iff₀ positive]
      linarith
    obtain ⟨x, same, nonzero, -⟩ := held?_of_half most half
    rw [← held] at same
    cases same
    exact nonzero

/-! Whole exponents -/

theorem pow?_of_neg (negative : e < 0) :
    base.pow? e = (base.powNat? e.natAbs).bind one.div? := if_pos negative

theorem pow?_of_nonneg (positive : 0 ≤ e) : base.pow? e = base.powNat? e.natAbs :=
  if_neg (not_lt.mpr positive)

theorem pow?_ne_zero (nonzero : base.toRat ≠ 0) (short : e.natAbs < 2 ^ 64)
    (enough : 1 ≤ |base.toRat ^ e| * tenTo maxScale) (made : base.pow? e = some d) :
    d.toRat ≠ 0 := by
  rcases lt_or_ge e 0 with negative | positive
  · rw [pow?_of_neg negative] at made
    obtain ⟨power, powered, divided⟩ := Option.bind_eq_some_iff.mp made
    have positive : 0 < |base.toRat| ^ e.natAbs := pow_pos (abs_pos.mpr nonzero) _
    rw [abs_zpow_of_neg negative, one_div_mul_eq_div, one_le_div positive] at enough
    have someDivisor : power.toRat ≠ 0 := by
      intro nothing
      rw [div?_zero nothing] at divided
      cases divided
    refine reciprocal_ne_zero someDivisor ?_ divided
    have size := powNat?_le short powered
    have most : max 1 (|base.toRat| ^ e.natAbs) ≤ tenTo maxScale :=
      max_le (by norm_num [tenTo]) enough
    have bounded := size.trans most
    norm_num [powerPart, tenTo] at bounded ⊢
    linarith
  · rw [pow?_of_nonneg positive] at made
    rw [abs_zpow_of_nonneg positive] at enough
    exact powNat?_ne_zero short enough made

/-- The three ways in which there is no power: one that is too large, the reciprocal of one that is
    too large, and the reciprocal of one that was rounded to nothing. -/
theorem pow?_eq_none (nonzero : base.toRat ≠ 0) (short : e.natAbs < 2 ^ 64)
    (none : base.pow? e = none) :
    (0 ≤ e ∧ 1 < |base.toRat| ∧ (widthBound - 1 / 2) * powerPart ≤ |base.toRat ^ e|) ∨
      (e < 0 ∧ 1 < |base.toRat| ∧ |base.toRat ^ e| * tenTo maxScale < 1) ∨
        (e < 0 ∧ |base.toRat| < 1 ∧ (tenTo maxScale : ℚ) < |base.toRat ^ e|) := by
  rcases lt_or_ge e 0 with negative | positive
  · refine .inr ?_
    have positive : 0 < |base.toRat| ^ e.natAbs := pow_pos (abs_pos.mpr nonzero) _
    rw [pow?_of_neg negative] at none
    rw [abs_zpow_of_neg negative]
    cases powered : base.powNat? e.natAbs with
    | none =>
      obtain ⟨large, wide⟩ := wide_of_powNat? short powered
      refine .inl ⟨negative, large, ?_⟩
      rw [one_div_mul_eq_div, div_lt_one positive]
      norm_num [widthBound, powerPart, tenTo] at wide ⊢
      linarith
    | some power =>
      rw [powered, Option.bind_some] at none
      have nothing : power.toRat = 0 := by
        by_contra someDivisor
        obtain ⟨r, divided⟩ := reciprocal_isSome someDivisor
        rw [divided] at none
        cases none
      have lost : |base.toRat| ^ e.natAbs * tenTo maxScale < 1 := by
        by_contra enough
        exact powNat?_ne_zero short (not_lt.mp enough) powered nothing
      refine .inr ⟨negative, ?_, (lt_div_iff₀ positive).mpr ((mul_comm _ _).trans_lt lost)⟩
      by_contra large
      have least : 1 ≤ |base.toRat| ^ e.natAbs := one_le_pow₀ (not_lt.mp large)
      norm_num [tenTo] at lost
      linarith
  · rw [pow?_of_nonneg positive] at none
    rw [abs_zpow_of_nonneg positive]
    exact .inl ⟨positive, wide_of_powNat? short none⟩

theorem large_iff (d : Decimal) : tenTo d.scale < d.coeff.natAbs ↔ 1 < |d.toRat| := by
  rw [toRat, abs_div, abs_of_pos (tenTo_cast_pos _), one_lt_div (tenTo_cast_pos _),
    ← Int.cast_abs, Int.abs_eq_natAbs]
  exact_mod_cast Iff.rfl

end Decimal

namespace Number

variable {base exponent : Number} {e : Int}

def decimalPower? (base : Decimal) : Number → Option Decimal
  | integer e _ => base.pow? e
  | decimal e => base.realPow? e

/-- With a whole exponent there is a power for every base but zero. What is said of one that could
    not be computed depends on the sides of one and zero on which base and exponent are. -/
theorem decimalPower_of_whole (whole : exponent.toRat = e) :
    decimalPower base exponent =
      if base.toRat = 0 ∧ e < 0 then .error .divisionByZero
      else match decimalPower? base.toDecimal exponent with
        | some d => .ok (decimal d)
        | none =>
          if 1 < |base.toRat| ↔ e < 0 then .error (.underflow (.arithmetic .exponentiation))
          else .error (.overflow (.arithmetic .exponentiation)) := by
  have isWhole : exponent.toDecimal.isWhole = true := (Decimal.isWhole_iff _).mpr ⟨e, whole⟩
  have zero : base.toDecimal.isZero = decide (base.toRat = 0) :=
    Bool.eq_iff_iff.mpr (base.toDecimal.isZero_iff.trans (decide_eq_true_iff).symm)
  have sign : exponent.toDecimal.isNegative = decide (e < 0) := by
    rw [Bool.eq_iff_iff, Decimal.isNegative_iff, decide_eq_true_iff, ← Int.cast_lt_zero (R := ℚ),
      ← whole]
    rfl
  have large : decide (tenTo base.toDecimal.scale < base.toDecimal.coeff.natAbs) =
      decide (1 < |base.toRat|) := decide_eq_decide.mpr base.toDecimal.large_iff
  simp only [decimalPower, isWhole, zero, sign, large, Bool.not_true, Bool.and_false,
    Bool.false_eq_true, if_false, Bool.and_eq_true, decide_eq_true_eq, beq_iff_eq, decide_eq_decide]
  cases exponent <;> rfl

end Number

/-- What the outcome says of the power of a base. Nothing is the result only below the last place.
    Only there it is said to be too small, and only above the reciprocal of that to be too large;
    with a base from one on only if it is too wide for a decimal, but for what the products on the
    way have lost. -/
structure ReportsPower (outcome : Outcome Number) (base power : ℚ) : Prop where
  nonzero : ∀ v, outcome = .ok v → 1 / 10 ^ 28 ≤ |power| → v.toRat ≠ 0
  underflow : outcome = .error (.underflow (.arithmetic .exponentiation)) →
    0 < |power| ∧ |power| < 1 / 10 ^ 28
  overflow : outcome = .error (.overflow (.arithmetic .exponentiation)) →
    10 ^ 28 < |power| ∧ (1 ≤ |base| → 2 ^ 96 < |power| * (1 + 1 / 10 ^ 24))
  total : (∃ v, outcome = .ok v) ∨
    outcome = .error (.underflow (.arithmetic .exponentiation)) ∨
      outcome = .error (.overflow (.arithmetic .exponentiation))

namespace ReportsPower

variable {base power : ℚ} {n : Number}

theorem ok (nonzero : 1 / 10 ^ 28 ≤ |power| → n.toRat ≠ 0) :
    ReportsPower (.ok n) base power where
  nonzero v done enough := by
    cases done
    exact nonzero enough
  underflow failed := by cases failed
  overflow failed := by cases failed
  total := .inl ⟨n, rfl⟩

theorem tooSmall (positive : 0 < |power|) (small : |power| < 1 / 10 ^ 28) :
    ReportsPower (.error (.underflow (.arithmetic .exponentiation))) base power where
  nonzero v done := by cases done
  underflow _ := ⟨positive, small⟩
  overflow failed := by cases failed
  total := .inr (.inl rfl)

theorem tooLarge (large : 10 ^ 28 < |power|)
    (wide : 1 ≤ |base| → 2 ^ 96 < |power| * (1 + 1 / 10 ^ 24)) :
    ReportsPower (.error (.overflow (.arithmetic .exponentiation))) base power where
  nonzero v done := by cases done
  underflow failed := by cases failed
  overflow _ := ⟨large, wide⟩
  total := .inr (.inr rfl)

end ReportsPower

namespace Number

variable {base : Number} {e : Int}

theorem reportsPower_decimal (nonzero : base.toRat ≠ 0) (exponent : InWord e) :
    ReportsPower (decimalPower base (integer e exponent)) base.toRat (base.toRat ^ e) := by
  have short : e.natAbs < 2 ^ 64 := by
    have := exponent.natAbs_le
    omega
  have places : (tenTo maxScale : ℚ) = 10 ^ 28 := by norm_num [tenTo]
  have positive : 0 < |base.toRat ^ e| := abs_pos.mpr (zpow_ne_zero e nonzero)
  rw [decimalPower_of_whole (toRat_integer e exponent), if_neg fun both => nonzero both.1,
    decimalPower?]
  cases computed : base.toDecimal.pow? e with
  | some d =>
    refine .ok fun enough => Decimal.pow?_ne_zero nonzero short ?_ computed
    rw [places]
    exact (div_le_iff₀ (by norm_num)).mp enough
  | none =>
    have ways := Decimal.pow?_eq_none nonzero short computed
    rw [places] at ways
    rcases ways with ⟨forward, large, wide⟩ | ⟨negative, large, small⟩ | ⟨negative, small, wide⟩
    · have tooLarge : ¬ (1 < |base.toRat| ↔ e < 0) := fun both => (both.mp large).not_ge forward
      have wide : (widthBound - 1 / 2) * powerPart ≤ |base.toRat ^ e| := wide
      have least : (10 : ℚ) ^ 28 < (widthBound - 1 / 2) * powerPart := by
        norm_num [widthBound, powerPart, tenTo]
      have lost : (2 : ℚ) ^ 96 < (widthBound - 1 / 2) * powerPart * (1 + 1 / 10 ^ 24) := by
        norm_num [widthBound, powerPart, tenTo]
      simp only [if_neg tooLarge]
      refine .tooLarge (least.trans_le wide) fun _ => lost.trans_le ?_
      exact mul_le_mul_of_nonneg_right wide (by norm_num)
    · have under : 1 < |base.toRat| ↔ e < 0 := ⟨fun _ => negative, fun _ => large⟩
      simp only [if_pos under]
      exact .tooSmall positive ((lt_div_iff₀ (by norm_num)).mpr small)
    · have tooLarge : ¬ (1 < |base.toRat| ↔ e < 0) := fun both => (both.mpr negative).not_gt small
      simp only [if_neg tooLarge]
      exact .tooLarge wide fun large => absurd small large.not_gt

theorem reportsPower (nonzero : base.toRat ≠ 0) (exponent : InWord e) :
    ReportsPower (base.power (integer e exponent)) base.toRat (base.toRat ^ e) := by
  rw [power]
  cases word : wholePower? base (integer e exponent) with
  | none => exact reportsPower_decimal nonzero exponent
  | some n =>
    -- a power in a word is exact
    cases base with
    | decimal d => cases word
    | integer i fits =>
      have forward : 0 ≤ e := by
        by_contra negative
        rw [wholePower?, if_neg fun bounds => negative bounds.1] at word
        cases word
      obtain ⟨k, rfl⟩ := Int.eq_ofNat_of_zero_le forward
      obtain ⟨-, exact⟩ := toRat_of_wholePower? fits exponent word
      refine .ok fun _ => ?_
      rw [toRat_integer] at nonzero
      rw [exact, Int.cast_pow]
      exact pow_ne_zero k nonzero

end Number

namespace Arithmetic

/-- A power of a number other than zero with an integer for its exponent is reported as it should
    be, but that nothing stands for what is below the last place. -/
theorem power_range (a : Number) (e : Int) (exponent : InWord e) (nonzero : a.toRat ≠ 0) :
    ReportsPower (exponentiation.apply (.number a) (.number (.integer e exponent)))
      a.toRat (a.toRat ^ e) := by
  have same : (Number.decimal a.toDecimal).narrow.toRat = a.toRat :=
    Number.toRat_narrow a.toDecimal
  have noQuotient : exponentiation ≠ division := nofun
  rw [apply_numbers noQuotient, Number.narrow_integer, ← same]
  exact Number.reportsPower (same ▸ nonzero) exponent

/-- The square of the widest decimal has no reciprocal that the last place can hold, and the square
    of a small one may have none at all. -/
theorem power_range_squares :
    let widest : Number := .decimal ⟨0xffffffffffffffffffffffff, 0, by decide, by decide⟩
    let small : Number := .decimal ⟨707, 17, by decide, by decide⟩
    InWord (-2) ∧ widest.toRat ≠ 0 ∧ small.toRat ≠ 0 ∧
      |widest.toRat ^ (-2 : Int)| < 1 / 10 ^ 28 ∧ 10 ^ 28 < |small.toRat ^ (-2 : Int)| := by
  intro widest small
  have someWidest : widest.toRat ≠ 0 := by decide +kernel
  have someSmall : small.toRat ≠ 0 := by decide +kernel
  have under := (power_range widest (-2) (by decide) someWidest).underflow (by decide +kernel)
  have beyond := (power_range small (-2) (by decide) someSmall).overflow (by decide +kernel)
  exact ⟨by decide, someWidest, someSmall, under.2, beyond.1⟩

/-- A square that is too small is rounded to nothing without a word, and the reciprocal of such a
    square is said to be too large although a decimal could hold it. -/
theorem tiny_square_lost :
    let tiny : Number := .decimal ⟨1, 15, by decide, by decide⟩
    let small : Number := .decimal ⟨707, 17, by decide, by decide⟩
    (tiny.toRat ≠ 0 ∧ ∃ v, exponentiation.apply (.number tiny)
        (.number (.integer 2 (by decide))) = .ok v ∧ v.toRat = 0) ∧
      exponentiation.apply (.number small) (.number (.integer (-2) (by decide))) =
          .error (.overflow (.arithmetic exponentiation)) ∧
        |small.toRat ^ (-2 : Int)| ≤ 2 ^ 96 - 1 := by
  refine ⟨⟨by decide +kernel, .decimal ⟨0, 28, by decide, by decide⟩, by decide +kernel,
    by decide +kernel⟩, by decide +kernel, ?_⟩
  rw [abs_zpow_of_neg (by decide)]
  norm_num [Number.toRat, Number.toDecimal, Decimal.toRat, tenTo]

end Arithmetic

end Formulary
