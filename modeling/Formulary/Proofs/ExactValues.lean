import Mathlib.Data.Rat.Floor
import Mathlib.Tactic.FieldSimp
import Mathlib.Tactic.Linarith
import Mathlib.Tactic.Positivity
import Formulary.Proofs.Hundredths
import Formulary.Proofs.Numerals

/-!
The fraction that a number stands for. Neither the zeros at the end of a decimal nor the kind of a
number have a part in it, and numbers are ordered as their fractions are. A narrow number is an
integer whenever its fraction is one and fits. Where a quotient has to be rounded, the result is
next to it, and as near as the width of a coefficient allows.
-/
namespace Formulary

theorem tenTo_cast_pos (places : Nat) : (0 : ℚ) < tenTo places :=
  Nat.cast_pos.mpr (tenTo_pos places)

theorem tenTo_succ (places : Nat) : tenTo (places + 1) = tenTo places * 10 := Nat.pow_succ 10 places

namespace Decimal

def toRat (d : Decimal) : ℚ := d.coeff / tenTo d.scale

theorem toRat_eq_iff (a b : Decimal) :
    a.toRat = b.toRat ↔ a.coeff * tenTo b.scale = b.coeff * tenTo a.scale := by
  unfold toRat
  rw [div_eq_div_iff (tenTo_cast_pos _).ne' (tenTo_cast_pos _).ne']
  exact_mod_cast Iff.rfl

theorem toRat_lt_iff (a b : Decimal) :
    a.toRat < b.toRat ↔ a.coeff * tenTo b.scale < b.coeff * tenTo a.scale := by
  unfold toRat
  rw [div_lt_div_iff₀ (tenTo_cast_pos _) (tenTo_cast_pos _)]
  exact_mod_cast Iff.rfl

theorem toRat_eq_intCast_iff (d : Decimal) (i : Int) :
    d.toRat = i ↔ d.coeff = i * tenTo d.scale := by
  unfold toRat
  rw [div_eq_iff (tenTo_cast_pos _).ne']
  exact_mod_cast Iff.rfl

theorem toRat_strip (least : Nat) (d : Decimal) : (d.strip least).toRat = d.toRat :=
  (toRat_eq_iff _ _).mpr (strip_value least d)

theorem toRat_normalize (d : Decimal) : d.normalize.toRat = d.toRat := toRat_strip 0 d

theorem isWhole_iff (d : Decimal) : d.isWhole = true ↔ ∃ i : Int, d.toRat = i := by
  simp only [isWhole, beq_iff_eq, toRat_eq_intCast_iff, ← Int.dvd_iff_emod_eq_zero]
  exact exists_congr fun i => by rw [mul_comm]

theorem toInt_of_toRat {d : Decimal} {i : Int} (whole : d.toRat = i) : d.toInt = i := by
  have some_part : (tenTo d.scale : Int) ≠ 0 := Int.natCast_ne_zero.mpr (tenTo_pos _).ne'
  exact Int.tdiv_eq_of_eq_mul_left some_part ((toRat_eq_intCast_iff d i).mp whole)

end Decimal

namespace Number

def toRat (n : Number) : ℚ := n.toDecimal.toRat

variable {n : Number} {i : Int}

theorem order_eq_compare (a b : Number) : a.order b = compare a.toRat b.toRat := by
  have less := Decimal.toRat_lt_iff a.toDecimal b.toDecimal
  have more := Decimal.toRat_lt_iff b.toDecimal a.toDecimal
  have same := Decimal.toRat_eq_iff a.toDecimal b.toDecimal
  rcases lt_trichotomy a.toRat b.toRat with below | equal | above
  · rw [compare_lt_iff_lt.mpr below]
    exact compare_lt_iff_lt.mpr (less.mp below)
  · rw [compare_eq_iff_eq.mpr equal]
    exact compare_eq_iff_eq.mpr (same.mp equal)
  · rw [compare_gt_iff_gt.mpr above]
    exact compare_gt_iff_gt.mpr (more.mp above)

theorem IsWhole.toRat (whole : n.IsWhole i) : n.toRat = i := by
  refine (Decimal.toRat_eq_intCast_iff _ _).mpr ?_
  rw [whole.1, whole.2]
  exact (mul_one i).symm

theorem toRat_integer (i : Int) (fits : InWord i) : (integer i fits).toRat = i :=
  (isWhole_integer i fits).toRat

theorem narrow_decimal {d : Decimal} (whole : d.toRat = i) :
    (decimal d).narrow = (ofInt? i).getD (decimal d) := by
  have isWhole : d.isWhole = true := d.isWhole_iff.mpr ⟨i, whole⟩
  simp only [narrow, isWhole, if_true, Decimal.toInt_of_toRat whole]

theorem narrow_of_fits {d : Decimal} (whole : d.toRat = i) (fits : InWord i) :
    (decimal d).narrow = integer i fits := by
  rw [narrow_decimal whole, ofInt?, dif_pos fits, Option.getD_some]

theorem narrow_of_wide {d : Decimal} (whole : d.toRat = i) (wide : ¬ InWord i) :
    (decimal d).narrow = decimal d := by
  rw [narrow_decimal whole, ofInt?, dif_neg wide, Option.getD_none]

theorem narrow_of_fraction {d : Decimal} (fraction : ∀ i : Int, d.toRat ≠ i) :
    (decimal d).narrow = decimal d := by
  refine if_neg fun isWhole => ?_
  obtain ⟨i, whole⟩ := d.isWhole_iff.mp isWhole
  exact fraction i whole

theorem narrow_cases (d : Decimal) :
    (∃ i, ∃ fits : InWord i, d.toRat = i ∧ (decimal d).narrow = integer i fits) ∨
      (¬ ∃ i : Int, InWord i ∧ d.toRat = i) ∧ (decimal d).narrow = decimal d := by
  by_cases held : ∃ i : Int, InWord i ∧ d.toRat = i
  · obtain ⟨i, fits, whole⟩ := held
    exact .inl ⟨i, fits, whole, narrow_of_fits whole fits⟩
  · refine .inr ⟨held, ?_⟩
    by_cases whole : ∃ i : Int, d.toRat = i
    · obtain ⟨i, whole⟩ := whole
      exact narrow_of_wide whole fun fits => held ⟨i, fits, whole⟩
    · exact narrow_of_fraction fun i same => whole ⟨i, same⟩

theorem toRat_narrow (d : Decimal) : (decimal d).narrow.toRat = d.toRat := by
  rcases narrow_cases d with ⟨i, fits, whole, narrow⟩ | ⟨-, narrow⟩
  · rw [narrow, toRat_integer, whole]
  · rw [narrow]
    rfl

theorem isInteger_narrow (d : Decimal) :
    (decimal d).narrow.isInteger = true ↔ ∃ i : Int, InWord i ∧ d.toRat = i := by
  rcases narrow_cases d with ⟨i, fits, whole, narrow⟩ | ⟨noInteger, narrow⟩
  · rw [narrow]
    exact iff_of_true rfl ⟨i, fits, whole⟩
  · rw [narrow]
    exact iff_of_false Bool.false_ne_true noInteger

end Number

/-! Rounding -/

theorem roundHalfEven_near (num : Int) {den : Nat} (positive : 0 < den) :
    2 * num - den ≤ 2 * (roundHalfEven num den * den) ∧
      2 * (roundHalfEven num den * den) ≤ 2 * num + den := by
  have split := Int.ediv_mul_add_emod num den
  have low := Int.emod_nonneg num (b := (den : Int)) (by omega)
  have high := Int.emod_lt_of_pos num (b := (den : Int)) (by omega)
  have next : (num / den + 1) * den = num / den * den + den := by rw [add_mul, one_mul]
  simp only [roundHalfEven]
  split_ifs <;> omega

theorem abs_roundHalfEven_sub_le (num : Int) {den : Nat} (positive : 0 < den) :
    |(roundHalfEven num den : ℚ) - num / den| ≤ 1 / 2 := by
  have wide : (0 : ℚ) < den := Nat.cast_pos.mpr positive
  have exact : (num / den : ℚ) * den = num := div_mul_cancel₀ _ wide.ne'
  obtain ⟨least, most⟩ := roundHalfEven_near num positive
  have least : (2 * num - den : ℚ) ≤ 2 * (roundHalfEven num den * den) := by exact_mod_cast least
  have most : 2 * (roundHalfEven num den * den : ℚ) ≤ 2 * num + den := by exact_mod_cast most
  rw [abs_le]
  constructor
  · nlinarith
  · nlinarith

namespace Decimal

variable {num : Int} {den cap : Nat} {d : Decimal}

theorem nearest_eq_some (low : cap ≤ maxScale) (made : nearest num den cap = some d) :
    d.scale ≤ cap ∧ d.coeff = roundHalfEven (num * tenTo d.scale) den ∧
      (d.scale < cap → widthBound ≤ (roundHalfEven (num * tenTo (d.scale + 1)) den).natAbs) := by
  induction cap with
  | zero =>
    obtain ⟨coeff, scale⟩ := ofParts?_eq_some_iff.mp made
    rw [scale]
    refine ⟨Nat.le_refl 0, ?_, fun below => absurd below (Nat.lt_irrefl 0)⟩
    rw [coeff, show tenTo 0 = 1 from rfl, Nat.cast_one, mul_one]
  | succ cap ih =>
    unfold nearest at made
    cases fits : ofParts? (roundHalfEven (num * tenTo (cap + 1)) den) (cap + 1) with
    | some e =>
      rw [fits] at made
      cases made
      obtain ⟨coeff, scale⟩ := ofParts?_eq_some_iff.mp fits
      rw [scale]
      exact ⟨Nat.le_refl _, coeff, fun below => absurd below (Nat.lt_irrefl _)⟩
    | none =>
      rw [fits] at made
      obtain ⟨within, coeff, wide⟩ := ih (Nat.le_of_succ_le low) made
      refine ⟨Nat.le_succ_of_le within, coeff, fun _ => ?_⟩
      by_cases last : d.scale = cap
      · rw [last]
        exact (ofParts?_eq_none_iff.mp fits).resolve_right (Nat.not_lt.mpr low)
      · exact wide (Nat.lt_of_le_of_ne within last)

/-- The decimal is `q`, rounded to so many places: to `cap` of them, or as many as there is room
    for. -/
structure Rounded (cap : Nat) (q : ℚ) (d : Decimal) (places : Nat) : Prop where
  low : places ≤ cap
  units : ∃ count : Int, d.toRat * tenTo places = count
  near : |d.toRat - q| * tenTo places ≤ 1 / 2
  full : places < cap → (widthBound : ℚ) - 1 / 2 ≤ |q| * tenTo (places + 1)

theorem rounded_of_nearest (positive : 0 < den) (low : cap ≤ maxScale)
    (made : nearest num den cap = some d) : Rounded cap (num / den) d d.scale := by
  obtain ⟨within, coeff, wide⟩ := nearest_eq_some low made
  have near (places : Nat) : |(roundHalfEven (num * tenTo places) den : ℚ) -
      num / den * tenTo places| ≤ 1 / 2 := by
    have rounded := abs_roundHalfEven_sub_le (num * tenTo places) positive
    push_cast at rounded
    rwa [mul_div_right_comm] at rounded
  have units : d.toRat * tenTo d.scale = d.coeff := div_mul_cancel₀ _ (tenTo_cast_pos _).ne'
  refine ⟨within, ⟨d.coeff, units⟩, ?_, fun fewer => ?_⟩
  · have last := near d.scale
    rwa [← coeff, ← units, ← sub_mul, abs_mul, abs_of_pos (tenTo_cast_pos _)] at last
  · have reached := wide fewer
    have next := near (d.scale + 1)
    generalize roundHalfEven (num * tenTo (d.scale + 1)) den = rounded at next reached
    have reached : (widthBound : ℚ) ≤ |(rounded : ℚ)| := by
      rw [← Int.cast_abs, Int.abs_eq_natAbs]
      exact_mod_cast reached
    have far := abs_sub_abs_le_abs_sub (rounded : ℚ) (num / den * tenTo (d.scale + 1))
    rw [abs_mul, abs_of_pos (tenTo_cast_pos (d.scale + 1))] at far
    exact sub_le_iff_le_add'.mpr (reached.trans (sub_le_iff_le_add.mp (far.trans next)))

namespace Rounded

variable {q : ℚ} {places : Nat}

theorem strip (rounded : Rounded cap q d places) (least : Nat) :
    Rounded cap q (d.strip least) places := by
  obtain ⟨low, units, near, full⟩ := rounded
  rw [← toRat_strip least d] at units near
  exact ⟨low, units, near, full⟩

theorem exact {count : Int} (rounded : Rounded cap q d places)
    (known : q * tenTo places = count) : d.toRat = q := by
  obtain ⟨other, same⟩ := rounded.units
  have positive := tenTo_cast_pos places
  have near : |((other - count : Int) : ℚ)| ≤ 1 / 2 := by
    have near := rounded.near
    rwa [← abs_of_pos positive, ← abs_mul, sub_mul, same, known,
      ← Int.cast_sub] at near
  have equal : other = count := by
    by_contra apart
    have one : (1 : ℚ) ≤ |((other - count : Int) : ℚ)| := by
      exact_mod_cast Int.one_le_abs (sub_ne_zero.mpr apart)
    linarith
  rw [equal, ← known] at same
  exact mul_right_cancel₀ positive.ne' same

theorem exact_of_whole {i : Int} (rounded : Rounded cap q d places) (whole : q = i) :
    d.toRat = i := by
  have known : q * tenTo places = (i * tenTo places : Int) := by
    rw [whole]
    push_cast
    rfl
  rw [rounded.exact known, whole]

end Rounded

end Decimal

end Formulary
