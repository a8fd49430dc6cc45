import Formulary.Proofs.WholeNumbers

/-!
Hundredths. Every number has one, and as long as the whole number of them can be held none is
rounded.
-/
namespace Formulary

/-! Rounding -/

theorem natAbs_roundHalfEven_le (num : Int) {den : Nat} (positive : 0 < den) :
    (roundHalfEven num den).natAbs ≤ num.natAbs := by
  have split := Int.mul_ediv_add_emod num den
  have low := Int.emod_nonneg num (b := (den : Int)) (by omega)
  have floor : (num / den).natAbs ≤ num.natAbs := Int.natAbs_ediv_le_natAbs num den
  have next (rest : 0 < num % den) : (num / den + 1).natAbs ≤ num.natAbs := by
    by_cases below : num / den < 0
    · omega
    · have above : 0 ≤ num / den := by omega
      have wider : num / den ≤ den * (num / den) := by
        have := Int.mul_le_mul_of_nonneg_right (show (1 : Int) ≤ den by omega) above
        omega
      omega
  simp only [roundHalfEven]
  split
  · exact floor
  · split
    · exact next (by omega)
    · split
      · exact floor
      · exact next (by omega)

theorem roundHalfEven_exact (i : Int) {den : Nat} (positive : 0 < den) :
    roundHalfEven (i * den) den = i := by
  have some_part : (den : Int) ≠ 0 := by omega
  have floor : i * den / (den : Int) = i := Int.mul_ediv_cancel i some_part
  have rest : i * den % (den : Int) = 0 := Int.mul_emod_left i den
  unfold roundHalfEven
  simp only [floor, rest]
  exact if_pos (by omega)

namespace Decimal

theorem nearest_isSome_of_rounded {num : Int} {den : Nat}
    (fits : (roundHalfEven num den).natAbs < widthBound) (cap : Nat) :
    ∃ d, nearest num den cap = some d := by
  induction cap with
  | zero => exact ⟨_, dif_pos ⟨fits, Nat.zero_le _⟩⟩
  | succ cap ih =>
    unfold nearest
    cases ofParts? (roundHalfEven (num * tenTo (cap + 1)) den) (cap + 1) with
    | some d => exact ⟨d, rfl⟩
    | none => exact ih

theorem nearest_isSome {num : Int} {den : Nat} (positive : 0 < den)
    (fits : num.natAbs < widthBound) (cap : Nat) : ∃ d, nearest num den cap = some d :=
  nearest_isSome_of_rounded (Nat.lt_of_le_of_lt (natAbs_roundHalfEven_le num positive) fits) cap

def hundredths (i : Int) (bounded : i.natAbs < widthBound) : Decimal :=
  ⟨i, 2, bounded, hundredth.scale_le⟩

theorem nearest_hundredths {i : Int} (bounded : i.natAbs < widthBound) :
    nearest i (tenTo 2) 2 = some (hundredths i bounded) := by
  have made : ofParts? i 2 = some (hundredths i bounded) := ofParts?_eq_some_iff.mpr ⟨rfl, rfl⟩
  rw [nearest, roundHalfEven_exact i (tenTo_pos 2), made]

theorem mul?_hundredths {a b : Decimal} {i : Int} (whole : a.scale = 0) (places : b.scale = 2)
    (product : a.coeff * b.coeff = i) (some_part : i ≠ 0) (bounded : i.natAbs < widthBound) :
    a.mul? b = some (hundredths i bounded) := by
  subst product
  have noZero : ¬ (a.isZero || b.isZero) = true := by
    simpa [isZero, Int.mul_eq_zero] using some_part
  rw [mul?, if_neg noZero, whole, places]
  exact nearest_hundredths bounded

theorem mul?_hundredth_isSome (d : Decimal) : ∃ p, d.mul? .hundredth = some p := by
  unfold mul?
  split
  · exact ⟨.zero, rfl⟩
  · refine nearest_isSome (tenTo_pos _) ?_ _
    have small := d.coeff_lt
    simpa [hundredth] using small

end Decimal

/-! Numbers of hundredths -/

namespace Number

def IsHundredths (n : Number) (i : Int) : Prop :=
  n.toDecimal.coeff * 100 = i * tenTo n.toDecimal.scale

theorem isHundredths_decimal {i : Int} (bounded : i.natAbs < Decimal.widthBound) :
    (decimal (.hundredths i bounded)).IsHundredths i := rfl

theorem IsWhole.isHundredths {n : Number} {i : Int} (whole : n.IsWhole i) :
    n.IsHundredths (i * 100) := by
  obtain ⟨coeff, scale⟩ := whole
  simp [IsHundredths, coeff, scale, tenTo]

theorem IsHundredths.same {n m : Number} {i : Int} (left : n.IsHundredths i)
    (right : m.IsHundredths i) : n.order m = .eq := by
  have cross : n.toDecimal.coeff * tenTo m.toDecimal.scale * 100 =
      m.toDecimal.coeff * tenTo n.toDecimal.scale * 100 := by
    calc
      n.toDecimal.coeff * tenTo m.toDecimal.scale * 100 =
          n.toDecimal.coeff * 100 * tenTo m.toDecimal.scale := Int.mul_right_comm _ _ _
      _ = i * tenTo n.toDecimal.scale * tenTo m.toDecimal.scale := by rw [left]
      _ = i * tenTo m.toDecimal.scale * tenTo n.toDecimal.scale := Int.mul_right_comm _ _ _
      _ = m.toDecimal.coeff * 100 * tenTo n.toDecimal.scale := by rw [right]
      _ = m.toDecimal.coeff * tenTo n.toDecimal.scale * 100 := Int.mul_right_comm _ _ _
  have equal := Int.eq_of_mul_eq_mul_right (by decide) cross
  rw [order, Decimal.order, equal]
  exact Std.LawfulEqOrd.compare_eq_iff_eq.mpr rfl

theorem narrow_hundredths {i : Int} (bounded : i.natAbs < Decimal.widthBound) :
    (∃ k fits, (decimal (.hundredths i bounded)).narrow = integer k fits ∧ i = k * 100) ∨
      (decimal (.hundredths i bounded)).narrow = decimal (.hundredths i bounded) := by
  generalize made : Decimal.hundredths i bounded = d
  by_cases whole : d.isWhole = true
  · have noRest : i % (tenTo 2 : Nat) = 0 := by
      subst made
      exact eq_of_beq whole
    have divides : (100 : Int) ∣ i := Int.dvd_of_emod_eq_zero noRest
    have exact : d.toInt * 100 = i := made ▸ Int.tdiv_mul_cancel divides
    by_cases fits : InWord d.toInt
    · refine .inl ⟨d.toInt, fits, ?_, exact.symm⟩
      rw [narrow, if_pos whole, ofInt?, dif_pos fits, Option.getD_some]
    · refine .inr ?_
      rw [narrow, if_pos whole, ofInt?, dif_neg fits, Option.getD_none]
  · exact .inr (if_neg whole)

end Number

/-! Percent -/

namespace Arithmetic

theorem compute_product (l : Number) (d : Decimal) : multiplication.compute l (.decimal d) =
    match l.toDecimal.mul? d with
    | some p => .ok (.decimal p)
    | none => .error (.overflow (.arithmetic multiplication)) := by
  have noIntegers : multiplication.onIntegerNumbers? l (.decimal d) = none := by cases l <;> rfl
  have right : (Number.decimal d).toDecimal = d := rfl
  cases product : l.toDecimal.mul? d <;> simp [compute, noIntegers, right, onDecimals?, product]

end Arithmetic

namespace Value

variable {n : Number} {a b : Int}

theorem percent_eq (n : Number) : (number n).percent =
    match (Number.decimal n.toDecimal).narrow.toDecimal.mul? .hundredth with
    | some d => .ok (.decimal d)
    | none => .error (.overflow (.arithmetic .modulo)) := rfl

theorem percent_number (n : Number) : ∃ p, (number n).percent = .ok p := by
  obtain ⟨p, made⟩ := (Number.decimal n.toDecimal).narrow.toDecimal.mul?_hundredth_isSome
  exact ⟨.decimal p, by rw [percent_eq, made]⟩

theorem percent_eq_product (n : Number) : (number n).percent =
    Arithmetic.multiplication.apply (number n) (number (.decimal .hundredth)) := by
  obtain ⟨p, made⟩ := (Number.decimal n.toDecimal).narrow.toDecimal.mul?_hundredth_isSome
  have product : Arithmetic.multiplication.apply (number n) (number (.decimal .hundredth)) =
      Arithmetic.multiplication.compute (Number.decimal n.toDecimal).narrow
        (.decimal .hundredth) := rfl
  rw [product, Arithmetic.compute_product, percent_eq, made]

theorem percent_whole (whole : n.IsWhole a) (some_part : a ≠ 0) :
    (number n).percent = .ok (.decimal (.hundredths a whole.natAbs_lt)) := by
  obtain ⟨coeff, scale⟩ := whole.of_narrow
  have unit :
      (Number.decimal n.toDecimal).narrow.toDecimal.coeff * Decimal.hundredth.coeff = a := by
    rw [coeff]
    exact Int.mul_one a
  rw [percent_eq, Decimal.mul?_hundredths scale rfl unit some_part whole.natAbs_lt]

/-- Of the product of two whole numbers it makes no difference whether the second is taken as so
    many hundredths, or the hundredth is taken of all. -/
theorem product_of_hundredths (whole : n.IsWhole a) (bounded : b.natAbs < Decimal.widthBound)
    (some_part : a * b ≠ 0) (fits : (a * b).natAbs < Decimal.widthBound) :
    ∃ m, Arithmetic.multiplication.apply (number n) (number (.decimal (.hundredths b bounded))) =
      .ok m ∧ m.IsHundredths (a * b) := by
  have left := whole.of_narrow
  have product : Arithmetic.multiplication.apply (number n)
      (number (.decimal (.hundredths b bounded))) =
        Arithmetic.multiplication.compute (Number.decimal n.toDecimal).narrow
          (Number.decimal (.hundredths b bounded)).narrow := rfl
  rw [product]
  rcases Number.narrow_hundredths bounded with ⟨i, word, same, rfl⟩ | same
  · -- as an operand the second number is an integer again
    have within : (a * i).natAbs < Decimal.widthBound := by
      rw [← Int.mul_assoc, Int.natAbs_mul, show Int.natAbs 100 = 100 from rfl] at fits
      omega
    have gives : GivesWhole (Arithmetic.multiplication.compute
        (Number.decimal n.toDecimal).narrow (.integer i word)) (a * i) :=
      Arithmetic.compute_whole rfl left (Number.isWhole_integer i word)
    obtain ⟨m, made, wholeProduct⟩ := gives.1 within
    rw [same, ← Int.mul_assoc]
    exact ⟨m, made, wholeProduct.isHundredths⟩
  · obtain ⟨coeff, scale⟩ := left
    have exact : (Number.decimal n.toDecimal).narrow.toDecimal.coeff *
        (Decimal.hundredths b bounded).coeff = a * b := by rw [coeff]; rfl
    rw [same, Arithmetic.compute_product,
      Decimal.mul?_hundredths scale rfl exact some_part fits]
    exact ⟨_, rfl, Number.isHundredths_decimal fits⟩

end Value

end Formulary
