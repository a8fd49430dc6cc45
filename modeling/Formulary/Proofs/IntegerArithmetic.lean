import Formulary.Proofs.ExactValues

/-!
Sums, differences, products and remainders of integers. They are computed in words, and in decimals
where a word is too narrow for them. Either way they are exact: only a product can be too wide for
both.
-/
namespace Formulary

/-- The outcome is this number, held as an integer exactly if a word can hold it. -/
def GivesInteger (outcome : Outcome Number) (i : Int) : Prop :=
  ∃ n, outcome = .ok n ∧ n.toRat = i ∧ (n.isInteger = true ↔ InWord i)

/-! Words -/

theorem InWord.natAbs_le {i : Int} (fits : InWord i) : i.natAbs ≤ 0x8000000000000000 := by
  unfold InWord at fits
  omega

theorem InWord.abs_le {i : Int} (fits : InWord i) : |(i : ℚ)| ≤ 0x8000000000000000 := by
  rw [← Int.cast_abs, Int.abs_eq_natAbs]
  exact_mod_cast fits.natAbs_le

theorem inWord_of_natAbs_lt {i : Int} (small : i.natAbs < 0x8000000000000000) : InWord i := by
  unfold InWord
  omega

theorem least_of_wide_quotient {a b : Int} (left : InWord a) (nonzero : b ≠ 0)
    (wide : ¬ InWord (a.tdiv b)) : a = -0x8000000000000000 ∧ b = -1 := by
  have least := left.natAbs_le
  by_cases negated : b = -1
  · subst negated
    rw [Int.tdiv_neg, Int.tdiv_one] at wide
    unfold InWord at left wide
    omega
  · by_cases same : b = 1
    · subst same
      rw [Int.tdiv_one] at wide
      exact absurd left wide
    · -- any other divisor halves the dividend at least
      refine absurd (inWord_of_natAbs_lt ?_) wide
      have half : (a.tdiv b).natAbs ≤ a.natAbs / 2 := by
        rw [Int.natAbs_tdiv]
        exact Nat.div_le_div_left (by omega) (by decide)
      omega

theorem inWord_fmod {b : Int} (a : Int) (right : InWord b) (nonzero : b ≠ 0) :
    InWord (a.fmod b) := by
  rcases lt_or_gt_of_ne nonzero with below | above
  · have low := Int.fmod_nonneg_of_pos (-a) (Int.neg_pos.mpr below)
    have high := Int.fmod_lt_of_pos (-a) (Int.neg_pos.mpr below)
    rw [Int.neg_fmod_neg] at low high
    unfold InWord at right ⊢
    omega
  · have low := Int.fmod_nonneg_of_pos a above
    have high := Int.fmod_lt_of_pos a above
    unfold InWord at right ⊢
    omega

theorem fdiv_eq_floor (a b : Int) : a.fdiv b = ⌊(a / b : ℚ)⌋ := by
  have positive (i : Int) (d : Nat) : i.fdiv d = ⌊(i / d : ℚ)⌋ := by
    rw [Int.fdiv_eq_ediv_of_nonneg i (Int.natCast_nonneg d), Rat.floor_intCast_div_natCast]
  obtain ⟨d, rfl | rfl⟩ := b.eq_nat_or_neg
  · exact positive a d
  · have turned := positive (-a) d
    rw [← Int.neg_fdiv_neg, neg_neg, turned]
    push_cast
    rw [neg_div, div_neg]

/-! Operations -/

namespace Number

theorem narrow_integer {i : Int} (fits : InWord i) :
    (decimal (integer i fits).toDecimal).narrow = integer i fits :=
  narrow_of_fits (toRat_integer i fits) fits

end Number

namespace Arithmetic

variable {a b i : Int} {op : Arithmetic}

theorem apply_words (noQuotient : op ≠ division) (left : InWord a) (right : InWord b) :
    op.apply (.number (.integer a left)) (.number (.integer b right)) =
      op.compute (.integer a left) (.integer b right) := by
  rw [apply_numbers noQuotient, Number.narrow_integer, Number.narrow_integer]

section

variable (known : op.onWhole? a b = some i) (left : InWord a) (right : InWord b)

include known

theorem apply_integers : op.apply (.number (.integer a left)) (.number (.integer b right)) =
    (Number.ofInt? i).elim
      ((Decimal.ofParts? i 0).elim (.error (.overflow (.arithmetic op))) (.ok <| .decimal ·))
      .ok := by
  have words : op.onIntegerNumbers? (.integer a left) (.integer b right) = Number.ofInt? i :=
    onIntegers?_whole known
  rw [apply_words (ne_division known),
    compute_eq known (Number.isWhole_integer a left) (Number.isWhole_integer b right), words]
  cases Number.ofInt? i with
  | some n => rfl
  | none => cases Decimal.ofParts? i 0 <;> rfl

theorem givesInteger_of_bounded (bounded : i.natAbs < Decimal.widthBound) :
    GivesInteger (op.apply (.number (.integer a left)) (.number (.integer b right))) i := by
  rw [apply_integers known]
  by_cases fits : InWord i
  · refine ⟨.integer i fits, ?_, Number.toRat_integer i fits, iff_of_true rfl fits⟩
    rw [Number.ofInt?, dif_pos fits, Option.elim_some]
  · have whole : (Number.decimal (.ofInt i bounded)).IsWhole i := ⟨rfl, rfl⟩
    refine ⟨.decimal (.ofInt i bounded), ?_, whole.toRat, iff_of_false Bool.false_ne_true fits⟩
    have held : Decimal.ofParts? i 0 = some (.ofInt i bounded) :=
      Decimal.ofParts?_eq_some_iff.mpr ⟨rfl, rfl⟩
    rw [Number.ofInt?, dif_neg fits, held, Option.elim_none, Option.elim_some]

theorem overflow_of_wide (wide : Decimal.widthBound ≤ i.natAbs) :
    op.apply (.number (.integer a left)) (.number (.integer b right)) =
      .error (.overflow (.arithmetic op)) := by
  have noWord : ¬ InWord i := fun fits => by
    have := fits.natAbs_le
    unfold Decimal.widthBound at wide
    omega
  have noDecimal : Decimal.ofParts? i 0 = none := Decimal.ofParts?_eq_none_iff.mpr (.inl wide)
  rw [apply_integers known, Number.ofInt?, dif_neg noWord, noDecimal, Option.elim_none,
    Option.elim_none]

end

theorem modulo_zero (left : InWord a) (right : InWord 0) :
    modulo.apply (.number (.integer a left)) (.number (.integer 0 right)) =
      .error .divisionByZero := by
  have noQuotient : modulo ≠ division := nofun
  rw [apply_words noQuotient]
  rfl

theorem modulo_integers (left : InWord a) (right : InWord b) (nonzero : b ≠ 0) :
    ∃ n, modulo.apply (.number (.integer a left)) (.number (.integer b right)) = .ok n ∧
      n.toRat = a.fmod b := by
  have noZero : (Number.integer b right).isZero = false := beq_false_of_ne nonzero
  have noQuotient : modulo ≠ division := nofun
  rw [apply_words noQuotient]
  by_cases quotient : InWord (a.tdiv b)
  · have rest := inWord_fmod a right nonzero
    have words : modulo.onIntegerNumbers? (.integer a left) (.integer b right) =
        some (.integer (a.fmod b) rest) := by
      simp only [onIntegerNumbers?, onIntegers?, if_pos quotient, Number.ofInt?, dif_pos rest]
    refine ⟨.integer (a.fmod b) rest, ?_, Number.toRat_integer _ rest⟩
    simp only [compute, noZero, words, Bool.false_eq_true, and_false, if_false]
  · -- the one remainder that is left to the decimals
    obtain ⟨rfl, rfl⟩ := least_of_wide_quotient left nonzero quotient
    have made : modulo.compute (.integer (-0x8000000000000000) (by decide))
        (.integer (-1) (by decide)) = .ok (.decimal .zero) := by decide
    have nothing : (Number.decimal .zero).IsWhole 0 := ⟨rfl, rfl⟩
    exact ⟨.decimal .zero, made, nothing.toRat⟩

/-- Sums, differences and remainders of integers are exact, and so are products, unless even a
    decimal is too narrow. -/
theorem integers_exact (a b : Int) (left : InWord a) (right : InWord b) :
    let l : Value := .number (.integer a left)
    let r : Value := .number (.integer b right)
    GivesInteger (addition.apply l r) (a + b) ∧ GivesInteger (subtraction.apply l r) (a - b) ∧
      ((a * b).natAbs < Decimal.widthBound → GivesInteger (multiplication.apply l r) (a * b)) ∧
      (Decimal.widthBound ≤ (a * b).natAbs →
        multiplication.apply l r = .error (.overflow (.arithmetic multiplication))) ∧
      (b = 0 → modulo.apply l r = .error .divisionByZero) ∧
      (b ≠ 0 → ∃ n, modulo.apply l r = .ok n ∧ n.toRat = a - b * ⌊(a / b : ℚ)⌋) := by
  have least := left.natAbs_le
  have least' := right.natAbs_le
  have sum : (a + b).natAbs < Decimal.widthBound := by unfold Decimal.widthBound; omega
  have difference : (a - b).natAbs < Decimal.widthBound := by unfold Decimal.widthBound; omega
  refine ⟨givesInteger_of_bounded rfl left right sum,
    givesInteger_of_bounded rfl left right difference, givesInteger_of_bounded rfl left right,
    overflow_of_wide rfl left right, ?_, fun nonzero => ?_⟩
  · rintro rfl
    exact modulo_zero left right
  · obtain ⟨n, made, exact⟩ := modulo_integers left right nonzero
    refine ⟨n, made, ?_⟩
    rw [exact, Int.fmod_def, fdiv_eq_floor]
    push_cast
    rfl

/-- The product of the least integer and -1 is a decimal, and their remainder is nothing. -/
theorem integers_exact_least :
    let least : Value := .number (.integer (-0x8000000000000000) (by decide))
    let minusOne : Value := .number (.integer (-1) (by decide))
    InWord (-0x8000000000000000) ∧ InWord (-1) ∧
      (∃ n, multiplication.apply least minusOne = .ok n ∧ n.toRat = 0x8000000000000000 ∧
        n.isInteger = false) ∧
      ∃ n, modulo.apply least minusOne = .ok n ∧ n.toRat = 0 := by
  intro least minusOne
  obtain ⟨_, _, product, _, _, remainder⟩ :=
    integers_exact (-0x8000000000000000) (-1) (by decide) (by decide)
  obtain ⟨p, made, exact, held⟩ := product (by decide)
  obtain ⟨r, left, rest⟩ := remainder (by decide)
  have isDecimal : p.isInteger = false := by
    rw [Bool.eq_false_iff, ne_eq, held]
    decide
  refine ⟨by decide, by decide, ⟨p, made, exact.trans (by norm_num), isDecimal⟩, r, left, ?_⟩
  rw [rest]
  norm_num

end Arithmetic

end Formulary
