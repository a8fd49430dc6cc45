import Mathlib.Algebra.Ring.Parity
import Formulary.Proofs.IntegerArithmetic

/-!
Powers of integers whose exponents are not negative. A word is tried first, then a chain of decimal
products, and from exponent 1024 on fixed point. None of them rounds anything, and no product on
the way is wider than the power itself: only of a power that is too wide it is said that it is.
-/
namespace Formulary

open Decimal (widthBound)

/-! Powers in a word -/

theorem wide_pow {a : Int} {n : Nat} (large : 2 ≤ a.natAbs) (long : 64 ≤ n) :
    2 ^ 64 ≤ (a ^ n).natAbs := by
  rw [Int.natAbs_pow]
  calc
    2 ^ 64 ≤ 2 ^ n := Nat.pow_le_pow_right (by decide) long
    _ ≤ a.natAbs ^ n := Nat.pow_le_pow_left large n

theorem pow_of_parity {a : Int} {n m : Nat} (small : a.natAbs < 2) (left : n ≠ 0) (right : m ≠ 0)
    (parity : n % 2 = m % 2) : a ^ n = a ^ m := by
  have cases : a = 0 ∨ a = 1 ∨ a = -1 := by omega
  rcases cases with rfl | rfl | rfl
  · rw [zero_pow left, zero_pow right]
  · rw [one_pow, one_pow]
  · rw [neg_one_pow_eq_pow_mod_two, parity, ← neg_one_pow_eq_pow_mod_two]

theorem Number.integerPower?_eq (a : Int) (n : Nat) : integerPower? a n = ofInt? (a ^ n) := by
  unfold integerPower?
  split
  · rfl
  · next long =>
    by_cases large : 2 ≤ a.natAbs
    · have tooWide {m : Nat} (long : 64 ≤ m) : ¬ InWord (a ^ m) := fun fits => by
        have least := fits.natAbs_le
        have most := wide_pow large long
        omega
      rw [ofInt?, ofInt?, dif_neg (tooWide (by omega)), dif_neg]
      exact tooWide (by omega)
    · rw [Int.pow_eq, pow_of_parity (by omega) (by omega) (by omega) (by omega : _ = n % 2)]

/-! Repeated squaring -/

def takeDigit (product square : Int) (n : Nat) : Int :=
  if n % 2 = 1 then product * square else product

variable {i j : Int} {n : Nat}

theorem takeDigit_mul_pow (i j : Int) (n : Nat) :
    takeDigit i j n * (j * j) ^ (n / 2) = i * j ^ n := by
  have halves : j ^ n = j ^ (n % 2) * (j * j) ^ (n / 2) := by
    rw [← sq, ← pow_mul, ← pow_add, Nat.mod_add_div]
  unfold takeDigit
  rw [halves]
  rcases Nat.mod_two_eq_zero_or_one n with even | odd
  · rw [even, if_neg nofun, pow_zero, one_mul]
  · rw [odd, if_pos rfl, pow_one, mul_assoc]

theorem takeDigit_ne_zero (live : j ≠ 0 → i ≠ 0) (n : Nat) (next : j * j ≠ 0) :
    takeDigit i j n ≠ 0 := by
  have some_square : j ≠ 0 := left_ne_zero_of_mul next
  unfold takeDigit
  split
  · exact mul_ne_zero (live some_square) some_square
  · exact live some_square

theorem wide_of_takeDigit (narrow : i.natAbs < widthBound)
    (wide : widthBound ≤ (takeDigit i j n).natAbs) : widthBound ≤ (i * j ^ n).natAbs := by
  have some_square : j ≠ 0 := by
    rintro rfl
    unfold takeDigit at wide
    split at wide
    · simp at wide
    · exact absurd narrow (Nat.not_lt.mpr wide)
  rw [← takeDigit_mul_pow]
  exact wide.trans (natAbs_le_mul (pow_ne_zero _ (mul_ne_zero some_square some_square)))

theorem wide_of_square (live : j ≠ 0 → i ≠ 0) (more : n / 2 ≠ 0)
    (wide : widthBound ≤ (j * j).natAbs) : widthBound ≤ (i * j ^ n).natAbs := by
  have some_square : j * j ≠ 0 := by
    intro zero
    rw [zero] at wide
    exact absurd wide (by decide)
  calc
    widthBound ≤ (j * j).natAbs := wide
    _ ≤ (j * j).natAbs ^ (n / 2) := Nat.le_self_pow more _
    _ = ((j * j) ^ (n / 2)).natAbs := (Int.natAbs_pow _ _).symm
    _ ≤ ((j * j) ^ (n / 2) * takeDigit i j n).natAbs :=
      natAbs_le_mul (takeDigit_ne_zero live n some_square)
    _ = (i * j ^ n).natAbs := by rw [mul_comm, takeDigit_mul_pow]

namespace Decimal

theorem powFrom_eq (product square : Decimal) (n : Nat) : powFrom product square n =
    (if n % 2 = 1 then product.mul? square else some product).bind fun product =>
      if n / 2 = 0 then some product
      else (square.mul? square).bind fun square => powFrom product square (n / 2) := by
  rw [powFrom]
  split <;> rfl

theorem powFrom_whole {product square : Decimal} (left : product.scale = 0)
    (right : square.scale = 0) (live : square.coeff ≠ 0 → product.coeff ≠ 0) (positive : n ≠ 0) :
    powFrom product square n = ofParts? (product.coeff * square.coeff ^ n) 0 := by
  induction n using Nat.strongRecOn generalizing product square with
  | ind n ih =>
    have tooWide (wide : widthBound ≤ (product.coeff * square.coeff ^ n).natAbs) :
        none = ofParts? (product.coeff * square.coeff ^ n) 0 :=
      (ofParts?_eq_none_iff.mpr (.inl wide)).symm
    have taken : (if n % 2 = 1 then product.mul? square else some product) =
        ofParts? (takeDigit product.coeff square.coeff n) 0 := by
      unfold takeDigit
      split
      · exact mul?_whole left right
      · exact (ofParts?_eq_some_iff.mpr ⟨rfl, left⟩).symm
    rw [powFrom_eq, taken]
    cases first : ofParts? (takeDigit product.coeff square.coeff n) 0 with
    | none =>
      have wide := (ofParts?_eq_none_iff.mp first).resolve_right (Nat.not_lt_zero _)
      exact tooWide (wide_of_takeDigit product.coeff_lt wide)
    | some longer =>
      obtain ⟨coeff, scale⟩ := ofParts?_eq_some_iff.mp first
      rw [Option.bind_some]
      by_cases last : n / 2 = 0
      · rw [if_pos last, ← takeDigit_mul_pow, last, pow_zero, mul_one, first]
      · rw [if_neg last, mul?_whole right right]
        cases second : ofParts? (square.coeff * square.coeff) 0 with
        | none =>
          have wide := (ofParts?_eq_none_iff.mp second).resolve_right (Nat.not_lt_zero _)
          exact tooWide (wide_of_square live last wide)
        | some next =>
          obtain ⟨coeff', scale'⟩ := ofParts?_eq_some_iff.mp second
          rw [Option.bind_some, ← takeDigit_mul_pow, ← coeff, ← coeff']
          refine ih (n / 2) (by omega) scale scale' (fun some_square => ?_) last
          rw [coeff'] at some_square
          rw [coeff]
          exact takeDigit_ne_zero live n some_square

end Decimal

namespace FixedPoint

theorem mul_ofInt (i j : Int) : ofInt i * ofInt j = ofInt (i * j) := by
  have units : i * unit * (j * unit) = i * j * unit * unit := by ring
  have exact := roundHalfEven_exact (i * j * unit) (tenTo_pos 80)
  exact congrArg FixedPoint.mk ((congrArg (roundHalfEven · unit) units).trans exact)

theorem isWide_ofInt (i : Int) : (ofInt i).isWide = true ↔ widthBound ≤ i.natAbs := by
  have size : (ofInt i).units.natAbs = i.natAbs * unit := by
    rw [ofInt, Int.natAbs_mul, Int.natAbs_natCast]
  rw [isWide, decide_eq_true_eq, size]
  exact Nat.mul_le_mul_right_iff (tenTo_pos 80)

theorem powFrom_ofInt (live : j ≠ 0 → i ≠ 0) (narrow : i.natAbs < widthBound) (positive : n ≠ 0) :
    powFrom (ofInt i) (ofInt j) n =
      if widthBound ≤ (i * j ^ n).natAbs then none else some (ofInt (i * j ^ n)) := by
  induction n using Nat.strongRecOn generalizing i j with
  | ind n ih =>
    have taken : (if n % 2 = 1 then ofInt i * ofInt j else ofInt i) = ofInt (takeDigit i j n) := by
      unfold takeDigit
      split
      · exact mul_ofInt i j
      · rfl
    rw [powFrom, taken, mul_ofInt]
    by_cases first : widthBound ≤ (takeDigit i j n).natAbs
    · rw [if_pos ((isWide_ofInt _).mpr first), if_pos (wide_of_takeDigit narrow first)]
    · rw [if_neg (mt (isWide_ofInt _).mp first)]
      by_cases last : n / 2 = 0
      · rw [dif_pos last, ← takeDigit_mul_pow, last, pow_zero, mul_one, if_neg first]
      · rw [dif_neg last]
        by_cases second : widthBound ≤ (j * j).natAbs
        · rw [if_pos ((isWide_ofInt _).mpr second), if_pos (wide_of_square live last second)]
        · rw [if_neg (mt (isWide_ofInt _).mp second), ← takeDigit_mul_pow]
          exact ih (n / 2) (by omega) (takeDigit_ne_zero live n) (Nat.lt_of_not_le first) last

theorem toDecimal?_ofInt (narrow : i.natAbs < widthBound) :
    ∃ d, (ofInt i).toDecimal? = some d ∧ d.toRat = i := by
  have fits : (roundHalfEven (i * unit) unit).natAbs < widthBound := by
    rwa [roundHalfEven_exact i (tenTo_pos 80)]
  obtain ⟨d, made⟩ := Decimal.nearest_isSome_of_rounded fits Decimal.maxScale
  have rounded := Decimal.rounded_of_nearest (tenTo_pos 80) (Nat.le_refl _) made
  refine ⟨d, made, rounded.exact_of_whole ?_⟩
  push_cast
  exact mul_div_cancel_right₀ _ (tenTo_cast_pos 80).ne'

end FixedPoint

/-! Powers of decimals -/

namespace Decimal

/-- The whole number `i` if a decimal can hold it, and none if not. -/
structure Holds (result : Option Decimal) (i : Int) : Prop where
  narrow : i.natAbs < widthBound → ∃ d, result = some d ∧ d.toRat = i
  wide : widthBound ≤ i.natAbs → result = none

theorem holds_some {d : Decimal} (whole : d.toRat = i) (fits : i.natAbs < widthBound) :
    Holds (some d) i :=
  ⟨fun _ => ⟨d, rfl, whole⟩, fun wide => absurd fits (Nat.not_lt.mpr wide)⟩

theorem holds_whole {d : Decimal} (whole : d.scale = 0) : Holds (some d) d.coeff := by
  have number : (Number.decimal d).IsWhole d.coeff := ⟨rfl, whole⟩
  exact holds_some number.toRat d.coeff_lt

theorem holds_ofParts? (i : Int) : Holds (ofParts? i 0) i := by
  cases made : ofParts? i 0 with
  | some d =>
    obtain ⟨rfl, whole⟩ := ofParts?_eq_some_iff.mp made
    exact holds_whole whole
  | none =>
    have wide := (ofParts?_eq_none_iff.mp made).resolve_right (Nat.not_lt_zero _)
    exact ⟨fun narrow => absurd narrow (Nat.not_lt.mpr wide), fun _ => rfl⟩

theorem Holds.normalize {result : Option Decimal} (holds : Holds result i) :
    Holds (result.map Decimal.normalize) i := by
  refine ⟨fun narrow => ?_, fun wide => by rw [holds.wide wide]; rfl⟩
  obtain ⟨d, rfl, whole⟩ := holds.narrow narrow
  exact ⟨d.normalize, rfl, (toRat_normalize d).trans whole⟩

variable {base : Decimal}

theorem holds_powFrom (whole : base.scale = 0) (positive : n ≠ 0) :
    Holds (powFrom one base n) (base.coeff ^ n) := by
  have live : base.coeff ≠ 0 → one.coeff ≠ 0 := fun _ => Int.one_ne_zero
  have product : one.coeff * base.coeff ^ n = base.coeff ^ n := one_mul _
  rw [powFrom_whole rfl whole live positive, product]
  exact holds_ofParts? _

theorem holds_fixedPoint (whole : base.scale = 0) (positive : n ≠ 0) :
    Holds ((FixedPoint.powFrom (.ofInt 1) (.ofDecimal base) n).bind FixedPoint.toDecimal?)
      (base.coeff ^ n) := by
  have same : FixedPoint.ofDecimal base = .ofInt base.coeff := by
    rw [FixedPoint.ofDecimal, whole]
    rfl
  rw [same, FixedPoint.powFrom_ofInt (fun _ => Int.one_ne_zero) (by decide) positive, one_mul]
  refine ⟨fun narrow => ?_, fun wide => ?_⟩
  · rw [if_neg (Nat.not_le.mpr narrow)]
    exact FixedPoint.toDecimal?_ofInt narrow
  · rw [if_pos wide]
    rfl

/-- Whichever way a power of a whole number is computed, it is exact. -/
theorem powNat?_holds (whole : base.scale = 0) (n : Nat) :
    Holds (base.powNat? n) (base.coeff ^ n) := by
  match n with
  | 0 =>
    have unit : Holds (some one) 1 := holds_whole rfl
    rw [pow_zero]
    exact unit
  | 1 =>
    rw [pow_one]
    exact holds_whole whole
  | 2 =>
    rw [sq, powNat?, mul?_whole whole whole]
    exact holds_ofParts? _
  | n + 3 =>
    change Holds (if n + 3 < longExponent then _ else _) _
    split
    · exact (holds_powFrom whole (Nat.succ_ne_zero _)).normalize
    · exact (holds_fixedPoint whole (Nat.succ_ne_zero _)).normalize

end Decimal

/-! Powers of numbers -/

namespace Number

variable {e : Nat}

theorem wholePower?_eq (base : InWord i) (exponent : InWord e) :
    wholePower? (integer i base) (integer e exponent) =
      if e < Decimal.exponentBound then ofInt? (i ^ e) else none := by
  have bound : 0 ≤ (e : Int) ∧ (e : Int) < Decimal.exponentBound ↔ e < Decimal.exponentBound := by
    omega
  simp only [wholePower?, bound, Int.toNat_natCast, integerPower?_eq]

theorem toRat_of_wholePower? {n : Number} (base : InWord i) (exponent : InWord e)
    (made : wholePower? (integer i base) (integer e exponent) = some n) :
    InWord (i ^ e) ∧ n.toRat = (i ^ e : Int) := by
  rw [wholePower?_eq, ofInt?] at made
  split_ifs at made with short fits
  cases made
  exact ⟨fits, toRat_integer _ fits⟩

theorem decimalPower_whole (base : InWord i) (exponent : InWord e)
    (outgrown : (integer i base).toDecimal.powNat? e = none → 1 < i.natAbs) :
    decimalPower (integer i base) (integer e exponent) =
      match (integer i base).toDecimal.powNat? e with
      | some d => .ok (decimal d)
      | none => .error (.overflow (.arithmetic .exponentiation)) := by
  have forward : (integer e exponent).toDecimal.isNegative = false :=
    decide_eq_false (Int.not_lt.mpr (Int.natCast_nonneg e))
  have whole : (integer e exponent).toDecimal.isWhole = true :=
    (Decimal.isWhole_iff _).mpr ⟨e, toRat_integer e exponent⟩
  have result : (integer i base).toDecimal.pow? e = (integer i base).toDecimal.powNat? e :=
    if_neg (Int.not_lt.mpr (Int.natCast_nonneg e))
  simp only [decimalPower, forward, whole, result, Bool.and_false, Bool.not_true,
    Bool.false_eq_true, if_false]
  cases powered : (integer i base).toDecimal.powNat? e with
  | some d => rfl
  | none =>
    have large : tenTo (integer i base).toDecimal.scale < (integer i base).toDecimal.coeff.natAbs :=
      outgrown powered
    simp [large]

end Number

namespace Arithmetic

/-- A power of an integer with an exponent that is not negative is exact, unless even a decimal is
    too narrow for it. With the exponent 0 it is 1, also for the base 0. -/
theorem power_of_integers (a : Int) (e : Nat) (base : InWord a) (exponent : InWord e) :
    let outcome := exponentiation.apply (.number (.integer a base)) (.number (.integer e exponent))
    ((a ^ e).natAbs < widthBound → ∃ n, outcome = .ok n ∧ n.toRat = (a ^ e : Int)) ∧
      (widthBound ≤ (a ^ e).natAbs →
        outcome = .error (.overflow (.arithmetic exponentiation))) := by
  intro outcome
  have noQuotient : exponentiation ≠ division := nofun
  have powered : outcome = (Number.integer a base).power (.integer e exponent) :=
    apply_words noQuotient base exponent
  rw [powered, Number.power]
  cases word : Number.wholePower? (.integer a base) (.integer e exponent) with
  | some n =>
    obtain ⟨fits, exact⟩ := Number.toRat_of_wholePower? base exponent word
    refine ⟨fun _ => ⟨n, rfl, exact⟩, fun wide => absurd fits.natAbs_le ?_⟩
    unfold widthBound at wide
    omega
  | none =>
    have holds : Decimal.Holds ((Number.integer a base).toDecimal.powNat? e) (a ^ e) :=
      Decimal.powNat?_holds rfl e
    have outgrown (failed : (Number.integer a base).toDecimal.powNat? e = none) :
        1 < a.natAbs := by
      by_contra small
      have atMostOne : (a ^ e).natAbs ≤ 1 := by
        rw [Int.natAbs_pow]
        exact pow_le_one' (Nat.not_lt.mp small) e
      have fits : (a ^ e).natAbs < widthBound := atMostOne.trans_lt (by decide)
      obtain ⟨d, made, -⟩ := holds.narrow fits
      rw [failed] at made
      cases made
    rw [Number.decimalPower_whole base exponent outgrown]
    constructor
    · intro narrow
      obtain ⟨d, made, exact⟩ := holds.narrow narrow
      exact ⟨.decimal d, by rw [made], exact⟩
    · intro wide
      rw [holds.wide wide]

/-- The widest power of ten is a decimal. The next one is not. -/
theorem power_of_integers_ten : InWord 10 ∧
    (∃ n, exponentiation.apply (.number (.integer 10 (by decide)))
        (.number (.integer 28 (by decide))) = .ok n ∧ n.toRat = (10 ^ 28 : Int)) ∧
      exponentiation.apply (.number (.integer 10 (by decide)))
        (.number (.integer 29 (by decide))) = .error (.overflow (.arithmetic exponentiation)) :=
  ⟨by decide, (power_of_integers 10 28 (by decide) (by decide)).1 (by decide),
    (power_of_integers 10 29 (by decide) (by decide)).2 (by decide)⟩

end Arithmetic

end Formulary
