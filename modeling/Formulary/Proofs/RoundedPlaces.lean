import Formulary.Function.Rounding
import Formulary.Proofs.HeldFractions
import Formulary.Proofs.IntegerPowers

/-!
Rounding to so many places. On the right of the point the result is on the side that is asked for,
and next to the number. On the left the number is first divided by a power of ten, and the quotient
is itself rounded: that shows where it is rounded onto a boundary that it was not on.
-/
namespace Formulary

namespace Rounding

/-! Next to a number -/

/-- The result is less than one unit away, on the side that the mode asks for. -/
def Near (mode : Rounding) (unit x r : ℚ) : Prop :=
  match mode with
  | ceiling => x ≤ r ∧ r < x + unit
  | floor => x - unit < r ∧ r ≤ x
  | halfAwayFromZero => |r - x| ≤ unit / 2 ∧ (|r - x| = unit / 2 → |x| < |r|)

/-- The result is a multiple of the unit, next to the number. -/
structure Rounds (mode : Rounding) (unit x r : ℚ) : Prop where
  multiple : ∃ k : Int, r = k * unit
  near : mode.Near unit x r

variable {mode : Rounding} {unit x r q : ℚ}

theorem near_self (positive : 0 < unit) : mode.Near unit x x := by
  cases mode with
  | halfAwayFromZero =>
    rw [Near, sub_self, abs_zero]
    exact ⟨by linarith, fun tie => by linarith⟩
  | ceiling => exact ⟨le_refl x, by linarith⟩
  | floor => exact ⟨by linarith, le_refl x⟩

theorem near_mul (positive : 0 < unit) :
    mode.Near unit (x * unit) (r * unit) ↔ mode.Near 1 x r := by
  have scaled : (r * unit - x * unit) = (r - x) * unit := by ring
  cases mode with
  | halfAwayFromZero =>
    have half : unit / 2 = 1 / 2 * unit := by ring
    rw [Near, Near, scaled, abs_mul, abs_mul, abs_mul, abs_of_pos positive, half,
      mul_le_mul_iff_left₀ positive, mul_left_inj' positive.ne', mul_lt_mul_iff_left₀ positive]
  | ceiling =>
    have next : x * unit + unit = (x + 1) * unit := by ring
    rw [Near, Near, next, mul_le_mul_iff_left₀ positive, mul_lt_mul_iff_left₀ positive]
  | floor =>
    have next : x * unit - unit = (x - 1) * unit := by ring
    rw [Near, Near, next, mul_le_mul_iff_left₀ positive, mul_lt_mul_iff_left₀ positive]

def mirror : Rounding → Rounding
  | halfAwayFromZero => halfAwayFromZero
  | ceiling => floor
  | floor => ceiling

theorem near_neg (mode : Rounding) : mode.mirror.Near unit (-x) (-r) ↔ mode.Near unit x r := by
  cases mode with
  | halfAwayFromZero =>
    have turned : |(-r) - (-x)| = |r - x| := by
      rw [← abs_neg]
      congr 1
      ring
    rw [mirror, Near, Near, turned, abs_neg, abs_neg]
  | ceiling | floor =>
    exact ⟨fun ⟨low, high⟩ => ⟨by linarith, by linarith⟩,
      fun ⟨low, high⟩ => ⟨by linarith, by linarith⟩⟩

theorem near_half (n : Nat) {den : Nat} (positive : 0 < den) :
    halfAwayFromZero.Near 1 (n / den : ℚ) ((2 * n + den) / (2 * den) : Nat) := by
  have wide : (0 : ℚ) < den := Nat.cast_pos.mpr positive
  have floor : (((2 * n + den) / (2 * den) : Nat) : ℚ) = (⌊(n / den + 1 / 2 : ℚ)⌋ : Int) := by
    have cast : ((2 * n + den : Nat) / (2 * den : Nat) : ℚ) = n / den + 1 / 2 := by
      push_cast
      field_simp
    rw [← cast, Rat.floor_natCast_div_natCast]
    norm_cast
  have low := Int.floor_le (n / den + 1 / 2 : ℚ)
  have high := Int.lt_floor_add_one (n / den + 1 / 2 : ℚ)
  have nonneg : (0 : ℚ) ≤ n / den := by positivity
  rw [floor]
  refine ⟨abs_le.mpr ⟨by linarith, by linarith⟩, fun tie => ?_⟩
  have above : (⌊(n / den + 1 / 2 : ℚ)⌋ : ℚ) = n / den + 1 / 2 := by
    rcases abs_cases ((⌊(n / den + 1 / 2 : ℚ)⌋ : ℚ) - n / den) with ⟨same, -⟩ | ⟨same, -⟩ <;>
      linarith
  rw [above, abs_of_nonneg nonneg, abs_of_nonneg (by linarith)]
  linarith

theorem near_quotient (mode : Rounding) (num : Int) {den : Nat} (positive : 0 < den) :
    mode.Near 1 (num / den) (mode.quotient num den) := by
  cases mode with
  | halfAwayFromZero =>
    rcases lt_trichotomy num 0 with negative | rfl | above
    · have size : (num.natAbs : ℚ) = -num := by
        rw [Nat.cast_natAbs, abs_of_neg negative, Int.cast_neg]
      rw [quotient, Int.sign_eq_neg_one_of_neg negative, neg_one_mul, Int.cast_neg,
        Int.cast_natCast, ← near_neg, neg_neg, ← neg_div, ← size]
      exact near_half num.natAbs positive
    · rw [quotient, Int.sign_zero, zero_mul, Int.cast_zero, zero_div]
      exact near_self one_pos
    · have size : (num.natAbs : ℚ) = num := by
        rw [Nat.cast_natAbs, abs_of_pos above]
      rw [quotient, Int.sign_eq_one_of_pos above, one_mul, Int.cast_natCast, ← size]
      exact near_half num.natAbs positive
  | ceiling =>
    have floor : (-num / den : Int) = ⌊((-num : Int) / den : ℚ)⌋ :=
      (Rat.floor_intCast_div_natCast _ _).symm
    have low := Int.floor_le ((-num : Int) / den : ℚ)
    have high := Int.lt_floor_add_one ((-num : Int) / den : ℚ)
    rw [Int.cast_neg, neg_div] at low high
    rw [quotient, floor, Near]
    push_cast
    rw [neg_div]
    exact ⟨by linarith, by linarith⟩
  | floor =>
    have floor : num / den = ⌊(num / den : ℚ)⌋ := (Rat.floor_intCast_div_natCast _ _).symm
    have low := Int.floor_le (num / den : ℚ)
    have high := Int.lt_floor_add_one (num / den : ℚ)
    rw [quotient, floor, Near]
    exact ⟨by linarith, low⟩

/-! Rounding twice -/

/-- No whole number and no half between two of them lies between `q` and `x`. -/
def KeepsHalves (q x : ℚ) : Prop := ∀ i : Int, (2 * q ≤ i → 2 * x ≤ i) ∧ (i ≤ 2 * q → i ≤ 2 * x)

theorem KeepsHalves.neg (keeps : KeepsHalves q x) : KeepsHalves (-q) (-x) := by
  intro i
  obtain ⟨below, above⟩ := keeps (-i)
  push_cast at below above
  exact ⟨fun le => by linarith [above (by linarith)], fun le => by linarith [below (by linarith)]⟩

/-- The first rounding went onto a boundary between two results, from the side it belongs to. -/
def Oversteps (mode : Rounding) (q x : ℚ) : Prop :=
  match mode with
  | ceiling => x < q ∧ ∃ i : Int, x = i
  | floor => q < x ∧ ∃ i : Int, x = i
  | halfAwayFromZero => |q| < |x| ∧ ∃ i : Int, x = i + 1 / 2

theorem oversteps_neg (mode : Rounding) :
    mode.mirror.Oversteps (-q) (-x) ↔ mode.Oversteps q x := by
  have whole {x : ℚ} : (∃ i : Int, -x = i) ↔ ∃ i : Int, x = i :=
    ⟨fun ⟨i, same⟩ => ⟨-i, by push_cast; linarith⟩, fun ⟨i, same⟩ => ⟨-i, by push_cast; linarith⟩⟩
  have half {x : ℚ} : (∃ i : Int, -x = i + 1 / 2) ↔ ∃ i : Int, x = i + 1 / 2 :=
    ⟨fun ⟨i, same⟩ => ⟨-i - 1, by push_cast; linarith⟩,
      fun ⟨i, same⟩ => ⟨-i - 1, by push_cast; linarith⟩⟩
  cases mode with
  | halfAwayFromZero => exact and_congr (by rw [abs_neg, abs_neg]) half
  | ceiling => exact and_congr neg_lt_neg_iff whole
  | floor => exact and_congr neg_lt_neg_iff whole

theorem not_oversteps_self : ¬ mode.Oversteps q q := by
  cases mode <;> exact fun steps => lt_irrefl _ steps.1

variable {m : Int}

theorem near_ceiling_iff (keeps : KeepsHalves q x) (near : ceiling.Near 1 x m) :
    ceiling.Near 1 q m ↔ ¬ ceiling.Oversteps q x := by
  obtain ⟨low, high⟩ := near
  constructor
  · rintro ⟨above, -⟩ ⟨below, i, rfl⟩
    have same : m = i := by
      have le : i ≤ m := by exact_mod_cast low
      have lt : m < i + 1 := by exact_mod_cast high
      omega
    rw [same] at above
    exact below.not_ge above
  · intro within
    obtain ⟨-, back⟩ := keeps (2 * m)
    obtain ⟨on, -⟩ := keeps (2 * (m - 1))
    push_cast at back on
    refine ⟨?_, ?_⟩
    · by_contra beyond
      have same : x = m := le_antisymm low (by linarith [back (by linarith)])
      exact within ⟨by linarith, m, same⟩
    · by_contra far
      linarith [on (by linarith)]

theorem near_floor_iff (keeps : KeepsHalves q x) (near : floor.Near 1 x m) :
    floor.Near 1 q m ↔ ¬ floor.Oversteps q x := by
  have turned : ceiling.Near 1 (-x) ((-m : Int) : ℚ) := by
    rw [Int.cast_neg]
    exact (near_neg floor).mpr near
  have mirrored := near_ceiling_iff keeps.neg turned
  rw [Int.cast_neg] at mirrored
  exact (near_neg floor).symm.trans (mirrored.trans (not_congr (oversteps_neg floor)))

theorem half_away {i : Int} (near : halfAwayFromZero.Near 1 (i + 1 / 2) m) :
    (m = i ∧ (i : ℚ) ≤ -1) ∨ (m = i + 1 ∧ 0 ≤ (i : ℚ)) := by
  obtain ⟨close, away⟩ := near
  obtain ⟨least, most⟩ := abs_le.mp close
  have low : i ≤ m := by
    have le : (i : ℚ) ≤ m := by linarith
    exact_mod_cast le
  have high : m ≤ i + 1 := by
    have le : (m : ℚ) ≤ i + 1 := by linarith
    exact_mod_cast le
  have side : (i : ℚ) ≤ -1 ∨ 0 ≤ (i : ℚ) := by
    rcases lt_or_ge i 0 with negative | nonneg
    · exact .inl (by exact_mod_cast Int.le_sub_one_of_lt negative)
    · exact .inr (by exact_mod_cast nonneg)
  rcases low.eq_or_lt with rfl | above
  · have farther := away (by rw [sub_add_cancel_left, abs_neg, abs_of_pos one_half_pos])
    refine .inl ⟨rfl, side.resolve_right fun nonneg => ?_⟩
    rw [abs_of_nonneg (by linarith), abs_of_nonneg (by linarith)] at farther
    linarith
  · obtain rfl : m = i + 1 := by omega
    push_cast at away
    have tie : |(i + 1 - (i + 1 / 2) : ℚ)| = 1 / 2 := by
      rw [add_sub_add_left_eq_sub]
      norm_num
    have farther := away tie
    refine .inr ⟨rfl, side.resolve_left fun negative => ?_⟩
    rw [abs_of_nonpos (by linarith), abs_of_nonpos (by linarith)] at farther
    linarith

theorem oversteps_of_above (keeps : KeepsHalves q x) (near : halfAwayFromZero.Near 1 x m)
    (far : 1 / 2 < q - m) : halfAwayFromZero.Oversteps q x := by
  obtain ⟨-, on⟩ := keeps (2 * m + 1)
  obtain ⟨-, side⟩ := keeps 0
  push_cast at on side
  have low := on (by linarith)
  have high := (abs_le.mp near.1).1
  obtain rfl : x = m + 1 / 2 := by linarith
  rcases half_away near with ⟨-, whole⟩ | ⟨wrong, -⟩
  · have negative : q < 0 := by
      by_contra nonneg
      linarith [side (by linarith)]
    refine ⟨?_, m, rfl⟩
    rw [abs_of_neg negative, abs_of_nonpos (by linarith)]
    linarith
  · omega

theorem near_half_iff (keeps : KeepsHalves q x) (near : halfAwayFromZero.Near 1 x m) :
    halfAwayFromZero.Near 1 q m ↔ ¬ halfAwayFromZero.Oversteps q x := by
  constructor
  · rintro ⟨close, -⟩ ⟨nearer, i, rfl⟩
    obtain ⟨back, forth⟩ := abs_le.mp close
    rcases half_away near with ⟨rfl, negative⟩ | ⟨rfl, nonneg⟩
    · rw [abs_of_nonpos (by linarith : (m : ℚ) + 1 / 2 ≤ 0)] at nearer
      linarith [neg_abs_le q]
    · push_cast at back forth
      rw [abs_of_nonneg (by linarith : (0 : ℚ) ≤ i + 1 / 2)] at nearer
      linarith [le_abs_self q]
  · intro within
    have close : |(m : ℚ) - q| ≤ 1 / 2 := by
      rw [abs_le]
      constructor
      · by_contra far
        exact within (oversteps_of_above keeps near (by linarith))
      · by_contra far
        refine within ((oversteps_neg halfAwayFromZero).mp ?_)
        have turned : halfAwayFromZero.Near 1 (-x) ((-m : Int) : ℚ) := by
          rw [Int.cast_neg]
          exact (near_neg halfAwayFromZero).mpr near
        refine oversteps_of_above keeps.neg turned ?_
        push_cast
        linarith
    refine ⟨close, fun tie => ?_⟩
    -- a number on the half is not changed
    have same : x = q := by
      rcases abs_cases ((m : ℚ) - q) with ⟨side, -⟩ | ⟨side, -⟩
      · obtain ⟨below, above⟩ := keeps (2 * m - 1)
        push_cast at below above
        linarith [below (by linarith), above (by linarith)]
      · obtain ⟨below, above⟩ := keeps (2 * m + 1)
        push_cast at below above
        linarith [below (by linarith), above (by linarith)]
    rw [← same] at tie ⊢
    exact near.2 tie

/-- Rounding twice is like rounding once unless the first rounding steps onto a boundary. -/
theorem near_iff (keeps : KeepsHalves q x) (near : mode.Near 1 x m) :
    mode.Near 1 q m ↔ ¬ mode.Oversteps q x := by
  cases mode with
  | halfAwayFromZero => exact near_half_iff keeps near
  | ceiling => exact near_ceiling_iff keeps near
  | floor => exact near_floor_iff keeps near

end Rounding

namespace Decimal

variable {mode : Rounding} {d : Decimal} {places : Nat} {q x : ℚ}

/-! On the right of the point -/

theorem roundTo_of_le (low : d.scale ≤ places) : d.roundTo mode places = d :=
  dif_neg (Nat.not_lt.mpr low)

theorem roundTo_min (mode : Rounding) (places : Nat) (d : Decimal) :
    d.roundTo mode (min places maxScale) = d.roundTo mode places := by
  rcases le_total places maxScale with low | high
  · rw [min_eq_left low]
  · rw [min_eq_right high, roundTo_of_le d.scale_le, roundTo_of_le (d.scale_le.trans high)]

theorem rounds_roundTo (mode : Rounding) (places : Nat) (d : Decimal) :
    mode.Rounds (1 / tenTo places) d.toRat (d.roundTo mode places).toRat := by
  have unit : (0 : ℚ) < 1 / tenTo places := one_div_pos.mpr (tenTo_cast_pos _)
  rcases lt_or_ge places d.scale with fewer | enough
  · have rounded : (d.roundTo mode places).toRat =
        mode.quotient d.coeff (tenTo (d.scale - places)) * (1 / tenTo places) := by
      rw [roundTo, dif_pos fewer, toRat, mul_one_div]
    have split : tenTo d.scale = tenTo (d.scale - places) * tenTo places := by
      rw [tenTo, tenTo, tenTo, Nat.pow_eq, Nat.pow_eq, Nat.pow_eq, ← pow_add,
        Nat.sub_add_cancel fewer.le]
    have number : d.toRat = d.coeff / tenTo (d.scale - places) * (1 / tenTo places) := by
      rw [toRat, split, Nat.cast_mul, mul_one_div, div_div]
    rw [rounded, number]
    exact ⟨⟨_, rfl⟩, (Rounding.near_mul unit).mpr (mode.near_quotient d.coeff (tenTo_pos _))⟩
  · rw [roundTo_of_le enough]
    refine ⟨⟨d.coeffAt places, ?_⟩, Rounding.near_self unit⟩
    rw [mul_one_div, d.coeffAt_div enough]

/-! On its left -/

theorem held?_of_whole {i : Int} (held : held? (i : ℚ) = some x) : x = i := by
  obtain ⟨d, rfl, rounded⟩ := rounded_of_held? held
  exact rounded.exact_of_whole rfl

theorem keepsHalves_of_held? (room : |q| * 10 + 1 ≤ widthBound) (held : held? q = some x) :
    Rounding.KeepsHalves q x := by
  obtain ⟨d, rfl, half, full⟩ := halfEven_of_held? held
  have place : d.scale ≠ 0 := by
    intro none
    rw [none] at full
    have wide := full (by decide)
    rw [show tenTo (0 + 1) = 10 from rfl] at wide
    have contrary : (widthBound : ℚ) - 1 / 2 + 1 ≤ widthBound :=
      (add_le_add_left wide 1).trans (by exact_mod_cast room)
    norm_num [widthBound] at contrary
  obtain ⟨fewer, scale⟩ := Nat.exists_eq_succ_of_ne_zero place
  have places := tenTo_cast_pos d.scale
  intro i
  have units : ((i * (5 * tenTo fewer) : Int) : ℚ) = i / 2 * tenTo d.scale := by
    rw [scale, tenTo_succ]
    push_cast
    ring
  have value : d.toRat * tenTo d.scale = d.coeff := div_mul_cancel₀ _ places.ne'
  have bound : IsHalfEven (i / 2 * tenTo d.scale) (i * (5 * tenTo fewer)) := units ▸ .intCast _
  constructor
  · intro below
    have order := half.mono bound (mul_le_mul_of_nonneg_right (by linarith) places.le)
    have order : d.toRat * tenTo d.scale ≤ i / 2 * tenTo d.scale := by
      rw [value, ← units]
      exact_mod_cast order
    linarith [le_of_mul_le_mul_right order places]
  · intro above
    have order := bound.mono half (mul_le_mul_of_nonneg_right (by linarith) places.le)
    have order : i / 2 * tenTo d.scale ≤ d.toRat * tenTo d.scale := by
      rw [value, ← units]
      exact_mod_cast order
    linarith [le_of_mul_le_mul_right order places]

theorem step_holds (places : Nat) : Holds (ten.powNat? places) (tenTo places) := by
  have holds : Holds (ten.powNat? places) (ten.coeff ^ places) := powNat?_holds rfl places
  have power : ten.coeff ^ places = (tenTo places : Int) := by
    rw [tenTo, Nat.pow_eq, Nat.cast_pow]
    rfl
  rwa [power] at holds

theorem roundLeft?_of_wide (wide : maxScale < places) : d.roundLeft? mode places = none := by
  have step : ten.powNat? places = none := by
    refine (step_holds places).wide ?_
    rw [Int.natAbs_natCast]
    calc
      widthBound ≤ tenTo (maxScale + 1) := by decide
      _ ≤ tenTo places := Nat.pow_le_pow_right (by decide) wide
  rw [roundLeft?, step]
  rfl

theorem map_roundLeft? (mode : Rounding) (low : places ≤ maxScale) (d : Decimal) :
    ∃ x, ∃ m : Int, held? (d.toRat / tenTo places) = some x ∧ mode.Near 1 x m ∧
      (d.roundLeft? mode places).map toRat = held? (m * tenTo places : Int) := by
  have narrow : tenTo places < widthBound :=
    lt_of_le_of_lt (Nat.pow_le_pow_right (by decide) low) (by decide : tenTo maxScale < widthBound)
  obtain ⟨step, made, power⟩ := (step_holds places).narrow (by rwa [Int.natAbs_natCast])
  rw [Int.cast_natCast] at power
  have unit := tenTo_cast_pos places
  have nonzero : step.toRat ≠ 0 := by
    rw [power]
    exact unit.ne'
  have divided := div?_held (a := d) nonzero
  have within : |d.toRat / step.toRat| ≤ |d.toRat| := by
    rw [power, abs_div, abs_of_pos unit]
    refine div_le_self (abs_nonneg _) ?_
    exact_mod_cast tenTo_pos places
  obtain ⟨x, held⟩ := held?_isSome within
  obtain ⟨shifted, shift, rfl⟩ := Option.map_eq_some_iff.mp (divided.trans held)
  obtain ⟨⟨m, whole⟩, near⟩ := rounds_roundTo mode 0 shifted
  have one : (1 / tenTo 0 : ℚ) = 1 := by norm_num [tenTo]
  rw [one, mul_one] at whole
  rw [one, whole] at near
  have product := mul?_held (shifted.roundTo mode 0) step
  rw [whole, power] at product
  refine ⟨shifted.toRat, m, power ▸ held, near, ?_⟩
  push_cast
  rw [← product, roundLeft?, made]
  simp only [Option.bind_eq_bind, Option.bind_some, shift]

end Decimal

/-- What is promised of a number that is rounded to so many places, and when it is kept. On the left
    of the point it is not if the quotient is rounded onto a boundary. -/
structure RoundsTo (mode : Rounding) (places : Int) (x : ℚ) (r : Number) : Prop where
  multiple : ∃ k : Int, r.toRat = k * 10 ^ (-places)
  right : 0 ≤ places → mode.Near (10 ^ (-places)) x r.toRat
  left : places < 0 → ∃ q, Decimal.held? (x * 10 ^ places) = some q ∧
    (mode.Near (10 ^ (-places)) x r.toRat ↔ ¬ mode.Oversteps (x * 10 ^ places) q)
  exact : (∃ d : Decimal, d.toRat = x * 10 ^ places) → mode.Near (10 ^ (-places)) x r.toRat
  integer : places ≤ 0 → (r.isInteger = true ↔ ∃ i : Int, InWord i ∧ r.toRat = i)

namespace Number

open Decimal (maxScale held?)

variable {mode : Rounding} {places : Int} {n r : Number} {d : Decimal} {i : Int}

theorem round_of_pos (positive : 0 < places) :
    n.round mode places = .ok (.decimal (n.toDecimal.roundTo mode places.toNat)) := by
  rw [round, if_pos positive, Decimal.roundTo_min]

theorem round_of_nonpos (mode : Rounding) (n : Number) (left : places ≤ 0) : n.round mode places =
    (if places = 0 then some (n.toDecimal.roundTo mode 0)
      else n.toDecimal.roundLeft? mode places.natAbs).elim (.error (.overflow .rounding))
        fun d => .ok ((ofInt? d.toInt).getD (.decimal d)) := by
  rw [round, if_neg (Int.not_lt.mpr left)]
  split
  · rfl
  · cases n.toDecimal.roundLeft? mode places.natAbs <;> rfl

theorem getD_of_whole (whole : d.toRat = i) :
    (ofInt? d.toInt).getD (decimal d) = (decimal d).narrow := by
  rw [narrow_decimal whole, Decimal.toInt_of_toRat whole]

theorem unit_of_nonneg (right : 0 ≤ places) : (10 : ℚ) ^ (-places) = 1 / tenTo places.toNat := by
  obtain ⟨k, rfl⟩ := Int.eq_ofNat_of_zero_le right
  rw [zpow_neg, zpow_natCast, Int.toNat_natCast, tenTo, Nat.pow_eq, one_div]
  push_cast
  rfl

theorem unit_of_neg (left : places < 0) : (10 : ℚ) ^ (-places) = tenTo places.natAbs := by
  have size : -places = (places.natAbs : Int) := by omega
  rw [size, zpow_natCast, tenTo, Nat.pow_eq]
  push_cast
  rfl

theorem roundsTo_right (right : 0 ≤ places) :
    ∃ r, n.round mode places = .ok r ∧ RoundsTo mode places n.toRat r := by
  have rounds := Decimal.rounds_roundTo mode places.toNat n.toDecimal
  rw [← unit_of_nonneg right] at rounds
  rcases right.eq_or_lt with rfl | positive
  · obtain ⟨k, whole⟩ := rounds.multiple
    have unit : (10 : ℚ) ^ (-(0 : Int)) = 1 := by norm_num
    have whole : (n.toDecimal.roundTo mode 0).toRat = k := by rwa [unit, mul_one] at whole
    have value : (decimal (n.toDecimal.roundTo mode 0)).narrow.toRat =
        (n.toDecimal.roundTo mode 0).toRat := toRat_narrow _
    refine ⟨(decimal (n.toDecimal.roundTo mode 0)).narrow, ?_, ?_⟩
    · rw [round_of_nonpos mode n (le_refl 0), if_pos rfl, Option.elim_some, getD_of_whole whole]
    · have near := rounds.near
      rw [Int.toNat_zero, ← value] at near
      refine ⟨⟨k, by rw [value, whole, unit, mul_one]⟩, fun _ => near,
        fun negative => absurd negative (lt_irrefl 0), fun _ => near, fun _ => ?_⟩
      rw [isInteger_narrow, value]
  · refine ⟨_, round_of_pos positive, rounds.multiple, fun _ => rounds.near,
      fun negative => absurd positive negative.not_gt, fun _ => rounds.near,
      fun nonpos => absurd positive nonpos.not_gt⟩

theorem room_of_neg (left : places < 0) :
    |n.toRat / tenTo places.natAbs| * 10 + 1 ≤ Decimal.widthBound := by
  have positive := tenTo_cast_pos places.natAbs
  have ten : (10 : ℚ) ≤ tenTo places.natAbs := by
    have one : 1 ≤ places.natAbs := by omega
    have grows : tenTo 1 ≤ tenTo places.natAbs := Nat.pow_le_pow_right (by decide) one
    exact_mod_cast grows
  have shrinks : |n.toRat / tenTo places.natAbs| * 10 ≤ |n.toRat| := by
    rw [abs_div, abs_of_pos positive, div_mul_eq_mul_div, div_le_iff₀ positive]
    exact mul_le_mul_of_nonneg_left ten (abs_nonneg _)
  exact (add_le_add_left shrinks 1).trans n.toDecimal.abs_toRat_le

theorem round_of_neg (mode : Rounding) (left : places < 0) (low : places.natAbs ≤ maxScale)
    (n : Number) : ∃ x, ∃ m : Int, held? (n.toRat * 10 ^ places) = some x ∧ mode.Near 1 x m ∧
      ((held? (m * 10 ^ (-places)) = none ∧
          n.round mode places = .error (.overflow .rounding)) ∨
        ∃ d : Decimal, d.toRat = m * 10 ^ (-places) ∧
          n.round mode places = .ok (decimal d).narrow) := by
  obtain ⟨x, m, held, near, product⟩ := Decimal.map_roundLeft? mode low n.toDecimal
  have unit := unit_of_neg left
  have quotient : n.toRat * 10 ^ places = n.toRat / tenTo places.natAbs := by
    rw [← unit, zpow_neg, div_inv_eq_mul]
  have steps : ((m * tenTo places.natAbs : Int) : ℚ) = m * 10 ^ (-places) := by
    rw [unit]
    push_cast
    rfl
  have someRounding := round_of_nonpos mode n left.le
  rw [if_neg left.ne] at someRounding
  refine ⟨x, m, quotient ▸ held, near, ?_⟩
  cases rounded : n.toDecimal.roundLeft? mode places.natAbs with
  | none =>
    rw [rounded] at someRounding product
    exact .inl ⟨steps ▸ product.symm, someRounding⟩
  | some d =>
    rw [rounded] at someRounding product
    have whole : d.toRat = (m * tenTo places.natAbs : Int) := Decimal.held?_of_whole product.symm
    rw [Option.elim_some, getD_of_whole whole] at someRounding
    exact .inr ⟨d, whole.trans steps, someRounding⟩

theorem round_of_wide (mode : Rounding) (left : places < 0) (wide : maxScale < places.natAbs)
    (n : Number) : n.round mode places = .error (.overflow .rounding) := by
  rw [round_of_nonpos mode n left.le, if_neg left.ne, Decimal.roundLeft?_of_wide wide]
  rfl

theorem roundsTo_left (left : places < 0) :
    (∃ r, n.round mode places = .ok r ∧ RoundsTo mode places n.toRat r) ∨
      n.round mode places = .error (.overflow .rounding) := by
  rcases lt_or_ge maxScale places.natAbs with wide | low
  · exact .inr (round_of_wide mode left wide n)
  obtain ⟨x, m, held, near, ⟨-, failed⟩ | ⟨d, value, rounded⟩⟩ := round_of_neg mode left low n
  · exact .inr failed
  have unit := unit_of_neg left
  have positive := tenTo_cast_pos places.natAbs
  have same : (decimal d).narrow.toRat = d.toRat := toRat_narrow d
  have whole : d.toRat = (m * tenTo places.natAbs : Int) := by
    rw [value, unit]
    push_cast
    rfl
  have quotient : n.toRat * 10 ^ places = n.toRat / tenTo places.natAbs := by
    rw [← unit, zpow_neg, div_inv_eq_mul]
  have keeps := Decimal.keepsHalves_of_held? (room_of_neg left) (quotient ▸ held)
  have once : mode.Near (10 ^ (-places)) n.toRat (decimal d).narrow.toRat ↔
      ¬ mode.Oversteps (n.toRat * 10 ^ places) x := by
    rw [quotient, ← Rounding.near_iff keeps near, ← Rounding.near_mul positive,
      div_mul_cancel₀ _ positive.ne', same, value, unit]
  refine .inl ⟨(decimal d).narrow, rounded, ⟨m, same.trans value⟩,
    fun right => absurd left right.not_gt, fun _ => ⟨x, held, once⟩, ?_, fun _ => ?_⟩
  · rintro ⟨e, exact⟩
    rw [← exact, Decimal.held?_toRat, Option.some_inj] at held
    rw [once, ← exact, ← held]
    exact Rounding.not_oversteps_self
  · rw [isInteger_narrow, same]

/-- The result is a multiple of the unit, and on the side that the mode asks for, less than one unit
    away; but not on the left of the point if the quotient steps onto a boundary. Without places it
    is an integer if it fits. -/
theorem round_promise (mode : Rounding) (places : Int) (n : Number) :
    (∃ r, n.round mode places = .ok r ∧ RoundsTo mode places n.toRat r) ∨
      places < 0 ∧ n.round mode places = .error (.overflow .rounding) := by
  rcases lt_or_ge places 0 with left | right
  · exact (roundsTo_left left).imp_right fun failed => ⟨left, failed⟩
  · exact .inl (roundsTo_right right)

/-- In each mode a number whose quotient is rounded onto a boundary ends up on the wrong side of
    it. -/
theorem round_oversteps :
    let least : Number := .decimal ⟨1, 28, by decide, by decide⟩
    let minusLeast : Number := .decimal ⟨-1, 28, by decide, by decide⟩
    let belowFive : Number := .decimal ⟨49999999999999999999999999999, 28, by decide, by decide⟩
    (∃ r, least.round .ceiling (-1) = .ok r ∧ ¬ least.toRat ≤ r.toRat) ∧
      (∃ r, minusLeast.round .floor (-1) = .ok r ∧ ¬ r.toRat ≤ minusLeast.toRat) ∧
      ∃ r, belowFive.round .halfAwayFromZero (-1) = .ok r ∧
        ¬ |r.toRat - belowFive.toRat| ≤ 10 / 2 :=
  ⟨⟨.integer 0 (by decide), by decide +kernel, by decide +kernel⟩,
    ⟨.integer 0 (by decide), by decide +kernel, by decide +kernel⟩,
    .integer 10 (by decide), by decide +kernel, by decide +kernel⟩

end Number

end Formulary
