import Formulary.Proofs.RoundedPowers

/-!
Bounds on the powers of decimals, over all exponents of 64 bits. Chains of decimal products and
fixed point both keep within a part of 10^-24 of the power from one on. Below one, a power is not
rounded to nothing as long as the last place can hold it.
-/
namespace Formulary

open Decimal (widthBound maxScale)

/-! Multiples of a unit -/

namespace IsHalfEven

variable {q part : ℚ} {c : Int} {g : Nat}

theorem abs_sub_le (half : IsHalfEven (q * g) c) (positive : 0 < g) :
    |c / g - q| ≤ 1 / 2 / g := by
  have wide : (0 : ℚ) < g := Nat.cast_pos.mpr positive
  have near := half.near
  rwa [le_div_iff₀ wide, ← abs_of_pos wide, ← abs_mul, abs_of_pos wide, sub_mul,
    div_mul_cancel₀ _ wide.ne']

theorem le_one (half : IsHalfEven (q * g) c) (positive : 0 < g) (small : |q| ≤ 1) :
    |(c / g : ℚ)| ≤ 1 := by
  have wide : (0 : ℚ) < g := Nat.cast_pos.mpr positive
  have bounded : |c| ≤ (g : Int) := by
    refine half.abs.mono (.intCast (g : Int)) ?_
    rw [abs_mul, abs_of_pos wide, Int.cast_natCast]
    exact mul_le_of_le_one_left wide.le small
  rw [abs_div, abs_of_pos wide, div_le_one wide, ← Int.cast_abs]
  exact_mod_cast bounded

theorem one_le (half : IsHalfEven (q * g) c) (positive : 0 < g) (large : 1 ≤ |q|) :
    1 ≤ |(c / g : ℚ)| := by
  have wide : (0 : ℚ) < g := Nat.cast_pos.mpr positive
  have bounded : (g : Int) ≤ |c| := by
    refine (intCast (g : Int)).mono half.abs ?_
    rw [abs_mul, abs_of_pos wide, Int.cast_natCast]
    exact le_mul_of_one_le_left wide.le large
  rw [abs_div, abs_of_pos wide, one_le_div wide, ← Int.cast_abs]
  exact_mod_cast bounded

theorem part_le (half : IsHalfEven (q * g) c) (positive : 0 < g)
    (enough : 1 / 2 / g ≤ |q| * (1 - part)) : |q| * part ≤ |(c / g : ℚ)| := by
  have change := half.abs_sub_le positive
  have far := abs_sub_abs_le_abs_sub q (c / g : ℚ)
  rw [abs_sub_comm] at far
  linarith

end IsHalfEven

/-! Fixed point -/

namespace FixedPoint

variable {q : ℚ}

theorem exists_units (q : ℚ) : ∃ c : Int, IsHalfEven (q * unit) c ∧
    held? q = if widthBound * unit ≤ c.natAbs then none else some (c / unit : ℚ) := by
  refine ⟨roundHalfEven (q.num * unit) q.den, ?_, rfl⟩
  have rounded := isHalfEven_roundHalfEven (q.num * unit) (Rat.den_pos q)
  push_cast at rounded
  rwa [mul_div_right_comm, Rat.num_div_den] at rounded

theorem held?_of_small (small : |q| ≤ 1) :
    ∃ c : Int, IsHalfEven (q * unit) c ∧ held? q = some (c / unit : ℚ) := by
  obtain ⟨c, half, held⟩ := exists_units q
  refine ⟨c, half, ?_⟩
  rw [held, if_neg]
  have bounded : |c| ≤ (unit : Int) := by
    refine half.abs.mono (.intCast (unit : Int)) ?_
    rw [abs_mul, abs_of_pos (tenTo_cast_pos 80), Int.cast_natCast]
    exact mul_le_of_le_one_left (tenTo_cast_pos 80).le small
  rw [Int.abs_eq_natAbs, Int.ofNat_le] at bounded
  refine not_le.mpr (bounded.trans_lt ?_)
  exact lt_mul_of_one_lt_left (tenTo_pos 80) (by decide)

theorem keepsLarge : KeepsLarge held? (widthBound - 1 / 2) (1 - 1 / tenTo 80) := by
  constructor
  · intro q x large kept
    obtain ⟨c, half, held⟩ := exists_units q
    rw [held] at kept
    split at kept
    · cases kept
    · cases kept
      exact half.one_le (tenTo_pos 80) large
  · intro q large
    obtain ⟨c, half, held⟩ := exists_units q
    have unit_pos := tenTo_cast_pos 80
    rw [held]
    split
    · next wide =>
      have wide : (widthBound * unit : ℚ) ≤ |(c : ℚ)| := by
        rw [← Int.cast_abs, Int.abs_eq_natAbs]
        exact_mod_cast wide
      have near := half.near
      have far := abs_sub_abs_le_abs_sub (c : ℚ) (q * unit)
      rw [abs_mul, abs_of_pos unit_pos] at far
      have bounded : (widthBound * unit : ℚ) - 1 / 2 ≤ |q| * unit :=
        sub_le_iff_le_add'.mpr (wide.trans (sub_le_iff_le_add.mp (far.trans near)))
      norm_num [widthBound, tenTo] at bounded ⊢
      linarith
    · have change := half.abs_sub_le (tenTo_pos 80)
      have far := abs_sub_abs_le_abs_sub (c / unit : ℚ) q
      have least := half.one_le (tenTo_pos 80) large
      rw [Option.elim_some]
      norm_num [tenTo] at change far least ⊢
      linarith

theorem keepsSmall : KeepsSmall held? (1 / 2 / tenTo maxScale) (1 - 1 / tenTo 52) := by
  refine ⟨fun {q} small enough => ?_⟩
  obtain ⟨c, half, held⟩ := held?_of_small small
  refine ⟨_, held, half.le_one (tenTo_pos 80) small, half.part_le (tenTo_pos 80) ?_⟩
  norm_num [tenTo] at enough ⊢
  linarith

theorem keepsAnySmall : KeepsSmall held? 0 0 := by
  refine ⟨fun {q} small _ => ?_⟩
  obtain ⟨c, half, held⟩ := held?_of_small small
  refine ⟨_, held, half.le_one (tenTo_pos 80) small, ?_⟩
  rw [mul_zero]
  exact abs_nonneg _

end FixedPoint

namespace Decimal

variable {q x p s : ℚ} {n : Nat}

theorem keepsLarge : KeepsLarge held? (widthBound - 1 / 2) (1 - 1 / tenTo maxScale) := by
  refine ⟨fun large held => (held?_of_large large held).1, fun {q} large => ?_⟩
  cases held : held? q with
  | some x => exact (held?_of_large large held).2
  | none =>
    refine le_trans ?_ (wide_of_held? held)
    rw [Option.elim_none]
    norm_num [widthBound, tenTo]

theorem keepsAnySmall : KeepsSmall held? 0 0 := by
  refine ⟨fun {q} small _ => ?_⟩
  obtain ⟨c, held, half⟩ := held?_of_small small
  refine ⟨_, held, half.le_one (tenTo_pos _) small, ?_⟩
  rw [mul_zero]
  exact abs_nonneg _

/-- The part that a decimal product keeps of a number whose square is not below the last place. -/
def productPart : ℚ := 1 - 1 / tenTo 14

theorem keepsSmall : KeepsSmall held? (1 / 2 / tenTo 14) productPart := by
  refine ⟨fun {q} small enough => ?_⟩
  obtain ⟨c, held, half⟩ := held?_of_small small
  refine ⟨_, held, half.le_one (tenTo_pos _) small, half.part_le (tenTo_pos _) ?_⟩
  unfold productPart
  norm_num [tenTo] at enough ⊢
  linarith

theorem held?_idem (held : held? q = some x) : held? x = some x := by
  obtain ⟨d, rfl, -⟩ := rounded_of_held? held
  exact held?_toRat d

theorem held?_of_half (small : |q| ≤ 1) (enough : 1 / 2 < |q| * tenTo maxScale) :
    ∃ x, held? q = some x ∧ x ≠ 0 ∧ |q| * (2 / 3) ≤ |x| := by
  obtain ⟨c, held, half⟩ := held?_of_small small
  have places := tenTo_cast_pos maxScale
  have near := half.abs.near
  rw [abs_mul, abs_of_pos places] at near
  obtain ⟨under, most⟩ := abs_le.mp near
  have unit : 1 ≤ |c| := by
    have positive : (0 : ℚ) < (|c| : Int) := by linarith
    exact Int.add_one_le_of_lt (by exact_mod_cast positive)
  have one : (1 : ℚ) ≤ (|c| : Int) := by exact_mod_cast unit
  have size : |(c / tenTo maxScale : ℚ)| * tenTo maxScale = (|c| : Int) := by
    rw [abs_div, abs_of_pos places, div_mul_cancel₀ _ places.ne', Int.cast_abs]
  refine ⟨_, held, ?_, ?_⟩
  · rw [ne_eq, div_eq_zero_iff, or_iff_left places.ne', Int.cast_eq_zero]
    rintro rfl
    exact absurd unit (by decide)
  · refine le_of_mul_le_mul_right ?_ places
    rw [size]
    linarith

theorem root_le {y : ℚ} (positive : 0 ≤ y) (enough : 4 / 5 ≤ y * y * tenTo maxScale) :
    1 / 2 / tenTo 14 ≤ y := by
  by_contra below
  have below := not_le.mp below
  have product := mul_self_lt_mul_self positive below
  norm_num [tenTo] at enough product
  linarith

theorem productPart_nonneg : 0 ≤ productPart := by norm_num [productPart, tenTo]

theorem productPart_le_one : productPart ≤ 1 := by norm_num [productPart, tenTo]

theorem last_square_survives (left : |p| ≤ 1) (right : |s| ≤ 1) (final : n / 2 = 1)
    (product : n % 2 = 1 → 1 / 2 / tenTo 14 ≤ |p * s|) (square : 1 / 2 < |s * s| * tenTo maxScale)
    (enough : 4 / 5 ≤ |p| * |s| ^ n * productPart ^ (2 * n) * tenTo maxScale) :
    ∃ x, squaring held? p s n = some x ∧ x ≠ 0 := by
  have places := tenTo_cast_pos maxScale
  have positive := productPart_nonneg
  obtain ⟨p', taken, left', size⟩ := keepsSmall.digit (n := n) left right product
  have small := abs_mul_le_one right right
  obtain ⟨s', squared, -, third⟩ := held?_of_half small square
  have right' : |s'| ≤ 1 := by
    obtain ⟨t, same, bounded, -⟩ := keepsAnySmall.size small (abs_nonneg _)
    rw [squared] at same
    cases same
    exact bounded
  have losses : |p| * |s| ^ n * productPart ^ (2 * n) * (2 / 3) ≤ |p' * s'| := by
    have fewer : productPart ^ (2 * n) ≤ productPart ^ (n % 2) :=
      pow_le_pow_of_le_one positive productPart_le_one (by omega)
    rw [abs_mul] at third ⊢
    calc
      |p| * |s| ^ n * productPart ^ (2 * n) * (2 / 3) ≤
          |p| * |s| ^ n * productPart ^ (n % 2) * (2 / 3) := by gcongr
      _ = |p| * |s| ^ (n % 2) * productPart ^ (n % 2) * (|s| * |s| * (2 / 3)) := by
        rw [pow_halves |s| n, final, pow_one]
        ring
      _ ≤ |p'| * |s'| := by gcongr
  have rest : 1 / 2 < |p' * s'| * tenTo maxScale := by
    have scaled := mul_le_mul_of_nonneg_right losses places.le
    linarith
  obtain ⟨x, held, nonzero, -⟩ := held?_of_half (abs_mul_le_one left' right') rest
  refine ⟨x, ?_, nonzero⟩
  rw [squaring_step (by omega) taken squared, final]
  exact (squaring_last rfl).trans held

theorem square_nearer {p' s' : ℚ} (left : |p| ≤ 1) (nearer : |s| ≤ |p|)
    (kept : held? s = some s) (taken : heldDigit held? p s n = some p')
    (squared : held? (s * s) = some s') : |s'| ≤ |p'| := by
  have right : |s| ≤ 1 := nearer.trans left
  unfold heldDigit at taken
  split at taken
  · refine held?_abs_mono ?_ squared taken
    rw [abs_mul, abs_mul]
    exact mul_le_mul_of_nonneg_right nearer (abs_nonneg s)
  · cases taken
    refine (held?_abs_mono ?_ squared kept).trans nearer
    rw [abs_mul]
    exact mul_le_of_le_one_left (abs_nonneg s) right

/-- A power below one that the last place holds is not rounded to nothing. Until the last square a
    product is so far above the last place that hardly anything is lost, as it is not below the
    square that is still to be taken. -/
theorem squaring_survives (left : |p| ≤ 1) (nearer : |s| ≤ |p|) (kept : held? s = some s)
    (some_digit : n ≠ 0)
    (enough : 4 / 5 ≤ |p| * |s| ^ n * productPart ^ (2 * n) * tenTo maxScale) :
    ∃ x, squaring held? p s n = some x ∧ x ≠ 0 := by
  have places := tenTo_cast_pos maxScale
  have positive := productPart_nonneg
  have proper := productPart_le_one
  induction n using Nat.strongRecOn generalizing p s with
  | ind n ih =>
    have right : |s| ≤ 1 := nearer.trans left
    have whole : 4 / 5 ≤ |p| * |s| ^ n * tenTo maxScale := by
      refine enough.trans (mul_le_mul_of_nonneg_right ?_ places.le)
      exact mul_le_of_le_one_right (by positivity) (pow_le_one₀ positive proper)
    have within {y : ℚ} (above : |p| * |s| ^ n ≤ y) : 4 / 5 ≤ y * tenTo maxScale :=
      whole.trans (mul_le_mul_of_nonneg_right above places.le)
    have power {m : Nat} (fewer : m ≤ n) : |p| * |s| ^ n ≤ |s| ^ m :=
      (mul_le_of_le_one_left (by positivity) left).trans
        (pow_le_pow_of_le_one (abs_nonneg s) right fewer)
    by_cases last : n / 2 = 0
    · obtain rfl : n = 1 := by omega
      have unit := within (y := |p * s|) (by rw [abs_mul, pow_one])
      obtain ⟨x, held, nonzero, -⟩ := held?_of_half (abs_mul_le_one left right) (by linarith)
      exact ⟨x, (squaring_last last).trans held, nonzero⟩
    have product (odd : n % 2 = 1) : 1 / 2 / tenTo 14 ≤ |p * s| := by
      refine root_le (abs_nonneg _) (within ?_)
      rw [abs_mul]
      calc
        |p| * |s| ^ n ≤ |p| * |s| ^ 3 := mul_le_mul_of_nonneg_left
          (pow_le_pow_of_le_one (abs_nonneg s) right (by omega)) (abs_nonneg p)
        _ = |p| * |s| * (|s| * |s|) := by ring
        _ ≤ |p| * |s| * (|p| * |s|) := by gcongr
    by_cases final : n / 2 = 1
    · have unit := within (y := |s * s|) (by rw [abs_mul, ← sq]; exact power (by omega))
      exact last_square_survives left right final product (by linarith) enough
    · have square : 1 / 2 / tenTo 14 ≤ |s * s| := by
        refine root_le (abs_nonneg _) (within ?_)
        have four : |s * s| * |s * s| = |s| ^ 4 := by rw [abs_mul]; ring
        rw [four]
        exact power (by omega)
      obtain ⟨p', s', taken, squared, left', right', later⟩ :=
        keepsSmall.step (n := n) positive proper left right product square
      have later := mul_le_mul_of_nonneg_right later places.le
      obtain ⟨x, made, nonzero⟩ := ih (n / 2) (by omega) left'
        (square_nearer left nearer kept taken squared) (held?_idem squared) last
        (enough.trans later)
      exact ⟨x, by rw [squaring_step last taken squared, made], nonzero⟩

/-! Whole powers -/

theorem losses_le {loss part : ℚ} {count most : Nat} (few : count ≤ most) (positive : 0 ≤ loss)
    (small : loss ≤ 1) (sum : part ≤ 1 - most * loss) : part ≤ (1 - loss) ^ count := by
  have bernoulli := one_add_mul_le_pow (a := -loss) (by linarith) count
  rw [mul_neg, ← sub_eq_add_neg, ← sub_eq_add_neg] at bernoulli
  have fewer : (count : ℚ) * loss ≤ most * loss :=
    mul_le_mul_of_nonneg_right (by exact_mod_cast few) positive
  exact sum.trans ((sub_le_sub_left fewer 1).trans bernoulli)

/-- The part that is left of a power, whichever way it is computed. -/
def powerPart : ℚ := 1 - 1 / (2 * tenTo 24)

theorem powerPart_le {bound part : ℚ} {result : Option ℚ} (wide : 0 ≤ bound)
    (enough : powerPart ≤ part) :
    result.elim bound abs * powerPart ≤ result.elim bound abs * part := by
  refine mul_le_mul_of_nonneg_left enough ?_
  cases result with
  | none => exact wide
  | some x => exact abs_nonneg x

theorem fixedPower_of_large (large : 1 ≤ |q|) (some_digit : n ≠ 0) (short : n < 2 ^ 64) :
    (∀ x, (squaring FixedPoint.held? 1 q n).bind held? = some x → 1 ≤ |x|) ∧
      ((squaring FixedPoint.held? 1 q n).bind held?).elim (widthBound - 1 / 2 : ℚ) abs *
        powerPart ≤ |q| ^ n := by
  have wide : (0 : ℚ) ≤ widthBound - 1 / 2 := by norm_num [widthBound]
  have unit : 1 ≤ |(1 : ℚ)| := by rw [abs_one]
  obtain ⟨least, size⟩ := FixedPoint.keepsLarge.squaring wide (by norm_num [tenTo])
    (by norm_num [tenTo]) unit large some_digit
  rw [abs_one, one_mul] at size
  have all : 1 - 1 / (4 * tenTo 24 : ℚ) ≤ (1 - 1 / tenTo 80) ^ (2 * n) :=
    losses_le (Nat.mul_le_mul_left 2 short.le) (by norm_num [tenTo]) (by norm_num [tenTo])
      (by norm_num [tenTo])
  cases powered : squaring FixedPoint.held? 1 q n with
  | none =>
    rw [powered] at size
    have part : powerPart ≤ (1 - 1 / tenTo 80) ^ (2 * n) :=
      le_trans (by norm_num [powerPart, tenTo]) all
    exact ⟨fun x none => (by cases none), (mul_le_mul_of_nonneg_left part wide).trans size⟩
  | some x =>
    have above := least x powered
    rw [powered, Option.elim_some] at size
    refine ⟨fun y same => keepsLarge.large above same, ?_⟩
    rw [Option.bind_some]
    have last := keepsLarge.size above
    have part : powerPart ≤ (1 - 1 / tenTo maxScale) * (1 - 1 / (4 * tenTo 24)) := by
      norm_num [powerPart, tenTo]
    calc
      (held? x).elim (widthBound - 1 / 2 : ℚ) abs * powerPart ≤
          (held? x).elim (widthBound - 1 / 2 : ℚ) abs *
            ((1 - 1 / tenTo maxScale) * (1 - 1 / (4 * tenTo 24))) := powerPart_le wide part
      _ = (held? x).elim (widthBound - 1 / 2 : ℚ) abs * (1 - 1 / tenTo maxScale) *
          (1 - 1 / (4 * tenTo 24)) := (mul_assoc _ _ _).symm
      _ ≤ |x| * (1 - 1 / (4 * tenTo 24)) :=
        mul_le_mul_of_nonneg_right last (by norm_num [tenTo])
      _ ≤ |x| * (1 - 1 / tenTo 80) ^ (2 * n) :=
        mul_le_mul_of_nonneg_left all (abs_nonneg x)
      _ ≤ |q| ^ n := size

theorem heldPower?_of_large (large : 1 ≤ |q|) (short : n < 2 ^ 64) :
    (∀ x, heldPower? q n = some x → 1 ≤ |x|) ∧
      (heldPower? q n).elim (widthBound - 1 / 2 : ℚ) abs * powerPart ≤ |q| ^ n := by
  have wide : (0 : ℚ) ≤ widthBound - 1 / 2 := by norm_num [widthBound]
  have unit : 1 ≤ |(1 : ℚ)| := by rw [abs_one]
  match n with
  | 0 =>
    refine ⟨fun x same => by cases same; exact unit, ?_⟩
    norm_num [heldPower?, powerPart, tenTo]
  | 1 =>
    refine ⟨fun x same => by cases same; exact large, ?_⟩
    rw [pow_one]
    exact mul_le_of_le_one_right (abs_nonneg q) (by norm_num [powerPart, tenTo])
  | 2 =>
    have square := one_le_abs_mul large large
    refine ⟨fun x same => keepsLarge.large square same, ?_⟩
    rw [sq, ← abs_mul]
    exact (powerPart_le wide (by norm_num [powerPart, tenTo])).trans (keepsLarge.size square)
  | n + 3 =>
    have positive : (n + 3 : Nat) ≠ 0 := by omega
    rw [heldPower?]
    · split
      · next few =>
        obtain ⟨least, size⟩ := keepsLarge.squaring wide (by norm_num [tenTo])
          (by norm_num [tenTo]) unit large positive
        rw [abs_one, one_mul] at size
        refine ⟨least, (powerPart_le wide ?_).trans size⟩
        exact losses_le (Nat.mul_le_mul_left 2 few.le) (by norm_num [tenTo])
          (by norm_num [tenTo]) (by norm_num [powerPart, tenTo])
      · exact fixedPower_of_large large positive short
    all_goals omega

theorem heldPower?_of_small (small : |q| ≤ 1) (n : Nat) :
    ∃ x, heldPower? q n = some x ∧ |x| ≤ 1 := by
  have unit : |(1 : ℚ)| ≤ 1 := by rw [abs_one]
  have held {q : ℚ} (small : |q| ≤ 1) : ∃ x, held? q = some x ∧ |x| ≤ 1 := by
    obtain ⟨x, made, bounded, -⟩ := keepsAnySmall.size small (abs_nonneg q)
    exact ⟨x, made, bounded⟩
  match n with
  | 0 => exact ⟨1, rfl, unit⟩
  | 1 => exact ⟨q, rfl, small⟩
  | 2 => exact held (abs_mul_le_one small small)
  | n + 3 =>
    have anything {hold : ℚ → Option ℚ} (keeps : KeepsSmall hold 0 0) :
        ∃ x, squaring hold 1 q (n + 3) = some x ∧ |x| ≤ 1 := by
      obtain ⟨x, made, bounded, -⟩ := keeps.squaring le_rfl zero_le_one unit small
        (n := n + 3) (by omega) (by positivity)
      exact ⟨x, made, bounded⟩
    rw [heldPower?]
    · split
      · exact anything keepsAnySmall
      · obtain ⟨x, made, bounded⟩ := anything FixedPoint.keepsAnySmall
        rw [made]
        exact held bounded
    all_goals omega

theorem fixedPower_ne_zero (small : |q| ≤ 1) (some_digit : n ≠ 0) (short : n < 2 ^ 64)
    (enough : 1 ≤ |q| ^ n * tenTo maxScale) :
    ∃ x, (squaring FixedPoint.held? 1 q n).bind held? = some x ∧ x ≠ 0 := by
  have unit : |(1 : ℚ)| ≤ 1 := by rw [abs_one]
  have part : 4 / 5 ≤ (1 - 1 / tenTo 52 : ℚ) ^ (2 * n) :=
    losses_le (Nat.mul_le_mul_left 2 short.le) (by norm_num [tenTo]) (by norm_num [tenTo])
      (by norm_num [tenTo])
  have power : 1 / tenTo maxScale ≤ |q| ^ n := (div_le_iff₀ (tenTo_cast_pos maxScale)).mpr enough
  have left : 4 / 5 / tenTo maxScale ≤ |(1 : ℚ)| * |q| ^ n * (1 - 1 / tenTo 52) ^ (2 * n) := by
    calc
      (4 / 5 / tenTo maxScale : ℚ) = 1 / tenTo maxScale * (4 / 5) := by ring
      _ ≤ |q| ^ n * (1 - 1 / tenTo 52) ^ (2 * n) := by gcongr
      _ = |(1 : ℚ)| * |q| ^ n * (1 - 1 / tenTo 52) ^ (2 * n) := by rw [abs_one, one_mul]
  have least : 1 / 2 / tenTo maxScale ≤ |(1 : ℚ)| * |q| ^ n * (1 - 1 / tenTo 52) ^ (2 * n) :=
    le_trans (by norm_num [tenTo]) left
  obtain ⟨x, made, bounded, size⟩ := FixedPoint.keepsSmall.squaring (by norm_num [tenTo])
    (by norm_num [tenTo]) unit small some_digit least
  have rest : 1 / 2 < |x| * tenTo maxScale := by
    have scaled := (div_le_iff₀ (tenTo_cast_pos maxScale)).mp (left.trans size)
    linarith
  obtain ⟨y, held, nonzero, -⟩ := held?_of_half bounded rest
  exact ⟨y, by rw [made]; exact held, nonzero⟩

/-- A power below one is not rounded to nothing if the last place can hold it. -/
theorem heldPower?_ne_zero (small : |q| ≤ 1) (kept : held? q = some q) (short : n < 2 ^ 64)
    (enough : 1 ≤ |q| ^ n * tenTo maxScale) : ∃ x, heldPower? q n = some x ∧ x ≠ 0 := by
  have unit : |(1 : ℚ)| ≤ 1 := by rw [abs_one]
  match n with
  | 0 => exact ⟨1, rfl, one_ne_zero⟩
  | 1 =>
    refine ⟨q, rfl, ?_⟩
    rintro rfl
    norm_num at enough
  | 2 =>
    rw [sq, ← abs_mul] at enough
    obtain ⟨x, held, nonzero, -⟩ := held?_of_half (abs_mul_le_one small small) (by linarith)
    exact ⟨x, held, nonzero⟩
  | n + 3 =>
    have positive : (n + 3 : Nat) ≠ 0 := by omega
    rw [heldPower?]
    · split
      · next few =>
        refine squaring_survives unit (by rwa [abs_one]) kept positive ?_
        have part : 4 / 5 ≤ productPart ^ (2 * (n + 3)) :=
          losses_le (Nat.mul_le_mul_left 2 few.le) (by norm_num [tenTo]) (by norm_num [tenTo])
            (by norm_num [tenTo])
        rw [abs_one, one_mul]
        calc
          (4 / 5 : ℚ) ≤ productPart ^ (2 * (n + 3)) := part
          _ ≤ |q| ^ (n + 3) * tenTo maxScale * productPart ^ (2 * (n + 3)) :=
            le_mul_of_one_le_left (le_trans (by norm_num) part) enough
          _ = |q| ^ (n + 3) * productPart ^ (2 * (n + 3)) * tenTo maxScale := mul_right_comm _ _ _
      · exact fixedPower_ne_zero small positive short enough
    all_goals omega

end Decimal

end Formulary
