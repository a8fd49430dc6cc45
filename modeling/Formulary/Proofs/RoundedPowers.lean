import Formulary.Proofs.RepeatedSquaring

/-!
How far a power can be off when each product on the way is rounded. Of a number from one on the
power loses a small part of itself, and where it is given up it was too wide, up to that part. Of a
number below one no power is given up, and none is lost altogether that the last place can hold.
-/
namespace Formulary

theorem one_le_abs_mul {p s : ℚ} (left : 1 ≤ |p|) (right : 1 ≤ |s|) : 1 ≤ |p * s| := by
  rw [abs_mul]
  exact one_le_mul_of_one_le_of_one_le left right

theorem abs_mul_le_one {p s : ℚ} (left : |p| ≤ 1) (right : |s| ≤ 1) : |p * s| ≤ 1 := by
  rw [abs_mul]
  exact mul_le_one₀ left (abs_nonneg s) right

/-! Losses -/

theorem pow_halves (s : ℚ) (n : Nat) : s ^ n = s ^ (n % 2) * (s * s) ^ (n / 2) := by
  rw [← sq, ← pow_mul, ← pow_add, Nat.mod_add_div]

theorem losses_add {a b c e k : ℚ} {d m : Nat} (product : 0 ≤ a) (square : 0 ≤ c) (part : 0 ≤ k)
    (left : a * k ^ d ≤ b) (right : c * k ≤ e) : a * c ^ m * k ^ (d + m) ≤ b * e ^ m := by
  have whole : 0 ≤ b := le_trans (by positivity) left
  calc
    a * c ^ m * k ^ (d + m) = a * k ^ d * (c * k) ^ m := by rw [mul_pow, pow_add]; ring
    _ ≤ b * e ^ m := by gcongr

/-- The roundings of one digit and of all that follow are no more than two for each unit of the
    exponent. -/
theorem digit_losses (n : Nat) : n % 2 + n / 2 + 2 * (n / 2) ≤ 2 * n := by omega

/-! From one on -/

/-- Numbers from one on stay there, and lose no more than a fixed part. What is not held is wider
    than the bound, up to that part. -/
structure KeepsLarge (hold : ℚ → Option ℚ) (bound part : ℚ) : Prop where
  large : ∀ {q x}, 1 ≤ |q| → hold q = some x → 1 ≤ |x|
  size : ∀ {q}, 1 ≤ |q| → (hold q).elim bound abs * part ≤ |q|

namespace KeepsLarge

variable {hold : ℚ → Option ℚ} {bound part p s x : ℚ} {n : Nat}

theorem digit (keeps : KeepsLarge hold bound part) (left : 1 ≤ |p|) (right : 1 ≤ |s|)
    (taken : heldDigit hold p s n = some x) :
    1 ≤ |x| ∧ |x| * part ^ (n % 2) ≤ |p| * |s| ^ (n % 2) := by
  unfold heldDigit at taken
  rcases Nat.mod_two_eq_zero_or_one n with even | odd
  · rw [even, if_neg nofun] at taken
    cases taken
    rw [even, pow_zero, pow_zero]
    exact ⟨left, le_rfl⟩
  · rw [odd, if_pos rfl] at taken
    have product := one_le_abs_mul left right
    have size := keeps.size product
    rw [taken, Option.elim_some, abs_mul] at size
    rw [odd, pow_one, pow_one]
    exact ⟨keeps.large product taken, size⟩

theorem squaring (keeps : KeepsLarge hold bound part) (wide : 0 ≤ bound) (positive : 0 ≤ part)
    (proper : part ≤ 1) (left : 1 ≤ |p|) (right : 1 ≤ |s|) (some_digit : n ≠ 0) :
    (∀ x, squaring hold p s n = some x → 1 ≤ |x|) ∧
      (squaring hold p s n).elim bound abs * part ^ (2 * n) ≤ |p| * |s| ^ n := by
  -- The induction follows the binary digits of the exponent.
  induction n using Nat.strongRecOn generalizing p s with
  | ind n ih =>
    have sizeOf (result : Option ℚ) : 0 ≤ result.elim bound abs := by
      cases result with
      | none => exact wide
      | some x => exact abs_nonneg x
    have givenUp {q : ℚ} (large : 1 ≤ |q|) (none : hold q = none) (within : |q| ≤ |p| * |s| ^ n)
        (result : squaring hold p s n = Option.none) :
        (∀ x, squaring hold p s n = some x → 1 ≤ |x|) ∧
          (squaring hold p s n).elim bound abs * part ^ (2 * n) ≤ |p| * |s| ^ n := by
      have size := keeps.size large
      rw [none] at size
      rw [result]
      refine ⟨nofun, le_trans ?_ (size.trans within)⟩
      exact mul_le_mul_of_nonneg_left (pow_le_of_le_one positive proper (by omega)) wide
    cases taken : heldDigit hold p s n with
    | none =>
      unfold heldDigit at taken
      split at taken
      · refine givenUp (one_le_abs_mul left right) taken ?_
          (squaring_none (by rwa [heldDigit, if_pos ‹_›]))
        rw [abs_mul]
        exact mul_le_mul_of_nonneg_left (le_self_pow₀ right some_digit) (abs_nonneg p)
      · cases taken
    | some p' =>
      obtain ⟨left', product⟩ := keeps.digit left right taken
      by_cases last : n / 2 = 0
      · rw [squaring_last last, taken]
        refine ⟨fun x same => by cases same; exact left', ?_⟩
        calc
          |p'| * part ^ (2 * n) ≤ |p'| * part ^ (n % 2) :=
            mul_le_mul_of_nonneg_left (pow_le_pow_of_le_one positive proper (by omega))
              (abs_nonneg p')
          _ ≤ |p| * |s| ^ (n % 2) := product
          _ = |p| * |s| ^ n := by rw [Nat.mod_eq_of_lt (by omega)]
      · have square := one_le_abs_mul right right
        cases squared : hold (s * s) with
        | none =>
          refine givenUp square squared ?_ (by rw [squaring_next last taken, squared]; rfl)
          rw [abs_mul, ← sq]
          exact (pow_le_pow_right₀ right (by omega)).trans
            (le_mul_of_one_le_left (by positivity) left)
        | some s' =>
          obtain ⟨large, later⟩ := ih (n / 2) (by omega) left' (keeps.large square squared) last
          have size := keeps.size square
          rw [squared, Option.elim_some, abs_mul] at size
          rw [squaring_step last taken squared]
          refine ⟨large, ?_⟩
          generalize squaring hold p' s' (n / 2) = result at later
          calc
            result.elim bound abs * part ^ (2 * n) ≤
                result.elim bound abs * part ^ (2 * (n / 2)) * part ^ (n % 2 + n / 2) := by
              rw [mul_assoc, ← pow_add]
              refine mul_le_mul_of_nonneg_left (pow_le_pow_of_le_one positive proper ?_) (sizeOf _)
              exact (Nat.add_comm _ _).trans_le (digit_losses n)
            _ ≤ |p'| * |s'| ^ (n / 2) * part ^ (n % 2 + n / 2) :=
              mul_le_mul_of_nonneg_right later (pow_nonneg positive _)
            _ ≤ |p| * |s| ^ (n % 2) * (|s| * |s|) ^ (n / 2) :=
              losses_add (abs_nonneg _) (abs_nonneg _) positive product size
            _ = |p| * |s| ^ n := by rw [mul_assoc, ← pow_halves]

end KeepsLarge

/-! Up to one -/

/-- Numbers up to one stay there, and lose no more than a fixed part unless they are below the
    least. -/
structure KeepsSmall (hold : ℚ → Option ℚ) (least part : ℚ) : Prop where
  size : ∀ {q}, |q| ≤ 1 → least ≤ |q| → ∃ x, hold q = some x ∧ |x| ≤ 1 ∧ |q| * part ≤ |x|

namespace KeepsSmall

variable {hold : ℚ → Option ℚ} {least part p s : ℚ} {n : Nat}

theorem digit (keeps : KeepsSmall hold least part) (left : |p| ≤ 1) (right : |s| ≤ 1)
    (enough : n % 2 = 1 → least ≤ |p * s|) :
    ∃ x, heldDigit hold p s n = some x ∧ |x| ≤ 1 ∧
      |p| * |s| ^ (n % 2) * part ^ (n % 2) ≤ |x| := by
  unfold heldDigit
  rcases Nat.mod_two_eq_zero_or_one n with even | odd
  · rw [even, if_neg nofun, pow_zero, pow_zero, mul_one, mul_one]
    exact ⟨p, rfl, left, le_rfl⟩
  · rw [odd, if_pos rfl, pow_one, pow_one, ← abs_mul]
    exact keeps.size (abs_mul_le_one left right) (enough odd)

theorem step (keeps : KeepsSmall hold least part) (positive : 0 ≤ part) (proper : part ≤ 1)
    (left : |p| ≤ 1) (right : |s| ≤ 1) (enough : n % 2 = 1 → least ≤ |p * s|)
    (square : least ≤ |s * s|) :
    ∃ p' s', heldDigit hold p s n = some p' ∧ hold (s * s) = some s' ∧ |p'| ≤ 1 ∧ |s'| ≤ 1 ∧
      |p| * |s| ^ n * part ^ (2 * n) ≤ |p'| * |s'| ^ (n / 2) * part ^ (2 * (n / 2)) := by
  obtain ⟨p', taken, left', product⟩ := keeps.digit left right enough
  obtain ⟨s', squared, right', size⟩ := keeps.size (abs_mul_le_one right right) square
  rw [abs_mul] at size
  refine ⟨p', s', taken, squared, left', right', ?_⟩
  calc
    |p| * |s| ^ n * part ^ (2 * n) ≤
        |p| * |s| ^ n * part ^ (n % 2 + n / 2) * part ^ (2 * (n / 2)) := by
      rw [mul_assoc (|p| * |s| ^ n), ← pow_add]
      exact mul_le_mul_of_nonneg_left
        (pow_le_pow_of_le_one positive proper (digit_losses n)) (by positivity)
    _ ≤ |p'| * |s'| ^ (n / 2) * part ^ (2 * (n / 2)) := by
      refine mul_le_mul_of_nonneg_right ?_ (pow_nonneg positive _)
      rw [pow_halves |s| n, ← mul_assoc]
      exact losses_add (by positivity) (by positivity) positive product size

theorem squaring (keeps : KeepsSmall hold least part) (positive : 0 ≤ part) (proper : part ≤ 1)
    (left : |p| ≤ 1) (right : |s| ≤ 1) (some_digit : n ≠ 0)
    (enough : least ≤ |p| * |s| ^ n * part ^ (2 * n)) :
    ∃ x, squaring hold p s n = some x ∧ |x| ≤ 1 ∧ |p| * |s| ^ n * part ^ (2 * n) ≤ |x| := by
  induction n using Nat.strongRecOn generalizing p s with
  | ind n ih =>
    have whole : least ≤ |p| * |s| ^ n :=
      enough.trans (mul_le_of_le_one_right (by positivity) (pow_le_one₀ positive proper))
    have product : least ≤ |p * s| := by
      rw [abs_mul]
      refine whole.trans (mul_le_mul_of_nonneg_left ?_ (abs_nonneg p))
      exact pow_le_of_le_one (abs_nonneg s) right some_digit
    by_cases last : n / 2 = 0
    · obtain ⟨x, taken, small, size⟩ := keeps.digit left right fun _ : n % 2 = 1 => product
      refine ⟨x, by rw [squaring_last last, taken], small, le_trans ?_ size⟩
      rw [Nat.mod_eq_of_lt (by omega : n < 2)]
      exact mul_le_mul_of_nonneg_left (pow_le_pow_of_le_one positive proper (by omega))
        (by positivity)
    · have square : least ≤ |s * s| := by
        rw [abs_mul, ← sq]
        refine whole.trans ((mul_le_of_le_one_left (by positivity) left).trans ?_)
        exact pow_le_pow_of_le_one (abs_nonneg s) right (by omega)
      obtain ⟨p', s', taken, squared, left', right', later⟩ :=
        keeps.step (n := n) positive proper left right (fun _ => product) square
      obtain ⟨x, made, small, kept⟩ := ih (n / 2) (by omega) left' right' last (enough.trans later)
      exact ⟨x, by rw [squaring_step last taken squared, made], small, later.trans kept⟩

end KeepsSmall

end Formulary
