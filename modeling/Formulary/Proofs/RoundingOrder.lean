import Formulary.Proofs.EqualNumbers
import Formulary.Proofs.RoundedPlaces

/-!
Rounding keeps the order of numbers, and changes nothing that has been rounded to the same places.
On the left of the point this holds though the number is held in units first, as what is held keeps
the order as well.
-/
namespace Formulary

/-! The whole number that a mode takes -/

namespace Rounding

variable {mode : Rounding} {x y : ℚ} {k m : Int}

/-- Of two halves that are equal the same neighbour is taken, so no order is reversed. -/
theorem near_mono (left : mode.Near 1 x k) (right : mode.Near 1 y m) (below : x ≤ y) : k ≤ m := by
  by_contra above
  have next : (m : ℚ) + 1 ≤ k := by exact_mod_cast not_le.mp above
  cases mode with
  | ceiling | floor =>
    obtain ⟨low, high⟩ := left
    obtain ⟨low', high'⟩ := right
    linarith
  | halfAwayFromZero =>
    obtain ⟨-, most⟩ := abs_le.mp left.1
    obtain ⟨least, -⟩ := abs_le.mp right.1
    obtain rfl : x = m + 1 / 2 := by linarith
    obtain rfl : y = m + 1 / 2 := by linarith
    rcases half_away left with ⟨rfl, -⟩ | ⟨-, nonneg⟩
    · exact above (le_refl k)
    · rcases half_away right with ⟨-, negative⟩ | ⟨wrong, -⟩
      · linarith
      · omega

theorem eq_of_near (near : mode.Near 1 (k : ℚ) m) : m = k := by
  have self : mode.Near 1 (k : ℚ) k := near_self one_pos
  exact le_antisymm (near_mono near self (le_refl _)) (near_mono self near (le_refl _))

end Rounding

/-! Rounding -/

namespace Number

open Decimal (maxScale held?)

variable {mode : Rounding} {places : Int} {n n' r r' : Number} {m : Int}

/-- The number `q` in units of the last place, as it is rounded: on the left of the point that is as
    much of it as can be held. -/
def counted? (places : Int) (q : ℚ) : Option ℚ :=
  if places < 0 then held? (q * 10 ^ places) else some (q * 10 ^ places)

theorem unit_pos (places : Int) : (0 : ℚ) < 10 ^ (-places) := zpow_pos (by norm_num) _

theorem units_of_multiple (i : ℚ) (places : Int) : i * 10 ^ (-places) * 10 ^ places = i := by
  rw [mul_assoc, ← zpow_add₀ (by norm_num : (10 : ℚ) ≠ 0), neg_add_cancel, zpow_zero, mul_one]

theorem counted?_mono {q q' x x' : ℚ} (below : q ≤ q') (here : counted? places q = some x)
    (there : counted? places q' = some x') : x ≤ x' := by
  have scale : (0 : ℚ) < 10 ^ places := zpow_pos (by norm_num) _
  have units := mul_le_mul_of_nonneg_right below scale.le
  unfold counted? at here there
  split at here
  · next left =>
    rw [if_pos left] at there
    exact Decimal.held?_mono units here there
  · next right =>
    rw [if_neg right, Option.some_inj] at there
    rw [Option.some_inj] at here
    rwa [← here, ← there]

theorem roundsTo_of_round (rounded : n.round mode places = .ok r) :
    RoundsTo mode places n.toRat r := by
  have promise : (∃ s, n.round mode places = .ok s ∧ RoundsTo mode places n.toRat s) ∨
      n.round mode places = .error (.overflow .rounding) := by
    rcases lt_or_ge places 0 with left | right
    · exact roundsTo_left left
    · exact .inl (roundsTo_right right)
  obtain ⟨s, made, promise⟩ | failed := promise
  · rw [made] at rounded
    cases rounded
    exact promise
  · rw [failed] at rounded
    cases rounded

theorem low_of_round (left : places < 0) (rounded : n.round mode places = .ok r) :
    places.natAbs ≤ maxScale := by
  by_contra wide
  rw [round_of_wide mode left (not_le.mp wide) n] at rounded
  cases rounded

theorem counted_of_round (rounded : n.round mode places = .ok r) :
    ∃ x, ∃ m : Int, counted? places n.toRat = some x ∧ mode.Near 1 x m ∧
      r.toRat = m * 10 ^ (-places) := by
  rcases lt_or_ge places 0 with left | right
  · have low := low_of_round left rounded
    obtain ⟨x, m, held, near, ⟨-, failed⟩ | ⟨d, value, made⟩⟩ := round_of_neg mode left low n
    · rw [failed] at rounded
      cases rounded
    · rw [made] at rounded
      cases rounded
      exact ⟨x, m, by rw [counted?, if_pos left, held], near, (toRat_narrow d).trans value⟩
  · have promise := roundsTo_of_round rounded
    obtain ⟨m, multiple⟩ := promise.multiple
    have near := promise.right right
    have number : n.toRat * 10 ^ places * 10 ^ (-places) = n.toRat := by
      have back := units_of_multiple n.toRat (-places)
      rwa [neg_neg] at back
    rw [multiple, ← number] at near
    exact ⟨_, m, by rw [counted?, if_neg (not_lt.mpr right)],
      (Rounding.near_mul (unit_pos places)).mp near, multiple⟩

theorem round_mono (below : n.toRat ≤ n'.toRat) (left : n.round mode places = .ok r)
    (right : n'.round mode places = .ok r') : r.toRat ≤ r'.toRat := by
  obtain ⟨x, k, counted, near, value⟩ := counted_of_round left
  obtain ⟨x', m, counted', near', value'⟩ := counted_of_round right
  have order : k ≤ m := Rounding.near_mono near near' (counted?_mono below counted counted')
  rw [value, value']
  exact mul_le_mul_of_nonneg_right (by exact_mod_cast order) (unit_pos places).le

theorem kind_of_round (left : n.round mode places = .ok r) (right : n'.round mode places = .ok r')
    (same : r.toRat = r'.toRat) : r.isInteger = r'.isInteger := by
  rcases lt_or_ge 0 places with positive | nonpos
  · rw [round_of_pos positive] at left right
    cases left
    cases right
    rfl
  · have kind := (roundsTo_of_round left).integer nonpos
    have kind' := (roundsTo_of_round right).integer nonpos
    rw [Bool.eq_iff_iff, kind, kind', same]

theorem whole_of_round (rounded : n.round mode places = .ok r) {x : ℚ}
    (counted : counted? places r.toRat = some x) :
    ∃ k : Int, x = k ∧ r.toRat = k * 10 ^ (-places) := by
  obtain ⟨-, k, -, -, value⟩ := counted_of_round rounded
  refine ⟨k, ?_, value⟩
  unfold counted? at counted
  rw [value, units_of_multiple] at counted
  split at counted
  · exact Decimal.held?_of_whole counted
  · exact (Option.some.inj counted).symm

theorem exists_round_again (rounded : n.round mode places = .ok r) :
    ∃ r', r.round mode places = .ok r' := by
  rcases lt_or_ge places 0 with left | right
  · have low := low_of_round left rounded
    obtain ⟨x, m, held, near, ⟨failed, -⟩ | ⟨d, -, made⟩⟩ := round_of_neg mode left low r
    · have counted : counted? places r.toRat = some x := by rw [counted?, if_pos left, held]
      obtain ⟨k, rfl, value⟩ := whole_of_round rounded counted
      rw [Rounding.eq_of_near near, ← value] at failed
      have all : held? r.toRat = some r.toRat := Decimal.held?_toRat _
      rw [failed] at all
      cases all
    · exact ⟨_, made⟩
  · have made : ∃ r', r.round mode places = .ok r' ∧ RoundsTo mode places r.toRat r' :=
      roundsTo_right right
    obtain ⟨r', made, -⟩ := made
    exact ⟨r', made⟩

/-- Rounding again changes neither the value nor the kind. -/
theorem twin_of_round (rounded : n.round mode places = .ok r)
    (again : r.round mode places = .ok r') : Twin r' r := by
  obtain ⟨x, m, counted, near, value⟩ := counted_of_round again
  obtain ⟨k, rfl, multiple⟩ := whole_of_round rounded counted
  have same : r'.toRat = r.toRat := by rw [value, multiple, Rounding.eq_of_near near]
  exact ⟨same, kind_of_round again rounded same⟩

theorem order_le_iff (a b : Number) : a.order b ≠ .gt ↔ a.toRat ≤ b.toRat := by
  rw [order_eq_compare, ne_eq, compare_gt_iff_gt, not_lt]

/-- Rounding to the same places again succeeds, with the same number in the same form, and the
    roundings of two numbers are in the order of the numbers. -/
theorem round_settles (mode : Rounding) (places : Int) :
    (∀ n r : Number, n.round mode places = .ok r →
      ∃ r', r.round mode places = .ok r' ∧ r'.order r = .eq ∧ r'.isInteger = r.isInteger) ∧
    ∀ n n' r r' : Number, n.order n' ≠ .gt → n.round mode places = .ok r →
      n'.round mode places = .ok r' → r.order r' ≠ .gt := by
  refine ⟨fun n r rounded => ?_, fun n n' r r' below left right => ?_⟩
  · obtain ⟨r', again⟩ := exists_round_again rounded
    obtain ⟨value, kind⟩ := twin_of_round rounded again
    exact ⟨r', again, (order_eq_iff r' r).mpr value, kind⟩
  · rw [order_le_iff] at below ⊢
    exact round_mono below left right

/-- The least integer is rounded to a number that no word holds, and this one to itself. -/
theorem round_settles_least :
    let least : Number := .integer (-0x8000000000000000) (by decide)
    let five : Number := .integer (-5) (by decide)
    let wide : Number := .decimal ⟨-9223372036854775810, 0, by decide, by decide⟩
    let ten : Number := .integer (-10) (by decide)
    least.round .halfAwayFromZero (-1) = .ok wide ∧
      (∃ r', wide.round .halfAwayFromZero (-1) = .ok r' ∧ r'.order wide = .eq ∧
        r'.isInteger = wide.isInteger) ∧
      least.order five ≠ .gt ∧ five.round .halfAwayFromZero (-1) = .ok ten ∧
      wide.order ten ≠ .gt := by
  intro least five wide ten
  obtain ⟨again, ordered⟩ := round_settles .halfAwayFromZero (-1)
  have left : least.round .halfAwayFromZero (-1) = .ok wide := by decide
  have right : five.round .halfAwayFromZero (-1) = .ok ten := by decide
  have below : least.order five ≠ .gt := by decide
  exact ⟨left, again least wide left, below, right, ordered least five wide ten below left right⟩

end Number

end Formulary
