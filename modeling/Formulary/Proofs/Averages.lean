import Mathlib.Algebra.Order.BigOperators.Group.List
import Formulary.Proofs.Extremes
import Formulary.Proofs.RoundingOrder

/-!
Averages of integers. The sum is exact, and to round the quotient does not take it past a number
that a decimal holds. So an average lies between the least and the greatest of its numbers.
-/
namespace Formulary

open Value (leaves)
open Number (IsWhole)
open Decimal (held?)

theorem Value.numbers_of_leaves {arguments : List Value} {ns : List Number}
    (laid : leaves arguments = ns.map number) : numbers arguments = .ok ns := by
  rw [numbers_eq_mapM, laid]
  clear laid
  induction ns with
  | nil =>
    rw [List.map_nil, List.mapM_nil]
    rfl
  | cons n ns ih =>
    rw [List.map_cons, List.mapM_cons, ih]
    rfl

theorem Number.toRat_of_ofInt? {i : Int} {n : Number} (made : ofInt? i = some n) :
    n.toRat = i := by
  unfold ofInt? at made
  split at made
  · next fits =>
    cases made
    exact toRat_integer i fits
  · cases made

theorem Arithmetic.held_of_division {l r n : Number}
    (done : division.apply (.number l) (.number r) = .ok n) :
    held? (l.toRat / r.toRat) = some n.toRat := by
  rw [apply_division] at done
  split at done
  · cases done
  · next someDivisor =>
    have nonzero : r.toDecimal.toRat ≠ 0 := mt r.toDecimal.isZero_iff.mpr someDivisor
    split at done
    · next d made =>
      cases done
      have held := Decimal.div?_held (a := l.operand) nonzero
      rw [l.toRat_operand] at held
      rw [Number.toRat_narrow, ← Option.map_some, ← made]
      exact held.symm
    · cases done

namespace Aggregate

variable {arguments : List Value} {ns : List Number} {is : List Int}

/-! Extremes -/

theorem minimum_least (reads : Value.numbers arguments = .ok ns) (nonempty : ns ≠ []) :
    ∃ least, minimum arguments = .ok (.number least) ∧ least ∈ ns ∧
      ∀ n ∈ ns, least.toRat ≤ n.toRat := by
  obtain ⟨least, made, found⟩ := extreme_first less_iff "MIN" reads nonempty
  exact ⟨least, made, found.mem, fun n among => not_lt.mp (found.not_ahead n among)⟩

theorem maximum_greatest (reads : Value.numbers arguments = .ok ns) (nonempty : ns ≠ []) :
    ∃ most, maximum arguments = .ok (.number most) ∧ most ∈ ns ∧
      ∀ n ∈ ns, n.toRat ≤ most.toRat := by
  obtain ⟨most, made, found⟩ := extreme_first greater_iff "MAX" reads nonempty
  exact ⟨most, made, found.mem, fun n among => not_lt.mp (found.not_ahead n among)⟩

/-! Quotients -/

theorem exists_whole (integers : ∀ n ∈ ns, n.isInteger = true) :
    ∃ is, List.Forall₂ IsWhole ns is := by
  induction ns with
  | nil => exact ⟨[], .nil⟩
  | cons n ns ih =>
    obtain ⟨isInteger, others⟩ := List.forall_mem_cons.mp integers
    obtain ⟨is, whole⟩ := ih others
    cases n with
    | integer i fits => exact ⟨i :: is, .cons (Number.isWhole_integer i fits) whole⟩
    | decimal d => cases isInteger

theorem sum_toRat (whole : List.Forall₂ IsWhole ns is) :
    (is.sum : ℚ) = (ns.map Number.toRat).sum := by
  induction whole with
  | nil => rfl
  | cons first _ ih =>
    rw [List.sum_cons, Int.cast_add, ih, List.map_cons, List.sum_cons, first.toRat]

theorem toRat_of_sum (reads : Value.numbers arguments = .ok ns)
    (integers : ∀ n ∈ ns, n.isInteger = true) {v : Value} (done : sum arguments = .ok v) :
    ∃ total, v = .number total ∧ total.toRat = (ns.map Number.toRat).sum := by
  obtain ⟨is, whole⟩ := exists_whole integers
  rw [sum, reads] at done
  obtain ⟨numbers, same, done⟩ := bind_eq_ok.mp done
  cases same
  obtain ⟨total, added, same⟩ := bind_eq_ok.mp done
  cases same
  have exact := (isWhole_of_sumFrom isWhole_zero whole added).toRat
  rw [Int.zero_add, sum_toRat whole] at exact
  exact ⟨total, rfl, exact⟩

theorem held_of_average (reads : Value.numbers arguments = .ok ns)
    (integers : ∀ n ∈ ns, n.isInteger = true) {q : Value} (done : average arguments = .ok q) :
    ns ≠ [] ∧ ∃ mean, q = .number mean ∧
      held? ((ns.map Number.toRat).sum / ns.length) = some mean.toRat := by
  rw [average, reads] at done
  obtain ⟨numbers, same, done⟩ := bind_eq_ok.mp done
  cases same
  split at done
  · cases done
  · next someNumbers =>
    obtain ⟨total, added, done⟩ := bind_eq_ok.mp done
    obtain ⟨total, rfl, exact⟩ := toRat_of_sum reads integers added
    split at done
    · next count counted =>
      obtain ⟨mean, divided, same⟩ := bind_eq_ok.mp done
      cases same
      refine ⟨fun empty => someNumbers (List.isEmpty_iff.mpr empty), mean, rfl, ?_⟩
      have length := Number.toRat_of_ofInt? counted
      rw [Int.cast_natCast] at length
      rw [← exact, ← length]
      exact Arithmetic.held_of_division divided
    · cases done

theorem le_held {low : Number} {x : ℚ} (nonempty : ns ≠ [])
    (least : ∀ n ∈ ns, low.toRat ≤ n.toRat)
    (held : held? ((ns.map Number.toRat).sum / ns.length) = some x) : low.toRat ≤ x := by
  have count : (0 : ℚ) < ns.length := Nat.cast_pos.mpr (List.length_pos_iff.mpr nonempty)
  have total : ns.length • low.toRat ≤ (ns.map Number.toRat).sum := by
    have all := List.card_nsmul_le_sum (ns.map Number.toRat) low.toRat (by simpa using least)
    rwa [List.length_map] at all
  refine Decimal.held?_mono ?_ low.toDecimal.held?_toRat held
  rwa [le_div_iff₀ count, mul_comm, ← nsmul_eq_mul]

theorem held_le {high : Number} {x : ℚ} (nonempty : ns ≠ [])
    (greatest : ∀ n ∈ ns, n.toRat ≤ high.toRat)
    (held : held? ((ns.map Number.toRat).sum / ns.length) = some x) : x ≤ high.toRat := by
  have count : (0 : ℚ) < ns.length := Nat.cast_pos.mpr (List.length_pos_iff.mpr nonempty)
  have total : (ns.map Number.toRat).sum ≤ ns.length • high.toRat := by
    have all := List.sum_le_card_nsmul (ns.map Number.toRat) high.toRat (by simpa using greatest)
    rwa [List.length_map] at all
  refine Decimal.held?_mono ?_ held high.toDecimal.held?_toRat
  rwa [div_le_iff₀ count, mul_comm, ← nsmul_eq_mul]

/-- The average of integers lies between the least and the greatest of them, and is what they all
are if they are equal. -/
theorem average_between (arguments : List Value) (ns : List Number)
    (laid : leaves arguments = ns.map .number) (integers : ∀ n ∈ ns, n.isInteger = true)
    (q : Value) (done : average arguments = .ok q) :
    ∃ least mean most, minimum arguments = .ok (.number least) ∧ q = .number mean ∧
      maximum arguments = .ok (.number most) ∧ least.order mean ≠ .gt ∧ mean.order most ≠ .gt ∧
      ∀ n, (∀ m ∈ ns, m.order n = .eq) → mean.order n = .eq := by
  have reads := Value.numbers_of_leaves laid
  obtain ⟨nonempty, mean, rfl, held⟩ := held_of_average reads integers done
  obtain ⟨least, madeLeast, -, low⟩ := minimum_least reads nonempty
  obtain ⟨most, madeMost, -, high⟩ := maximum_greatest reads nonempty
  refine ⟨least, mean, most, madeLeast, rfl, madeMost, ?_, ?_, ?_⟩
  · rw [Number.order_le_iff]
    exact le_held nonempty low held
  · rw [Number.order_le_iff]
    exact held_le nonempty high held
  · intro n equal
    have value : ∀ m ∈ ns, m.toRat = n.toRat := fun m member =>
      (m.order_eq_iff n).mp (equal m member)
    rw [Number.order_eq_iff]
    exact le_antisymm (held_le nonempty (fun m member => (value m member).le) held)
      (le_held nonempty (fun m member => (value m member).ge) held)

/-- Five thirds, rounded up in the last place, are less than two. -/
theorem average_between_thirds :
    let one : Number := .integer 1 (by decide)
    let two : Number := .integer 2 (by decide)
    let arguments := [.list [.list [.number two], .number one], .number two]
    let third : Number :=
      .decimal ⟨16666666666666666666666666667, 28, by decide, by decide⟩
    leaves arguments = [two, one, two].map .number ∧
      (∀ n ∈ [two, one, two], n.isInteger = true) ∧
      average arguments = .ok (.number third) ∧
      ∃ least mean most, minimum arguments = .ok (.number least) ∧
        Value.number third = .number mean ∧ maximum arguments = .ok (.number most) ∧
        least.order mean ≠ .gt ∧ mean.order most ≠ .gt := by
  intro one two arguments third
  have laid : leaves arguments = [two, one, two].map .number := by
    simp [arguments, leaves]
  have integers : ∀ n ∈ [two, one, two], n.isInteger = true := by decide
  have done : average arguments = .ok (.number third) := by
    have reads := Value.numbers_of_leaves laid
    have added : sumFrom .zero [two, one, two] = .ok (.integer 5 (by decide)) := by
      decide +kernel
    have divided : Arithmetic.division.apply (.number (.integer 5 (by decide)))
        (.number (.integer 3 (by decide))) = .ok third := by decide +kernel
    have total : sum arguments = .ok (.number (.integer 5 (by decide))) := by
      refine bind_eq_ok.mpr ⟨_, reads, ?_⟩
      exact bind_eq_ok.mpr ⟨_, added, rfl⟩
    have count : Number.ofInt? [two, one, two].length = some (.integer 3 (by decide)) := by
      decide +kernel
    refine bind_eq_ok.mpr ⟨_, reads, ?_⟩
    rw [if_neg (by decide)]
    refine bind_eq_ok.mpr ⟨_, total, ?_⟩
    rw [count]
    exact bind_eq_ok.mpr ⟨third, divided, rfl⟩
  obtain ⟨least, mean, most, madeLeast, same, madeMost, low, high, -⟩ :=
    average_between arguments [two, one, two] laid integers _ done
  exact ⟨laid, integers, done, least, mean, most, madeLeast, same, madeMost, low, high⟩

end Aggregate

end Formulary
