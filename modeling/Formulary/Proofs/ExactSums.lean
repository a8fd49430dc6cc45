import Mathlib.Algebra.BigOperators.Group.List.Basic
import Mathlib.Data.List.Perm.Basic
import Formulary.Function.Aggregate
import Formulary.Proofs.NumericTexts

/-!
Sums of integers, which may stand in lists at any depth and be spelt as texts. The total leaves the
words and comes back to them as it is added up, and is exact while a decimal can hold it. Neither
the lists nor the order have a part in it.
-/
namespace Formulary

theorem Decimal.toRat_ofInt {i : Int} (bounded : i.natAbs < widthBound) :
    (ofInt i bounded).toRat = i := by
  have whole : (Number.decimal (ofInt i bounded)).IsWhole i := ⟨rfl, rfl⟩
  exact whole.toRat

/-! Leaves -/

namespace Value

def leaves : List Value → List Value
  | [] => []
  | list items :: rest => leaves items ++ leaves rest
  | value :: rest => value :: leaves rest

theorem numbers_eq_mapM (arguments : List Value) :
    numbers arguments = (leaves arguments).mapM toNumber := by
  fun_induction leaves arguments with
  | case1 =>
    rw [numbers, List.mapM_nil]
    rfl
  | case2 rest items inner outer => rw [numbers, List.mapM_append, inner, outer]
  | case3 value rest noList ih =>
    rw [numbers, List.mapM_cons, ih]
    exact noList

/-- A leaf that is an integer of a word: as a number, or spelt in digits, perhaps with a minus in
front. -/
inductive Denotes : Value → Int → Prop
  | number {i : Int} (fits : InWord i) : Denotes (.number (.integer i fits)) i
  | digits {text : String} {size : Nat} (some_digit : text.toList ≠ [])
      (plain : ∀ c ∈ text.toList, c.isDigit = true)
      (value : Nat.ofDigitChars 10 text.toList 0 = size) (fits : InWord size) :
      Denotes (.text text) size
  | minus {text : String} {digits : List Char} {size : Nat} (spelt : text.toList = '-' :: digits)
      (some_digit : digits ≠ []) (plain : ∀ c ∈ digits, c.isDigit = true)
      (value : Nat.ofDigitChars 10 digits 0 = size) (fits : InWord (-size)) :
      Denotes (.text text) (-size)

namespace Denotes

variable {value : Value} {i j : Int}

theorem bounded_of_fits (fits : InWord i) : i.natAbs < Decimal.widthBound :=
  Nat.lt_of_le_of_lt fits.natAbs_le (by decide)

theorem decimal?_of_digits {digits : List Char} {size : Nat} (some_digit : digits ≠ [])
    (plain : ∀ c ∈ digits, c.isDigit = true) (value : Nat.ofDigitChars 10 digits 0 = size)
    (bounded : (size : Int).natAbs < Decimal.widthBound) :
    PlainNumeral.decimal? digits = some (.ofInt size bounded) := by
  refine PlainNumeral.decimal?_of_room (.whole some_digit plain) ?_ ?_
  · rw [PlainNumeral.coefficient_whole plain, value]
    rfl
  · rw [PlainNumeral.places_whole plain]
    rfl

theorem toNumber_of_ofText {text : String} {d : Decimal} (fits : InWord i) (whole : d.toRat = i)
    (spells : Number.ofText text = .ok (.decimal d)) :
    (Value.text text).toNumber = .ok (.integer i fits) := by
  rw [Value.toNumber, spells, Except.map, Number.narrow_of_fits whole fits]

theorem toNumber (denotes : Denotes value i) :
    ∃ fits : InWord i, value.toNumber = .ok (.integer i fits) := by
  cases denotes with
  | number fits => exact ⟨fits, rfl⟩
  | @digits text size some_digit plain value fits =>
    have bounded := bounded_of_fits fits
    have numeral : PlainNumeral Char.isDigit text.toList := .whole some_digit plain
    refine ⟨fits, toNumber_of_ofText fits (Decimal.toRat_ofInt bounded) ?_⟩
    rw [numeral.decimalDigits.ofText_plain, decimal?_of_digits some_digit plain value bounded,
      Option.elim_some]
  | @minus text digits size spelt some_digit plain value fits =>
    have bounded : (size : Int).natAbs < Decimal.widthBound :=
      Int.natAbs_neg size ▸ bounded_of_fits fits
    have numeral : PlainNumeral Char.isDigit digits := .whole some_digit plain
    have whole : (Decimal.ofInt size bounded).neg.toRat = (-size : Int) := by
      rw [Decimal.toRat_neg, Decimal.toRat_ofInt, Int.cast_neg]
    refine ⟨fits, toNumber_of_ofText fits whole ?_⟩
    rw [numeral.decimalDigits.ofText_minus spelt,
      decimal?_of_digits some_digit plain value bounded, Option.elim_some]

theorem unique (left : Denotes value i) (right : Denotes value j) : i = j := by
  obtain ⟨fits, here⟩ := left.toNumber
  obtain ⟨fits', there⟩ := right.toNumber
  rw [here] at there
  cases there
  rfl

end Denotes

theorem numbers_of_denotes {arguments : List Value} {is : List Int}
    (denote : List.Forall₂ Denotes (leaves arguments) is) :
    ∃ ns, numbers arguments = .ok ns ∧ List.Forall₂ Number.IsWhole ns is := by
  rw [numbers_eq_mapM]
  generalize leaves arguments = values at denote
  induction denote with
  | nil => exact ⟨[], rfl, .nil⟩
  | @cons value i values is first _ ih =>
    obtain ⟨fits, reads⟩ := first.toNumber
    obtain ⟨ns, others, whole⟩ := ih
    refine ⟨.integer i fits :: ns, ?_, .cons (Number.isWhole_integer i fits) whole⟩
    rw [List.mapM_cons, reads, others]
    rfl

end Value

open Value (leaves Denotes)

namespace Aggregate

/-! Adding up -/

variable {t : Int} {is : List Int} {ns : List Number} {total final : Number}

theorem apply_addition {i : Int} {n : Number} (left : total.IsWhole t) (right : n.IsWhole i) :
    GivesWhole (Arithmetic.addition.apply (.number total) (.number n)) (t + i) := by
  have known : Arithmetic.addition.onWhole? t i = some (t + i) := rfl
  exact Arithmetic.apply_whole known left right

theorem isWhole_of_sumFrom (start : total.IsWhole t) (whole : List.Forall₂ Number.IsWhole ns is)
    (done : sumFrom total ns = .ok final) : final.IsWhole (t + is.sum) := by
  induction whole generalizing total t with
  | nil =>
    cases done
    rwa [List.sum_nil, Int.add_zero]
  | @cons n i ns is first _ ih =>
    have step := apply_addition start first
    rw [sumFrom] at done
    cases next : Arithmetic.addition.apply (.number total) (.number n) with
    | error e =>
      rw [next] at done
      cases done
    | ok subtotal =>
      rw [next] at done step
      have all := ih step.isWhole done
      rwa [Int.add_assoc, ← List.sum_cons] at all

theorem sumFrom_isOk (start : total.IsWhole t) (whole : List.Forall₂ Number.IsWhole ns is)
    (bounded : ∀ part, part <+: is → (t + part.sum).natAbs < Decimal.widthBound) :
    ∃ final, sumFrom total ns = .ok final := by
  induction whole generalizing total t with
  | nil => exact ⟨total, rfl⟩
  | @cons n i ns is first _ ih =>
    have later : ∀ part, part <+: is → (t + i + part.sum).natAbs < Decimal.widthBound := by
      intro part before
      have next := bounded (i :: part) (List.cons_prefix_cons.mpr ⟨rfl, before⟩)
      rwa [List.sum_cons, ← Int.add_assoc] at next
    have fits : (t + i).natAbs < Decimal.widthBound := by
      simpa using later [] List.nil_prefix
    obtain ⟨subtotal, next, held⟩ := (apply_addition start first).1 fits
    obtain ⟨final, done⟩ := ih held later
    refine ⟨final, ?_⟩
    rw [sumFrom, next]
    exact done

theorem isWhole_zero : Number.zero.IsWhole 0 := ⟨rfl, rfl⟩

/-- Arguments whose leaves are these integers, and whose totals from left to right can be held. -/
structure Summable (arguments : List Value) (is : List Int) : Prop where
  leaves : List.Forall₂ Denotes (leaves arguments) is
  bounded : ∀ part ∈ is.inits, part.sum.natAbs < Decimal.widthBound

theorem Summable.sum {arguments : List Value} (summable : Summable arguments is) :
    ∃ n, Aggregate.sum arguments = .ok (.number n) ∧ n.IsWhole is.sum := by
  obtain ⟨ns, reads, whole⟩ := Value.numbers_of_denotes summable.leaves
  obtain ⟨n, done⟩ := sumFrom_isOk isWhole_zero whole fun part before => by
    rw [Int.zero_add]
    exact summable.bounded part ((List.mem_inits part is).mpr before)
  have total := isWhole_of_sumFrom isWhole_zero whole done
  rw [Int.zero_add] at total
  refine ⟨n, ?_, total⟩
  rw [Aggregate.sum, reads]
  exact congrArg (Except.map Value.number) done

/-- The sum of integers is exact. Other arguments with the same leaves, in whatever lists and order
they are, have the same sum. -/
theorem sum_exact (arguments : List Value) (is : List Int) (summable : Summable arguments is) :
    (∃ n, sum arguments = .ok (.number n) ∧ n.toRat = is.sum) ∧
      ∀ others js, Summable others js → (leaves arguments).Perm (leaves others) →
        ∃ n m, sum arguments = .ok (.number n) ∧ sum others = .ok (.number m) ∧
          n.order m = .eq := by
  obtain ⟨n, made, whole⟩ := summable.sum
  refine ⟨⟨n, made, whole.toRat⟩, ?_⟩
  intro others js summable' same
  obtain ⟨m, made', whole'⟩ := summable'.sum
  have unique : Relator.RightUnique Denotes := fun _ _ _ => Denotes.unique
  have permuted : is.Perm js :=
    List.rel_perm_imp unique summable.leaves summable'.leaves same
  refine ⟨n, m, made, made', (n.order_eq_iff m).mpr ?_⟩
  rw [whole.toRat, whole'.toRat, permuted.sum_eq]

/-- A total that leaves the words with the third leaf and comes back with the fourth. -/
theorem sum_exact_beyond_words :
    let most : Value := .number (.integer 9223372036854775807 (by decide))
    let least : Value := .number (.integer (-9223372036854775808) (by decide))
    let arguments :=
      [.list [most, .list [.text "-007"]], .list [], .text "9223372036854775807", least]
    let others := [.list [.text "9223372036854775807", .list [least, most]], .text "-007"]
    let is := [9223372036854775807, -7, 9223372036854775807, -9223372036854775808]
    let js := [9223372036854775807, -9223372036854775808, 9223372036854775807, -7]
    Summable arguments is ∧ Summable others js ∧ (leaves arguments).Perm (leaves others) ∧
      (∃ n, sum arguments = .ok (.number n) ∧ n.toRat = 9223372036854775799) ∧
      ∃ n m, sum arguments = .ok (.number n) ∧ sum others = .ok (.number m) ∧ n.order m = .eq := by
  intro most least arguments others is js
  have greatest : Denotes most 9223372036854775807 := .number (by decide)
  have lowest : Denotes least (-9223372036854775808) := .number (by decide)
  have seven : Denotes (.text "-007") (-7) :=
    .minus rfl (by decide) (by decide) (by decide) (by decide)
  have spelt : Denotes (.text "9223372036854775807") 9223372036854775807 :=
    .digits (by decide) (by decide) (by decide) (by decide)
  have laid : leaves arguments = [most, .text "-007"] ++ [.text "9223372036854775807", least] := by
    simp [arguments, most, least, leaves]
  have laid' : leaves others = [.text "9223372036854775807", least] ++ [most, .text "-007"] := by
    simp [others, most, least, leaves]
  have summable : Summable arguments is := by
    refine ⟨?_, by decide⟩
    rw [laid]
    exact .cons greatest (.cons seven (.cons spelt (.cons lowest .nil)))
  have summable' : Summable others js := by
    refine ⟨?_, by decide⟩
    rw [laid']
    exact .cons spelt (.cons lowest (.cons greatest (.cons seven .nil)))
  have same : (leaves arguments).Perm (leaves others) := by
    rw [laid, laid']
    exact List.perm_append_comm
  obtain ⟨⟨n, made, value⟩, again⟩ := sum_exact arguments is summable
  refine ⟨summable, summable', same, ⟨n, made, value.trans ?_⟩, again others js summable' same⟩
  norm_num [is]

end Aggregate

end Formulary
