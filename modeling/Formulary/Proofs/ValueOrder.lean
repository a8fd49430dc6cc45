import Mathlib.Data.String.Basic
import Formulary.Comparison
import Formulary.Proofs.EqualNumbers

/-!
Comparing values. Equality looks at what values stand for, through lists of any depth: the size of
a number, the instant of a point in time. Within numbers, texts and points in time there is an order
besides, and it agrees with equality. All other values have none.
-/
namespace Formulary

open Comparator

/-! What values stand for -/

/-- What equality looks at. -/
inductive Meaning where
  | number (size : ℚ)
  | text (s : String)
  | logical (b : Bool)
  | instant (nanoseconds : Int)
  | list (items : List Meaning)
  | null

namespace Value

mutual

def meaning : Value → Meaning
  | number n => .number n.toRat
  | text s => .text s
  | logical b => .logical b
  | dateTime t => .instant t.instant
  | list items => .list (meanings items)
  | null => .null

def meanings : List Value → List Meaning
  | [] => []
  | value :: rest => meaning value :: meanings rest

end

theorem dateTime_order_eq_iff (t u : DateTime) : t.order u = .eq ↔ t.instant = u.instant :=
  compare_eq_iff_eq

mutual

theorem same_iff (a b : Value) : a.same b = true ↔ a.meaning = b.meaning := by
  cases a with
  | number n => cases b <;> simp [same, meaning, Number.order_eq_iff]
  | text s => cases b <;> simp [same, meaning]
  | logical x => cases b <;> simp [same, meaning]
  | dateTime t => cases b <;> simp [same, meaning, dateTime_order_eq_iff]
  | list items =>
    cases b with
    | list others => simp [same, meaning, sameItems_iff items others]
    | _ => simp [same, meaning]
  | null => cases b <;> simp [same, meaning]

theorem sameItems_iff (as bs : List Value) :
    sameItems as bs = true ↔ meanings as = meanings bs := by
  match as, bs with
  | [], [] => simp [sameItems, meanings]
  | [], b :: bs => simp [sameItems, meanings]
  | a :: as, [] => simp [sameItems, meanings]
  | a :: as, b :: bs => simp [sameItems, meanings, same_iff a b, sameItems_iff as bs]

end

/-! The order -/

inductive Comparable : Value → Value → Prop
  | numbers (n m : Number) : Comparable (.number n) (.number m)
  | texts (s t : String) : Comparable (.text s) (.text t)
  | dateTimes (t u : DateTime) : Comparable (.dateTime t) (.dateTime u)

theorem Comparable.symm {a b : Value} (comparable : Comparable a b) : Comparable b a := by
  cases comparable <;> constructor

inductive Ordered : Value → Value → Ordering → Prop
  | numbers (n m : Number) : Ordered (.number n) (.number m) (compare n.toRat m.toRat)
  | texts (s t : String) : Ordered (.text s) (.text t) (compare s t)
  | dateTimes (t u : DateTime) :
      Ordered (.dateTime t) (.dateTime u) (compare t.instant u.instant)

variable {a b c : Value} {order : Ordering}

theorem ordered_iff : Ordered a b order ↔ a.order? b = some order := by
  constructor
  · intro ordered
    cases ordered with
    | numbers n m => exact congrArg some (n.order_eq_compare m)
    | texts s t => rfl
    | dateTimes t u => rfl
  · intro known
    unfold order? at known
    split at known
    · next n m =>
      cases known
      rw [n.order_eq_compare m]
      exact .numbers n m
    · next s t =>
      cases known
      exact .texts s t
    · next t u =>
      cases known
      exact .dateTimes t u
    · cases known

theorem comparable_iff : Comparable a b ↔ ∃ order, Ordered a b order := by
  constructor
  · intro comparable
    cases comparable with
    | numbers n m => exact ⟨_, .numbers n m⟩
    | texts s t => exact ⟨_, .texts s t⟩
    | dateTimes t u => exact ⟨_, .dateTimes t u⟩
  · rintro ⟨order, ordered⟩
    cases ordered <;> constructor

namespace Ordered

theorem swap (ordered : Ordered a b order) : Ordered b a order.swap := by
  cases ordered with
  | numbers n m =>
    rw [← Std.OrientedOrd.eq_swap]
    exact .numbers m n
  | texts s t =>
    rw [← Std.OrientedOrd.eq_swap]
    exact .texts t s
  | dateTimes t u =>
    rw [← Std.OrientedOrd.eq_swap]
    exact .dateTimes u t

theorem eq_iff (ordered : Ordered a b order) : order = .eq ↔ a.meaning = b.meaning := by
  cases ordered <;> simp [meaning]

theorem less_trans {order' : Ordering} (first : Ordered a b order) (less : order = .lt)
    (second : Ordered b c order') (less' : order' = .lt) : Ordered a c .lt := by
  cases first with
  | numbers n m =>
    cases second with
    | numbers _ k =>
      rw [← Std.TransCmp.lt_trans less less']
      exact .numbers n k
  | texts s t =>
    cases second with
    | texts _ r =>
      rw [← Std.TransCmp.lt_trans less less']
      exact .texts s r
  | dateTimes t u =>
    cases second with
    | dateTimes _ r =>
      rw [← Std.TransCmp.lt_trans less less']
      exact .dateTimes t r

end Ordered

end Value

open Value (Comparable Ordered)

/-! Comparisons -/

def ExactlyOne (p q r : Prop) : Prop := (p ∧ ¬ q ∧ ¬ r) ∨ (¬ p ∧ q ∧ ¬ r) ∨ (¬ p ∧ ¬ q ∧ r)

namespace Comparator

def Holds (sign : Comparator) (a b : Value) : Prop := sign.compare a b = .ok true

def IsOrdering : Comparator → Prop
  | less | lessEqual | greater | greaterEqual => True
  | equal | unequal => False

def Relates : Comparator → ℚ → ℚ → Prop
  | less, x, y => x < y
  | lessEqual, x, y => x ≤ y
  | greater, x, y => x > y
  | greaterEqual, x, y => x ≥ y
  | equal, x, y => x = y
  | unequal, x, y => x ≠ y

variable {a b c : Value} {order : Ordering} {sign : Comparator}

theorem compare_ordered (ordered : Ordered a b order) (sign : Comparator) :
    sign.compare a b = .ok (sign.holds order) := by
  unfold compare
  rw [Value.ordered_iff.mp ordered]

theorem holds_ordered (ordered : Ordered a b order) :
    sign.Holds a b ↔ sign.holds order = true := by
  rw [Holds, compare_ordered ordered, Except.ok.injEq]

theorem order?_eq_none (unordered : ¬ Comparable a b) : a.order? b = none := by
  rw [Option.eq_none_iff_forall_ne_some]
  intro order known
  exact unordered (Value.comparable_iff.mpr ⟨order, Value.ordered_iff.mpr known⟩)

theorem compare_equal (a b : Value) :
    equal.compare a b = .ok (a.same b) ∧ unequal.compare a b = .ok !(a.same b) := by
  by_cases comparable : Comparable a b
  · obtain ⟨order, ordered⟩ := Value.comparable_iff.mp comparable
    have alike : (order == .eq) = a.same b := by
      rw [Bool.eq_iff_iff, beq_iff_eq, ordered.eq_iff, Value.same_iff]
    rw [compare_ordered ordered, compare_ordered ordered, ← alike]
    exact ⟨rfl, rfl⟩
  · unfold compare
    rw [order?_eq_none comparable]
    exact ⟨rfl, rfl⟩

theorem holds_equal_iff : equal.Holds a b ↔ a.meaning = b.meaning := by
  rw [Holds, (compare_equal a b).1, Except.ok.injEq, Value.same_iff]

theorem equivalence_equal : Equivalence equal.Holds where
  refl _ := holds_equal_iff.mpr rfl
  symm here := holds_equal_iff.mpr (holds_equal_iff.mp here).symm
  trans here there :=
    holds_equal_iff.mpr ((holds_equal_iff.mp here).trans (holds_equal_iff.mp there))

theorem isOk_iff (ordering : sign.IsOrdering) :
    (∃ answer, sign.compare a b = .ok answer) ↔ Comparable a b := by
  constructor
  · rintro ⟨answer, done⟩
    by_contra unordered
    unfold compare at done
    rw [order?_eq_none unordered] at done
    cases sign with
    | equal | unequal => exact ordering
    | _ => cases done
  · intro comparable
    obtain ⟨order, ordered⟩ := Value.comparable_iff.mp comparable
    exact ⟨_, compare_ordered ordered sign⟩

theorem ordered_of_less (below : less.Holds a b) : Ordered a b .lt := by
  have ordering : less.IsOrdering := trivial
  obtain ⟨order, ordered⟩ := Value.comparable_iff.mp ((isOk_iff ordering).mp ⟨true, below⟩)
  have lt : order = .lt := by simpa [holds] using (holds_ordered ordered).mp below
  exact lt ▸ ordered

theorem less_trans (first : less.Holds a b) (second : less.Holds b c) : less.Holds a c := by
  have ordered := (ordered_of_less first).less_trans rfl (ordered_of_less second) rfl
  exact (holds_ordered ordered).mpr rfl

theorem trichotomy (comparable : Comparable a b) :
    ExactlyOne (less.Holds a b) (equal.Holds a b) (less.Holds b a) := by
  obtain ⟨order, ordered⟩ := Value.comparable_iff.mp comparable
  unfold ExactlyOne
  rw [holds_ordered ordered, holds_ordered ordered, holds_ordered ordered.swap]
  cases order <;> simp [holds]

theorem derived_signs (comparable : Comparable a b) :
    (lessEqual.Holds a b ↔ less.Holds a b ∨ equal.Holds a b) ∧
      (greater.Holds a b ↔ less.Holds b a) ∧ (greaterEqual.Holds a b ↔ lessEqual.Holds b a) := by
  obtain ⟨order, ordered⟩ := Value.comparable_iff.mp comparable
  simp only [holds_ordered ordered, holds_ordered ordered.swap]
  cases order <;> simp [holds]

theorem compare_numbers (sign : Comparator) (n m : Number) :
    ∃ answer, sign.compare (.number n) (.number m) = .ok answer ∧
      (answer = true ↔ sign.Relates n.toRat m.toRat) := by
  refine ⟨_, compare_ordered (.numbers n m) sign, ?_⟩
  cases sign <;>
    simp [holds, Relates, compare_lt_iff_lt, compare_gt_iff_gt]

/-- All values can be tested for equality, which is an equivalence. Two numbers, two texts and two
points in time, and no other values, have an order besides, which is total and agrees with it.
Numbers are compared as the fractions they stand for. -/
theorem comparison_coherent (a b c : Value) :
    (∃ same, equal.compare a b = .ok same ∧ unequal.compare a b = .ok !same) ∧
    Equivalence equal.Holds ∧
    (∀ sign : Comparator, sign.IsOrdering →
      ((∃ answer, sign.compare a b = .ok answer) ↔ Comparable a b) ∧
        ((∃ answer, sign.compare b a = .ok answer) ↔ Comparable a b)) ∧
    (Comparable a b → ExactlyOne (less.Holds a b) (equal.Holds a b) (less.Holds b a) ∧
      (lessEqual.Holds a b ↔ less.Holds a b ∨ equal.Holds a b) ∧
      (greater.Holds a b ↔ less.Holds b a) ∧ (greaterEqual.Holds a b ↔ lessEqual.Holds b a)) ∧
    (less.Holds a b → less.Holds b c → less.Holds a c) ∧
    ∀ (sign : Comparator) (n m : Number), ∃ answer,
      sign.compare (.number n) (.number m) = .ok answer ∧
        (answer = true ↔ sign.Relates n.toRat m.toRat) := by
  refine ⟨⟨a.same b, compare_equal a b⟩, equivalence_equal, fun sign ordering => ?_,
    fun comparable => ⟨trichotomy comparable, derived_signs comparable⟩, less_trans,
    compare_numbers⟩
  have flip : Comparable b a ↔ Comparable a b := ⟨.symm, .symm⟩
  exact ⟨isOk_iff ordering, (isOk_iff ordering).trans flip⟩

/-- A list of a whole number is equal to one of a decimal of the same size. -/
example : equal.Holds (.list [.integer 3]) (.list [.decimal ⟨300, 2, by decide, by decide⟩]) := by
  cbv

end Comparator

end Formulary
