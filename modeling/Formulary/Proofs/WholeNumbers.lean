import Formulary.Arithmetic

/-!
Whole numbers, held as integers or as decimals without places. Sums and products of them are exact,
and fail only where no decimal is wide enough.
-/
namespace Formulary

theorem natAbs_le_mul {a b : Int} (some : b ≠ 0) : a.natAbs ≤ (a * b).natAbs := by
  rw [Int.natAbs_mul]
  exact Nat.le_mul_of_pos_right _ (Int.natAbs_pos.mpr some)

def Number.IsWhole (n : Number) (i : Int) : Prop := n.toDecimal.coeff = i ∧ n.toDecimal.scale = 0

/-- The outcome is this integer if a decimal can hold it, and an error if not. -/
def GivesWhole (outcome : Outcome Number) (i : Int) : Prop :=
  (i.natAbs < Decimal.widthBound → ∃ n, outcome = .ok n ∧ n.IsWhole i) ∧
    (Decimal.widthBound ≤ i.natAbs → ∃ e, outcome = .error e)

namespace GivesWhole

variable {outcome : Outcome Number} {i j : Int}

theorem errors (e e' : FormulaError) (gives : GivesWhole (.error e) i) :
    GivesWhole (.error e') i := by
  refine ⟨fun fits => ?_, fun _ => ⟨e', rfl⟩⟩
  obtain ⟨n, done, _⟩ := gives.1 fits
  cases done

theorem isWhole {n : Number} (gives : GivesWhole (.ok n) i) : n.IsWhole i := by
  by_cases fits : i.natAbs < Decimal.widthBound
  · obtain ⟨k, same, whole⟩ := gives.1 fits
    cases same
    exact whole
  · obtain ⟨e, failed⟩ := gives.2 (Nat.le_of_not_lt fits)
    cases failed

/-- What comes later is only computed from what fits, and fits into a decimal no better. -/
theorem bind (gives : GivesWhole outcome i) {next : Number → Outcome Number}
    (later : ∀ n, n.IsWhole i → GivesWhole (next n) j) (wider : i.natAbs ≤ j.natAbs) :
    GivesWhole (outcome >>= next) j := by
  by_cases fits : i.natAbs < Decimal.widthBound
  · obtain ⟨n, done, whole⟩ := gives.1 fits
    rw [done]
    exact later n whole
  · obtain ⟨e, failed⟩ := gives.2 (Nat.le_of_not_lt fits)
    rw [failed]
    exact ⟨fun narrow => absurd (Nat.lt_of_le_of_lt wider narrow) fits, fun _ => ⟨e, rfl⟩⟩

end GivesWhole

namespace Number

theorem IsWhole.natAbs_lt {n : Number} {i : Int} (whole : n.IsWhole i) :
    i.natAbs < Decimal.widthBound := whole.1 ▸ n.toDecimal.coeff_lt

theorem IsWhole.gives {n : Number} {i : Int} (whole : n.IsWhole i) : GivesWhole (.ok n) i :=
  ⟨fun _ => ⟨n, rfl, whole⟩, fun wide => absurd whole.natAbs_lt (Nat.not_lt.mpr wide)⟩

theorem isWhole_integer (i : Int) (fits : InWord i) : (integer i fits).IsWhole i := ⟨rfl, rfl⟩

theorem IsWhole.negate {n : Number} {i : Int} (whole : n.IsWhole i) : n.negate.IsWhole (-i) := by
  cases n with
  | integer j fits =>
    obtain rfl : j = i := whole.1
    simp only [Number.negate, ofInt?]
    by_cases fits : InWord (-j)
    · rw [dif_pos fits]
      exact isWhole_integer _ fits
    · rw [dif_neg fits]
      exact ⟨rfl, rfl⟩
  | decimal d =>
    obtain ⟨coeff, noPlaces⟩ := whole
    exact ⟨congrArg Neg.neg coeff, noPlaces⟩

theorem IsWhole.same_iff {n m : Number} {i j : Int} (left : n.IsWhole i) (right : m.IsWhole j) :
    (Value.number n).same (.number m) = true ↔ i = j := by
  have order : n.order m = compare i j := by
    simp only [Number.order, Decimal.order, left.1, left.2, right.1, right.2]
    simp [tenTo]
  simp only [Value.same, order, beq_iff_eq, Std.LawfulEqOrd.compare_eq_iff_eq]

theorem IsWhole.narrow {n : Number} {i : Int} (whole : n.IsWhole i) :
    (∃ fits, (decimal n.toDecimal).narrow = integer i fits) ∨
      ¬ InWord i ∧ (decimal n.toDecimal).narrow = decimal n.toDecimal := by
  obtain ⟨coeff, scale⟩ := whole
  have isWhole : n.toDecimal.isWhole = true := by
    simp [Decimal.isWhole, scale, tenTo]
  have toInt : n.toDecimal.toInt = i := by
    simp [Decimal.toInt, scale, coeff, tenTo]
  unfold Number.narrow ofInt?
  simp only [isWhole, if_true, toInt]
  split
  · next fits => exact .inl ⟨fits, rfl⟩
  · next wide => exact .inr ⟨wide, rfl⟩

theorem IsWhole.of_narrow {n : Number} {i : Int} (whole : n.IsWhole i) :
    (decimal n.toDecimal).narrow.IsWhole i := by
  rcases whole.narrow with ⟨fits, same⟩ | ⟨_, same⟩
  · rw [same]
    exact isWhole_integer i fits
  · rw [same]
    exact whole

end Number

theorem GivesWhole.agree {a b : Outcome Number} {i : Int} (left : GivesWhole a i)
    (right : GivesWhole b i) : ((∃ n, a = .ok n) ↔ ∃ n, b = .ok n) ∧
      ∀ n m, a = .ok n → b = .ok m → (Value.number n).same (.number m) = true := by
  by_cases fits : i.natAbs < Decimal.widthBound
  · obtain ⟨n, here, wholeHere⟩ := left.1 fits
    obtain ⟨m, there, wholeThere⟩ := right.1 fits
    refine ⟨⟨fun _ => ⟨m, there⟩, fun _ => ⟨n, here⟩⟩, fun k l done also => ?_⟩
    rw [here] at done
    rw [there] at also
    cases done
    cases also
    exact (wholeHere.same_iff wholeThere).mpr rfl
  · obtain ⟨e, here⟩ := left.2 (Nat.le_of_not_lt fits)
    obtain ⟨e', there⟩ := right.2 (Nat.le_of_not_lt fits)
    simp [here, there]

namespace Decimal

theorem nearest_whole (i : Int) : nearest i (tenTo 0) 0 = ofParts? i 0 := by
  have exact : roundHalfEven i 1 = i := by
    simp [roundHalfEven]
  unfold nearest
  rw [show tenTo 0 = 1 from rfl, exact]

theorem add?_whole {a b : Decimal} (left : a.scale = 0) (right : b.scale = 0) :
    a.add? b = ofParts? (a.coeff + b.coeff) 0 := by
  unfold add?
  by_cases noLeft : a.isZero = true
  · have zero : a.coeff = 0 := by simpa [isZero] using noLeft
    rw [if_pos noLeft, zero, Int.zero_add]
    exact (ofParts?_eq_some_iff.mpr ⟨rfl, right⟩).symm
  · rw [if_neg noLeft]
    by_cases noRight : b.isZero = true
    · have zero : b.coeff = 0 := by simpa [isZero] using noRight
      rw [if_pos noRight, zero, Int.add_zero]
      exact (ofParts?_eq_some_iff.mpr ⟨rfl, left⟩).symm
    · rw [if_neg noRight]
      simp only [left, right, Nat.max_self, coeffAt, Nat.sub_self, nearest_whole]
      simp [tenTo]

theorem sub?_whole {a b : Decimal} (left : a.scale = 0) (right : b.scale = 0) :
    a.sub? b = ofParts? (a.coeff - b.coeff) 0 := by
  unfold sub?
  rw [add?_whole left (show b.neg.scale = 0 from right), Int.sub_eq_add_neg]
  rfl

theorem mul?_whole {a b : Decimal} (left : a.scale = 0) (right : b.scale = 0) :
    a.mul? b = ofParts? (a.coeff * b.coeff) 0 := by
  unfold mul?
  split
  · next zero =>
    have product : a.coeff * b.coeff = 0 := by
      rw [Int.mul_eq_zero]
      simpa [isZero] using zero
    rw [product]
    rfl
  · simp only [left, right, Nat.add_zero, nearest_whole]

end Decimal

namespace Arithmetic

def onWhole? (op : Arithmetic) (a b : Int) : Option Int :=
  match op with
  | addition => some (a + b)
  | subtraction => some (a - b)
  | multiplication => some (a * b)
  | _ => none

theorem onDecimals?_whole {op : Arithmetic} {a b i : Int} (known : op.onWhole? a b = some i)
    {l r : Number} (left : l.IsWhole a) (right : r.IsWhole b) :
    op.onDecimals? l.toDecimal r.toDecimal = Decimal.ofParts? i 0 := by
  obtain ⟨rfl, noLeft⟩ := left
  obtain ⟨rfl, noRight⟩ := right
  cases op with
  | addition =>
    cases known
    exact Decimal.add?_whole noLeft noRight
  | subtraction =>
    cases known
    exact Decimal.sub?_whole noLeft noRight
  | multiplication =>
    cases known
    exact Decimal.mul?_whole noLeft noRight
  | _ => cases known

theorem onIntegers?_whole {op : Arithmetic} {a b i : Int} (known : op.onWhole? a b = some i) :
    op.onIntegers? a b = Number.ofInt? i := by
  cases op with
  | addition | subtraction | multiplication =>
    cases known
    rfl
  | _ => cases known

theorem onIntegerNumbers?_whole {op : Arithmetic} {a b i : Int}
    (known : op.onWhole? a b = some i) {l r n : Number} (left : l.IsWhole a) (right : r.IsWhole b)
    (given : op.onIntegerNumbers? l r = some n) : n.IsWhole i := by
  cases l with
  | decimal d => cases given
  | integer a' _ =>
    cases r with
    | decimal d => cases given
    | integer b' _ =>
      obtain rfl : a' = a := left.1
      obtain rfl : b' = b := right.1
      have same : op.onIntegers? a' b' = some n := given
      rw [onIntegers?_whole known, Number.ofInt?] at same
      split at same
      · cases same
        exact Number.isWhole_integer i _
      · cases same

theorem compute_eq {op : Arithmetic} {a b i : Int} (known : op.onWhole? a b = some i)
    {l r : Number} (left : l.IsWhole a) (right : r.IsWhole b) :
    op.compute l r = match op.onIntegerNumbers? l r with
      | some n => .ok n
      | none => match Decimal.ofParts? i 0 with
        | some d => .ok (.decimal d)
        | none => .error (.overflow (.arithmetic op)) := by
  have noModulo : op ≠ modulo := by
    rintro rfl
    cases known
  rw [← onDecimals?_whole known left right]
  unfold compute
  split
  · cases known
  · refine (if_neg fun both => noModulo both.1).trans ?_
    cases op.onIntegerNumbers? l r with
    | some n => rfl
    | none => cases op.onDecimals? l.toDecimal r.toDecimal <;> rfl

theorem compute_whole {op : Arithmetic} {a b i : Int} (known : op.onWhole? a b = some i)
    {l r : Number} (left : l.IsWhole a) (right : r.IsWhole b) :
    GivesWhole (op.compute l r) i := by
  rw [compute_eq known left right]
  split
  · next n given => exact (onIntegerNumbers?_whole known left right given).gives
  · split
    · next d made =>
      obtain ⟨coeff, scale⟩ := Decimal.ofParts?_eq_some_iff.mp made
      have whole : (Number.decimal d).IsWhole i := ⟨coeff, scale⟩
      exact whole.gives
    · next none =>
      rcases Decimal.ofParts?_eq_none_iff.mp none with wide | high
      · exact ⟨fun small => absurd small (Nat.not_lt.mpr wide), fun _ => ⟨_, rfl⟩⟩
      · exact absurd high (by decide)

theorem ne_division {op : Arithmetic} {a b i : Int} (known : op.onWhole? a b = some i) :
    op ≠ division := by
  rintro rfl
  cases known

theorem apply_numbers {op : Arithmetic} (noQuotient : op ≠ division) (l r : Number) :
    op.apply (.number l) (.number r) =
      op.compute (Number.decimal l.toDecimal).narrow (Number.decimal r.toDecimal).narrow := by
  cases op with
  | division => exact absurd rfl noQuotient
  | _ => rfl

/-- Sums, differences and products of whole numbers. -/
theorem apply_whole {op : Arithmetic} {a b i : Int} (known : op.onWhole? a b = some i)
    {l r : Number} (left : l.IsWhole a) (right : r.IsWhole b) :
    GivesWhole (op.apply (.number l) (.number r)) i := by
  rw [apply_numbers (ne_division known)]
  exact compute_whole known left.of_narrow right.of_narrow

theorem apply_integer {op : Arithmetic} {a b i : Int} (known : op.onWhole? a b = some i)
    (left : InWord a) (right : InWord b) (fits : InWord i) :
    op.apply (.number (.integer a left)) (.number (.integer b right)) =
      .ok (.integer i fits) := by
  have narrow {j : Int} (fits : InWord j) :
      (Number.decimal (Number.integer j fits).toDecimal).narrow = .integer j fits := by
    rcases (Number.isWhole_integer j fits).narrow with ⟨_, same⟩ | ⟨wide, _⟩
    · exact same
    · exact absurd fits wide
  have word : op.onIntegerNumbers? (.integer a left) (.integer b right) =
      some (.integer i fits) := by
    have same := onIntegers?_whole known
    rw [Number.ofInt?, dif_pos fits] at same
    exact same
  rw [apply_numbers (ne_division known), narrow, narrow]
  cases op with
  | addition | subtraction | multiplication => simp [compute, word]
  | _ => cases known

end Arithmetic

end Formulary
