import Formulary.Proofs.SignedSums

/-!
Products and quotients of positive integers, each with one minus sign at most. By the rules an
operand without a sign joins the number before it first, even when that has a sign. For products it
makes no difference; a quotient comes out another.
-/
namespace Formulary

def Number.IsPositive : Number → Prop
  | integer i _ => 0 < i
  | decimal _ => False

instance : (n : Number) → Decidable n.IsPositive
  | .integer i _ => inferInstanceAs (Decidable (0 < i))
  | .decimal _ => .isFalse id

theorem Number.IsPositive.integer {n : Number} (positive : n.IsPositive) :
    ∃ i fits, 0 < i ∧ n = .integer i fits := by
  cases n with
  | integer i fits => exact ⟨i, fits, positive, rfl⟩
  | decimal d => exact positive.elim

namespace SignedSeries

/-- Positive integers with one sign at most, and operators for products and quotients between. -/
structure IsProduct (s : SignedSeries) : Prop where
  products : ∀ step ∈ s.rest, step.1 = .multiplication ∨ step.1 = .division
  positive : ∀ x ∈ s.first :: s.rest.map Prod.snd, x.number.IsPositive
  single : ∀ x ∈ s.first :: s.rest.map Prod.snd, x.signs ≤ 1

instance (s : SignedSeries) : Decidable s.IsProduct :=
  decidable_of_iff
    ((∀ step ∈ s.rest, step.1 = .multiplication ∨ step.1 = .division) ∧
      (∀ x ∈ s.first :: s.rest.map Prod.snd, x.number.IsPositive) ∧
        ∀ x ∈ s.first :: s.rest.map Prod.snd, x.signs ≤ 1)
    ⟨fun ⟨products, positive, single⟩ => ⟨products, positive, single⟩,
      fun isProduct => ⟨isProduct.products, isProduct.positive, isProduct.single⟩⟩

def factor (rest : List (Arithmetic × Signed)) : Int :=
  (rest.map fun step => step.2.toInt).foldr (· * ·) 1

@[simp] theorem factor_cons (op : Arithmetic) (x : Signed) (rest : List (Arithmetic × Signed)) :
    factor ((op, x) :: rest) = x.toInt * factor rest := rfl

theorem toInt_ne_zero {x : Signed} (positive : x.number.IsPositive) : x.toInt ≠ 0 := by
  obtain ⟨signs, n⟩ := x
  obtain ⟨i, fits, above, rfl⟩ := positive.integer
  unfold Signed.toInt
  rcases turn_cases ⟨signs, .integer i fits⟩ with turned | turned <;> rw [turned] <;>
    simp only [Number.toInt] <;> omega

theorem factor_ne_zero {rest : List (Arithmetic × Signed)}
    (positive : ∀ step ∈ rest, step.2.number.IsPositive) : factor rest ≠ 0 := by
  induction rest with
  | nil => exact Int.one_ne_zero
  | cons step rest ih =>
    obtain ⟨op, x⟩ := step
    rw [factor_cons]
    exact Int.mul_ne_zero (toInt_ne_zero (positive (op, x) List.mem_cons_self))
      (ih fun step member => positive step (List.mem_cons_of_mem _ member))

theorem onWhole?_product (a b : Int) : Arithmetic.multiplication.onWhole? a b = some (a * b) := rfl

theorem isWhole_operand {x : Signed} (positive : x.number.IsPositive) :
    x.value.IsWhole x.toInt := by
  obtain ⟨signs, n⟩ := x
  obtain ⟨i, fits, above, rfl⟩ := positive.integer
  exact Signed.isWhole_value (Number.isWhole_integer i fits)

theorem apply_product {n : Number} {m : Int} (whole : n.IsWhole m) (x : Signed) {k : Number}
    {j : Int} (operand : k.IsWhole j) :
    GivesWhole (Arithmetic.multiplication.apply (.number n)
      (.number (⟨x.signs, k⟩ : Signed).value)) (m * x.turn * j) := by
  have applied := Arithmetic.apply_whole (onWhole?_product m (x.turn * j)) whole
    (Signed.isWhole_value operand)
  rwa [← Int.mul_assoc] at applied

section

variable {rest : List (Arithmetic × Signed)} (products : ∀ step ∈ rest, step.1 = .multiplication)
  (positive : ∀ step ∈ rest, step.2.number.IsPositive)

include products positive

theorem joinFrom_product {n : Number} {total : Int} (whole : n.IsWhole total) :
    GivesWhole (joinFrom n rest) (total * factor rest) := by
  induction rest generalizing n total with
  | nil => simpa [joinFrom, factor] using whole.gives
  | cons step rest ih =>
    obtain ⟨op, x⟩ := step
    obtain rfl : op = .multiplication := products (op, x) List.mem_cons_self
    have multiplied : ∀ step ∈ rest, step.1 = .multiplication := fun step member =>
      products step (List.mem_cons_of_mem _ member)
    have others : ∀ step ∈ rest, step.2.number.IsPositive := fun step member =>
      positive step (List.mem_cons_of_mem _ member)
    have first := Arithmetic.apply_whole (onWhole?_product total _) whole
      (isWhole_operand (positive _ List.mem_cons_self))
    rw [factor_cons, ← Int.mul_assoc]
    exact first.bind (fun m isWhole => ih multiplied others isWhole)
      (natAbs_le_mul (factor_ne_zero others))

theorem joinBundle_product {current : Signed} {m : Int} (whole : current.number.IsWhole m)
    (join : Number → Outcome Number) (base : Int)
    (joins : ∀ n k, n.IsWhole k → GivesWhole (join (⟨current.signs, n⟩ : Signed).value) (base * k))
    (some : base ≠ 0) (nonzero : m ≠ 0) :
    GivesWhole (joinBundle join current rest) (base * m * factor rest) := by
  induction rest generalizing current m join base with
  | nil =>
    rw [joinBundle_nil]
    simpa [factor] using joins current.number m whole
  | cons step rest ih =>
    obtain ⟨op, x⟩ := step
    obtain rfl : op = .multiplication := products (op, x) List.mem_cons_self
    have multiplied : ∀ step ∈ rest, step.1 = .multiplication := fun step member =>
      products step (List.mem_cons_of_mem _ member)
    have others : ∀ step ∈ rest, step.2.number.IsPositive := fun step member =>
      positive step (List.mem_cons_of_mem _ member)
    have more := factor_ne_zero others
    obtain ⟨i, fits, above, isInteger⟩ := (positive _ List.mem_cons_self).integer
    dsimp only at isInteger
    have isWhole : x.number.IsWhole i := isInteger ▸ Number.isWhole_integer i fits
    have own : x.toInt = x.turn * i := by rw [Signed.toInt, isInteger, Number.toInt]
    have turned : x.turn ≠ 0 := pow_ne_zero x.signs (by decide)
    rw [factor_cons, own]
    by_cases plain : x.signs = 0
    · have unsigned : x.turn = 1 := by rw [Signed.turn, plain, pow_zero]
      obtain ⟨signs, n⟩ := x
      dsimp only at plain
      subst plain
      have joined := Arithmetic.apply_whole (onWhole?_product m i) whole isWhole
      have product : m * i ≠ 0 := Int.mul_ne_zero nonzero (by omega)
      have regroup : base * m * (1 * i * factor rest) = m * i * (base * factor rest) := by ring
      have regroup' : base * (m * i) * factor rest = m * i * (base * factor rest) := by ring
      have run (n : Number) (isProduct : n.IsWhole (m * i)) :
          GivesWhole (joinBundle join ⟨current.signs, n⟩ rest) (m * i * (base * factor rest)) :=
        regroup' ▸ ih multiplied others isProduct join base joins some product
      rw [joinBundle_unsigned, unsigned, regroup]
      exact joined.bind run (natAbs_le_mul (Int.mul_ne_zero some more))
    · have before : base * m ≠ 0 := Int.mul_ne_zero some nonzero
      have run (n : Number) (isTotal : n.IsWhole (base * m)) :=
        ih multiplied others isWhole
          (fun v => Arithmetic.multiplication.apply (.number n) (.number v)) (base * m * x.turn)
          (fun _ _ => apply_product isTotal x) (Int.mul_ne_zero before turned) (by omega)
      have regroup : base * m * (x.turn * i * factor rest) =
          base * m * x.turn * i * factor rest := by ring
      have wider : (base * m).natAbs ≤ (base * m * x.turn * i * factor rest).natAbs := by
        rw [← regroup]
        exact natAbs_le_mul (Int.mul_ne_zero (Int.mul_ne_zero turned (by omega)) more)
      rw [regroup]
      exact joinBundle_signed (P := (GivesWhole · _)) GivesWhole.errors plain
        ((joins current.number m whole).bind run wider)

end

variable {s : SignedSeries}

theorem isWhole_lead_positive (positive : s.first.number.IsPositive) :
    ∃ m, s.lead.number.IsWhole m ∧ s.lead.turn * m = s.first.toInt ∧ m ≠ 0 := by
  obtain ⟨i, fits, above, same⟩ := positive.integer
  have natural : s.first.number.IsNatural := by
    rw [same]
    exact Int.le_of_lt above
  obtain ⟨m, whole, turned, _⟩ := isWhole_lead natural
  refine ⟨m, whole, turned, fun zero => toInt_ne_zero positive ?_⟩
  rw [← turned, zero, Int.mul_zero]

theorem IsProduct.gives (isProduct : s.IsProduct)
    (products : ∀ step ∈ s.rest, step.1 = .multiplication) :
    GivesWhole s.byRules (s.first.toInt * factor s.rest) ∧
      GivesWhole s.leftToRight (s.first.toInt * factor s.rest) := by
  have positive : ∀ step ∈ s.rest, step.2.number.IsPositive := fun step member =>
    isProduct.positive _ (List.mem_cons_of_mem _ (List.mem_map_of_mem member))
  have first := isProduct.positive _ List.mem_cons_self
  constructor
  · obtain ⟨m, whole, same, nonzero⟩ := isWhole_lead_positive first
    have starts (n : Number) (k : Int) (isWhole : n.IsWhole k) :
        GivesWhole (.ok (⟨s.lead.signs, n⟩ : Signed).value) (s.lead.turn * k) := by
      have value : (⟨s.lead.signs, n⟩ : Signed).value.IsWhole ((-1) ^ s.lead.signs * k) :=
        Signed.isWhole_value isWhole
      exact value.gives
    have turned : s.lead.turn ≠ 0 := pow_ne_zero _ (by decide)
    have run := joinBundle_product products positive whole .ok s.lead.turn starts turned nonzero
    rwa [same, ← byRules_eq] at run
  · exact joinFrom_product products positive (isWhole_operand first)

end SignedSeries

namespace RuleBook

/-- What a product or quotient of positive integers with minus signs evaluates to. An operand
    without a sign joins the number before it first. It is the value by convention if no operand
    without a sign stands behind one with a sign, a single sign in front of all apart; and without
    quotients it is always that, however it is held. -/
theorem evaluate_signed_product (book : RuleBook) {s : SignedSeries} (isProduct : s.IsProduct)
    {tokens : List Token} (spelled : tokens.map Token.content = s.contents) :
    book.evaluate tokens = s.byRules.map Value.number ∧
    (s.Uncaptured → book.evaluate tokens = s.leftToRight.map Value.number) ∧
    ((∀ step ∈ s.rest, step.1 = .multiplication) →
      ((∃ v, book.evaluate tokens = .ok v) ↔ ∃ n, s.leftToRight = .ok n) ∧
        ∀ v n, book.evaluate tokens = .ok v → s.leftToRight = .ok n →
          v.same (.number n) = true) := by
  have known : ∀ step ∈ s.rest, step.1.operator ∈ [Operator.multiply, .divide] := by
    intro step member
    rcases isProduct.products step member with same | same <;> rw [same] <;> decide
  have value := book.evaluate_product known (isProduct.single _ List.mem_cons_self)
    (fun step member => isProduct.single _ (List.mem_cons_of_mem _ (List.mem_map_of_mem member)))
    spelled
  refine ⟨value, fun apart => ?_, fun products => ?_⟩
  · rw [value, SignedSeries.byRules_of_uncaptured apart]
  · obtain ⟨rules, convention⟩ := isProduct.gives products
    obtain ⟨both, same⟩ := rules.agree convention
    rw [value]
    cases here : s.byRules with
    | error e =>
      have none : ¬ ∃ n, s.leftToRight = .ok n := fun some => by
        obtain ⟨n, impossible⟩ := both.mpr some
        rw [here] at impossible
        cases impossible
      refine ⟨⟨?_, fun some => absurd some none⟩, fun v n done there => absurd ⟨n, there⟩ none⟩
      rintro ⟨v, done⟩
      cases done
    | ok n =>
      refine ⟨⟨fun _ => both.mp ⟨n, here⟩, fun _ => ⟨.number n, rfl⟩⟩, fun v m done there => ?_⟩
      cases done
      exact same n m here there

/-- `-8 / 4 / -2`, where no sign captures anything. -/
theorem evaluate_signed_product_last :
    let s : SignedSeries := ⟨⟨1, .integer 8 (by decide)⟩,
      [(.division, ⟨0, .integer 4 (by decide)⟩), (.division, ⟨1, .integer 2 (by decide)⟩)]⟩
    let tokens : List Token := s.contents.map fun content => ⟨content, 1⟩
    s.IsProduct ∧ tokens.map Token.content = s.contents ∧
      core.evaluate tokens = .ok (.integer 1) := by
  have value : (⟨⟨1, .integer 8 (by decide)⟩, [(.division, ⟨0, .integer 4 (by decide)⟩),
      (.division, ⟨1, .integer 2 (by decide)⟩)]⟩ : SignedSeries).leftToRight =
        .ok (.integer 1 (by decide)) := rfl
  intro s tokens
  have isProduct : s.IsProduct := by decide
  have spelled : tokens.map Token.content = s.contents := rfl
  have apart : s.Uncaptured := by decide
  refine ⟨isProduct, spelled, ?_⟩
  rw [(core.evaluate_signed_product isProduct spelled).2.1 apart, value]
  rfl

/-- `8 / -4 / 2` evaluates to -4: the sign has captured the quotient of 4 and 2. By convention it
    is -1. -/
theorem signed_quotient_captured :
    let s : SignedSeries := ⟨⟨0, .integer 8 (by decide)⟩,
      [(.division, ⟨1, .integer 4 (by decide)⟩), (.division, ⟨0, .integer 2 (by decide)⟩)]⟩
    let tokens : List Token := s.contents.map fun content => ⟨content, 1⟩
    s.IsProduct ∧ tokens.map Token.content = s.contents ∧
      s.leftToRight = .ok (.integer (-1) (by decide)) ∧
        core.evaluate tokens = .ok (.integer (-4)) := by
  have convention : (⟨⟨0, .integer 8 (by decide)⟩, [(.division, ⟨1, .integer 4 (by decide)⟩),
      (.division, ⟨0, .integer 2 (by decide)⟩)]⟩ : SignedSeries).leftToRight =
        .ok (.integer (-1) (by decide)) := rfl
  have value : (⟨⟨0, .integer 8 (by decide)⟩, [(.division, ⟨1, .integer 4 (by decide)⟩),
      (.division, ⟨0, .integer 2 (by decide)⟩)]⟩ : SignedSeries).byRules =
        .ok (.integer (-4) (by decide)) := rfl
  intro s tokens
  have isProduct : s.IsProduct := by decide
  have spelled : tokens.map Token.content = s.contents := rfl
  have known : ∀ step ∈ s.rest, step.1.operator ∈ [Operator.multiply, .divide] := by decide
  refine ⟨isProduct, spelled, convention, ?_⟩
  rw [core.evaluate_product known (by decide) (by decide) spelled, value]
  rfl

end RuleBook

end Formulary
