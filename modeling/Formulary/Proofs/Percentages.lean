import Formulary.Proofs.AdjacentOperators
import Formulary.Proofs.WholeLiterals

/-!
Percent signs in expressions of two literals. Behind the first, the sign belongs to that literal
alone. Behind the second it comes last of all, since its rule ranks below those of all operators: it
takes a hundredth of what stands before it. For a product this makes no difference.
-/
namespace Formulary

open Lexicon

/-! Percent signs among tokens -/

namespace RuleBook

variable {left first second right : Token} {a b : Number} {op : Operator}

theorem evaluate_percent_first (book : RuleBook) (binary : op ≠ .negate)
    (isLeft : left.content = .data (.number a))
    (isFirst : first.content = .symbol (.operator .modulo))
    (isSecond : second.content = .symbol (.operator op))
    (isRight : right.content = .data (.number b)) :
    book.evaluate [left, first, second, right] = (do
      let p ← (Value.number a).percent
      op.join (.number p) (.number b)) := by
  have numeric : ∀ t ∈ [second, right], t.IsNumeric [.modulo, op] :=
    List.forall_mem_cons.mpr ⟨.inr ⟨op, by simp, isSecond⟩,
      List.forall_mem_singleton.mpr (.inl (Token.category_of_data isRight))⟩
  rw [book.takes_percent isLeft isFirst (Unjoined.adjacent isLeft isFirst isSecond) numeric]
  cases (Value.number a).percent with
  | error e => rfl
  | ok p => exact book.evaluate_pair binary rfl isSecond isRight

/-- The operators of sums and products. Their rules rank above the one for percent signs. -/
def countingOperators : List Operator := [.add, .subtract, .multiply, .divide]

theorem foreign_counting (known : op ∈ countingOperators) :
    ForeignBefore op.place (.signed [op, .modulo]) [7, 10] := by
  simp only [countingOperators, List.mem_cons, List.not_mem_nil, or_false] at known
  unfold ForeignBefore
  rcases known with rfl | rfl | rfl | rfl <;> decide

theorem skips_remainder (known : op ∈ countingOperators) (isLeft : left.content = .data (.number a))
    (isFirst : first.content = .symbol (.operator op))
    (isLast : right.content = .symbol (.operator .modulo)) :
    (between [.modulo]).Skips [] [left, first, second, right] := by
  have apart : op ∉ [Operator.modulo] := by
    intro same
    obtain rfl := List.mem_singleton.mp same
    exact absurd known (by decide)
  have behind : (between [.modulo]).Skips [] [second, right] := Unjoined.skips_after _ isLast
  exact ⟨fun atStart => between_take?_other (List.cons_ne_nil _ _) isLeft rfl isFirst apart atStart
    _, fun atStart => between_take?_operator _ isFirst atStart _, behind⟩

theorem evaluate_percent_second (book : RuleBook) (known : op ∈ countingOperators)
    (isLeft : left.content = .data (.number a))
    (isFirst : first.content = .symbol (.operator op))
    (isSecond : second.content = .data (.number b))
    (isLast : right.content = .symbol (.operator .modulo)) :
    book.evaluate [left, first, second, right] = (do
      let v ← op.join (.number a) (.number b)
      v.percent.map Value.number) := by
  have binary : op ≠ .negate := by
    rintro rfl
    exact absurd known (by decide)
  obtain ⟨level, among, joined⟩ := mem_levels binary
  obtain ⟨name, rule⟩ := core_operator among joined
  have numeric : ∀ t ∈ [left, first, second, right], t.IsNumeric [op, .modulo] := by
    refine numeric_adjacent isLeft isFirst List.mem_cons_self (List.forall_mem_cons.mpr ⟨?_, ?_⟩)
    · exact .inl (Token.category_of_data isSecond)
    · exact List.forall_mem_singleton.mpr (.inr ⟨.modulo, by simp, isLast⟩)
  have skips : (between level).Skips ([left, first, second] ++ [right]) [] := trivial
  have found := skips.find? rfl rfl (between_take? isLeft rfl isFirst joined isSecond rfl · [right])
  have apart : ∀ index ∈ [7, 10], ∀ other, coreRules[index]? = some other →
      other.pattern.find? ([] ++ ([left, first, second] ++ [right])) = none := by
    intro index member other there
    rcases List.mem_cons.mp member with rfl | member
    · cases there
      exact leadingMinus_find?_eq_none (Unjoined.starts isLeft _)
    · obtain rfl := List.mem_singleton.mp member
      cases there
      exact (skips_remainder known isLeft isFirst isLast).find?_eq_none rfl
  have step := book.evaluate_core (foreign_counting known) (Profile.signed_uncalled _) rule
    (by simp) (fun t member => (numeric t member).within) found apart
  simp only [Action.plan, applyTokens_operator isLeft rfl isFirst isSecond rfl] at step
  refine step.trans ?_
  cases joining : op.join (.number a) (.number b) with
  | error e => rfl
  | ok v =>
    obtain ⟨n, rfl⟩ := number_of_join joining
    have isNumber : (Token.data (.number n)).content = .data (.number n) := rfl
    have nothing : ∀ t ∈ ([] : List Token), t.IsNumeric [.modulo, .modulo] :=
      List.forall_mem_nil _
    have percent := book.takes_percent isNumber isLast (Unjoined.trailing isNumber isLast) nothing
    refine percent.trans ?_
    show _ = (Value.number n).percent.map Value.number
    cases (Value.number n).percent with
    | error e => rfl
    | ok p => exact book.evaluate_value _

end RuleBook

/-! Percent signs in texts -/

def percentOfFirst (a : WholeLiteral) (op : Arithmetic) (b : WholeLiteral) : List Char :=
  a.digits ++ '%' :: ' ' :: (op.operator.text.toList ++ ' ' :: b.digits)

def percentOfSecond (a : WholeLiteral) (op : Arithmetic) (b : WholeLiteral) : List Char :=
  a.digits ++ ' ' :: (op.operator.text.toList ++ ' ' :: (b.digits ++ ['%']))

section

variable (a b : WholeLiteral) {op : Arithmetic}

theorem spells_percentOfFirst (noMinus : op ≠ .subtraction) :
    Spells none (percentOfFirst a op b) [.data (.number a.number), .symbol (.operator .modulo),
      .symbol (.operator op.operator), .data (.number b.number)] := by
  have apart : op.operator ≠ .subtract := by
    cases op with
    | subtraction => exact absurd rfl noMinus
    | _ => exact nofun
  refine .literal a (WholeLiteral.ends_percent _) fun _ _ => ?_
  refine .percent fun _ _ => ?_
  exact .spaced_sign (operator_ne_negate op) (fun same => absurd same apart) fun _ _ =>
    .last_literal b

theorem spells_percentOfSecond (op : Arithmetic) :
    Spells none (percentOfSecond a op b) [.data (.number a.number),
      .symbol (.operator op.operator), .data (.number b.number),
      .symbol (.operator .modulo)] := by
  refine .literal a (WholeLiteral.ends_of_spaced (.blank _)) fun t isNumber => ?_
  have binary : startsOperand (some t) = false := by
    simp [startsOperand, Token.category_of_data isNumber, Value.category, Token.isOpening,
      Token.isComma, Token.isGrouping, Token.symbol?, isNumber]
  refine .spaced_sign (operator_ne_negate op) (fun _ => binary) fun _ _ => ?_
  refine .spaced_literal b (WholeLiteral.ends_percent []) fun _ _ => ?_
  exact .percent fun _ _ => .nothing _

theorem evaluate_percentOfFirst (book : RuleBook) (memory : Bindings)
    (noMinus : op ≠ .subtraction) :
    ({ book, memory } : Calculator).evaluate (String.ofList (percentOfFirst a op b)) =
      (op.apply (.decimal a.hundredth) (.number b.number)).map Value.number := by
  have counting : ∀ c ∈ [.data (.number a.number), .symbol (.operator .modulo),
      .symbol (.operator op.operator), .data (.number b.number)], Content.IsCounting c := by
    simp [Content.isCounting_number, Content.isCounting_operator]
  obtain ⟨tokens, spelled, value⟩ :=
    (spells_percentOfFirst a b noMinus).evaluate counting book memory
  obtain ⟨left, first, second, right, rfl, isLeft, isFirst, isSecond, isRight⟩ :=
    four_of_contents spelled
  rw [value, book.evaluate_percent_first (operator_ne_negate op) isLeft isFirst isSecond isRight,
    a.percent_number]
  exact join_arithmetic op _ _

theorem evaluate_percentOfSecond (book : RuleBook) (memory : Bindings)
    (known : op.operator ∈ RuleBook.countingOperators) :
    ({ book, memory } : Calculator).evaluate (String.ofList (percentOfSecond a op b)) = (do
      let n ← op.apply (.number a.number) (.number b.number)
      (Value.number n).percent).map Value.number := by
  have counting : ∀ c ∈ [.data (.number a.number), .symbol (.operator op.operator),
      .data (.number b.number), .symbol (.operator .modulo)], Content.IsCounting c := by
    simp [Content.isCounting_number, Content.isCounting_operator]
  obtain ⟨tokens, spelled, value⟩ := (spells_percentOfSecond a b op).evaluate counting book memory
  obtain ⟨left, first, second, right, rfl, isLeft, isFirst, isSecond, isRight⟩ :=
    four_of_contents spelled
  rw [value, book.evaluate_percent_second known isLeft isFirst isSecond isRight, join_arithmetic]
  cases op.apply (.number a.number) (.number b.number) <;> rfl

theorem evaluate_product_percent (book : RuleBook) (memory : Bindings)
    (fits : a.value * b.value < Decimal.widthBound) : ∃ n m,
      ({ book, memory } : Calculator).evaluate
        (String.ofList (percentOfSecond a .multiplication b)) = .ok (.number n) ∧
      Arithmetic.multiplication.apply (.number a.number) (.decimal b.hundredth) = .ok m ∧
      n.order m = .eq := by
  have positive : 0 < a.value * b.value := Nat.mul_pos a.value_pos b.value_pos
  have some_part : (a.value : Int) * b.value ≠ 0 := by
    rw [← Int.natCast_mul]
    omega
  have bounded : ((a.value : Int) * b.value).natAbs < Decimal.widthBound := by
    rwa [← Int.natCast_mul, Int.natAbs_natCast]
  have gives : GivesWhole (Arithmetic.multiplication.apply (.number a.number) (.number b.number))
      (a.value * b.value) := Arithmetic.apply_whole rfl a.isWhole_number b.isWhole_number
  obtain ⟨n, product, whole⟩ := gives.1 bounded
  obtain ⟨m, also, isHundredths⟩ :=
    Value.product_of_hundredths a.isWhole_number b.hundredth.coeff_lt some_part bounded
  refine ⟨_, m, ?_, also, (Number.isHundredths_decimal bounded).same isHundredths⟩
  rw [evaluate_percentOfSecond a b book memory (by decide), product]
  exact congrArg (Except.map Value.number) (Value.percent_whole whole some_part)

end

namespace Calculator

/-- A percent sign behind the first number of an operation takes a hundredth of this number, as
    long as what follows is not a minus. Behind the second it takes a hundredth of the result, which
    for a product is the product with a hundredth of the second number. -/
theorem evaluate_percentages (book : RuleBook) (memory : Bindings) (a b : WholeLiteral) :
    let c : Calculator := { book, memory }
    (∀ op ∈ [Arithmetic.addition, .multiplication, .division],
      c.evaluate (String.ofList (percentOfFirst a op b)) =
        (op.apply (.decimal a.hundredth) (.number b.number)).map Value.number) ∧
    (∀ op ∈ [Arithmetic.addition, .subtraction, .multiplication, .division],
      c.evaluate (String.ofList (percentOfSecond a op b)) = (do
        let n ← op.apply (.number a.number) (.number b.number)
        Arithmetic.multiplication.apply (.number n) (.decimal .hundredth)).map Value.number) ∧
    (a.value * b.value < Decimal.widthBound → ∃ n m,
      c.evaluate (String.ofList (percentOfSecond a .multiplication b)) = .ok (.number n) ∧
      Arithmetic.multiplication.apply (.number a.number) (.decimal b.hundredth) = .ok m ∧
      n.order m = .eq) := by
  intro c
  refine ⟨fun op member => ?_, fun op member => ?_, evaluate_product_percent a b book memory⟩
  · refine evaluate_percentOfFirst a b book memory ?_
    rintro rfl
    exact absurd member (by decide)
  · have known : op.operator ∈ RuleBook.countingOperators := by
      revert op
      decide
    have same (n : Number) : (Value.number n).percent =
        Arithmetic.multiplication.apply (.number n) (.decimal .hundredth) :=
      Value.percent_eq_product n
    simpa only [same] using evaluate_percentOfSecond a b book memory known

/-- `200% + 3` is 5, `200 - 3%` is a hundredth of 197, and `200 * 3%` the product of 200 and
    0.03. -/
theorem evaluate_percentages_whole :
    let a : WholeLiteral := ⟨['2', '0', '0'], by decide, by decide, by decide⟩
    let b : WholeLiteral := ⟨['3'], by decide, by decide, by decide⟩
    Arithmetic.addition ∈ [Arithmetic.addition, .multiplication, .division] ∧
      Arithmetic.subtraction ∈ [Arithmetic.addition, .subtraction, .multiplication, .division] ∧
      a.value * b.value < Decimal.widthBound ∧
      ({} : Calculator).evaluate "200% + 3" = .ok (.integer 5) ∧
      ({} : Calculator).evaluate "200 - 3%" = .ok (.decimal (.hundredths 197 (by decide))) ∧
      ∃ n m, ({} : Calculator).evaluate "200 * 3%" = .ok (.number n) ∧
        Arithmetic.multiplication.apply (.number a.number) (.decimal b.hundredth) = .ok m ∧
        n.order m = .eq := by
  intro a b
  have isLeft : a.number = .integer 200 (by decide) := WholeLiteral.number_of_value (by decide) _
  have isRight : b.number = .integer 3 (by decide) := WholeLiteral.number_of_value (by decide) _
  have hundredth : a.hundredth = .hundredths 200 (by decide) :=
    WholeLiteral.hundredth_of_value (by decide) _
  have addition : Arithmetic.addition ∈
      [Arithmetic.addition, .multiplication, .division] := by decide
  have subtraction : Arithmetic.subtraction ∈
      [Arithmetic.addition, .subtraction, .multiplication, .division] := by decide
  have fits : a.value * b.value < Decimal.widthBound := by decide
  obtain ⟨ofFirst, ofSecond, product⟩ := evaluate_percentages .core [] a b
  refine ⟨addition, subtraction, fits, (ofFirst _ addition).trans ?_,
    (ofSecond _ subtraction).trans ?_, product fits⟩
  · rw [hundredth, isRight]
    rfl
  · rw [isLeft, isRight]
    rfl

/-- `100 + 10%` is a hundredth of 110, and not the sum of 100 and 0.1. -/
theorem percent_of_sum :
    let a : WholeLiteral := ⟨['1', '0', '0'], by decide, by decide, by decide⟩
    let b : WholeLiteral := ⟨['1', '0'], by decide, by decide, by decide⟩
    ({} : Calculator).evaluate "100 + 10%" = .ok (.decimal (.hundredths 110 (by decide))) ∧
      Arithmetic.addition.apply (.number a.number) (.decimal b.hundredth) =
        .ok (.decimal (.hundredths 10010 (by decide))) ∧
      Number.order (.decimal (.hundredths 110 (by decide)))
        (.decimal (.hundredths 10010 (by decide))) ≠ .eq := by
  intro a b
  have isLeft : a.number = .integer 100 (by decide) := WholeLiteral.number_of_value (by decide) _
  have isRight : b.number = .integer 10 (by decide) := WholeLiteral.number_of_value (by decide) _
  have hundredth : b.hundredth = .hundredths 10 (by decide) :=
    WholeLiteral.hundredth_of_value (by decide) _
  have counting : Arithmetic.addition.operator ∈ RuleBook.countingOperators := by decide
  have evaluated := evaluate_percentOfSecond a b .core [] counting
  refine ⟨evaluated.trans ?_, ?_, by decide⟩
  · rw [isLeft, isRight]
    rfl
  · rw [isLeft, hundredth]
    rfl

end Calculator

end Formulary
