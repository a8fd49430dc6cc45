import Formulary.Proofs.Errors
import Formulary.Proofs.Hundredths
import Formulary.Proofs.SignSteps

/-!
Two operators side by side between two numbers. The second is a minus that belongs to the number
behind it, or the first is a percent sign that belongs to the number before it. Which of the two is
heard first is decided by the order of the rules: a minus gives every operator its negated operand,
but a percent sign never leaves it a remainder to compute.
-/
namespace Formulary

theorem percentOfToken_number {t : Token} {n : Number} (content : t.content = .data (.number n)) :
    percentOfToken t = (Value.number n).percent.map Value.number := by
  unfold percentOfToken
  rw [Token.toOperand_of_data content]
  cases made : (Value.number n).percent <;>
    simp [bind, Except.bind, Node.ofPercent, Operand.check, Value.category, Node.value,
      Operand.resolve, pure, Except.pure, made, Except.map]

theorem four_of_contents {tokens : List Token} {a b c d : Content}
    (spelled : tokens.map Token.content = [a, b, c, d]) :
    ∃ left first second right, tokens = [left, first, second, right] ∧ left.content = a ∧
      first.content = b ∧ second.content = c ∧ right.content = d := by
  obtain ⟨left, behind, rfl, isLeft, spelled⟩ := List.map_eq_cons_iff.mp spelled
  obtain ⟨first, behind, rfl, isFirst, spelled⟩ := List.map_eq_cons_iff.mp spelled
  obtain ⟨second, behind, rfl, isSecond, spelled⟩ := List.map_eq_cons_iff.mp spelled
  obtain ⟨right, behind, rfl, isRight, nothing⟩ := List.map_eq_cons_iff.mp spelled
  obtain rfl := List.map_eq_nil_iff.mp nothing
  exact ⟨left, first, second, right, rfl, isLeft, isFirst, isSecond, isRight⟩

/-! Tokens that nothing joins -/

structure Unjoined (tokens : List Token) : Prop where
  first : ∀ t ∈ tokens.head?, t.category ≠ .operator
  skips : ∀ level ∈ levels, (between level).Skips [] tokens

def joiningPlaces : List Nat := [7, 8, 10, 11, 13, 14]

theorem joining_cases {index : Nat} (member : index ∈ joiningPlaces) {rule : Rule}
    (known : coreRules[index]? = some rule) :
    rule.pattern = [.leadingMinus, .numeric] ∨ ∃ level ∈ levels, rule.pattern = between level := by
  simp only [joiningPlaces, List.mem_cons, List.not_mem_nil, or_false] at member
  rcases member with rfl | rfl | rfl | rfl | rfl | rfl <;> cases known
  · exact .inl rfl
  all_goals exact .inr ⟨_, by simp [levels], rfl⟩

namespace Unjoined

theorem apart {tokens : List Token} (unjoined : Unjoined tokens) : ∀ index ∈ joiningPlaces,
    ∀ rule, coreRules[index]? = some rule → rule.pattern.find? tokens = none := by
  intro index member rule known
  rcases joining_cases member known with same | ⟨level, among, same⟩
  · rw [same]
    exact leadingMinus_find?_eq_none unjoined.first
  · rw [same]
    exact (unjoined.skips level among).find?_eq_none rfl

variable {left first second right : Token} {a b : Number} {op next : Operator}

theorem skips_last (level : List Operator) : (between level).Skips [] [right] := by
  refine ⟨fun atStart => ?_, trivial⟩
  have nothing : Pattern.take? [.operators level, .numeric] false [] = none :=
    Pattern.take?_nil_of_headed ⟨_, _, rfl, Matcher.isSingle_operators level⟩ false
  unfold between
  rw [Pattern.take?_cons_single Matcher.isSingle_numeric rfl, List.append_nil, nothing]
  split <;> rfl

theorem skips_after (level : List Operator) (isFirst : first.content = .symbol (.operator op)) :
    (between level).Skips [] [left, first] := by
  have nothing : Pattern.take? [.numeric] false [] = none :=
    Pattern.take?_nil_of_headed ⟨_, _, rfl, Matcher.isSingle_numeric⟩ false
  refine ⟨fun atStart => ?_, fun atStart => between_take?_operator level isFirst atStart _, trivial⟩
  unfold between
  rw [Pattern.take?_cons_single Matcher.isSingle_numeric rfl, List.append_nil,
    Pattern.take?_cons_single (Matcher.isSingle_operators level) rfl, nothing]
  split
  · split <;> rfl
  · rfl

theorem starts (isLeft : left.content = .data (.number a)) (behind : List Token) :
    ∀ t ∈ (left :: behind).head?, t.category ≠ .operator := by
  intro t head
  obtain rfl := Option.some.inj head
  rw [Token.category_of_data isLeft]
  exact nofun

theorem trailing (isLeft : left.content = .data (.number a))
    (isFirst : first.content = .symbol (.operator op)) : Unjoined [left, first] :=
  ⟨starts isLeft _, fun level _ => skips_after level isFirst⟩

theorem apart_minus (isLeft : left.content = .data (.number a))
    (isFirst : first.content = .symbol (.operator .negate)) : Unjoined [left, first, right] := by
  refine ⟨starts isLeft _, fun level among => ?_⟩
  have apart : Operator.negate ∉ level := by
    revert level
    decide
  have some_operator := RuleBook.levels_nonempty among
  exact ⟨fun atStart => between_take?_other some_operator isLeft rfl isFirst apart atStart _,
    fun atStart => between_take?_operator level isFirst atStart _, skips_last level⟩

theorem adjacent (isLeft : left.content = .data (.number a))
    (isFirst : first.content = .symbol (.operator op))
    (isSecond : second.content = .symbol (.operator next)) :
    Unjoined [left, first, second, right] := by
  refine ⟨starts isLeft _, fun level _ => ?_⟩
  exact ⟨fun atStart => between_take?_apart level isSecond atStart _,
    fun atStart => between_take?_operator level isFirst atStart _,
    fun atStart => between_take?_operator level isSecond atStart _, skips_last level⟩

end Unjoined

/-! Steps -/

namespace RuleBook

variable {left first second right : Token} {a b : Number} {op next : Operator}

theorem evaluate_value (book : RuleBook) (v : Value) : book.evaluate [.data v] = .ok v :=
  book.evaluate_short (Nat.le_refl 1)

theorem evaluate_unjoined (book : RuleBook) {place : Nat} {ops : List Operator}
    (foreign : ForeignBefore place (.signed ops) joiningPlaces) {rule : Rule}
    (known : coreRules[place]? = some rule) {passed matched behind : List Token}
    (several : 2 ≤ matched.length) (unjoined : Unjoined (passed ++ (matched ++ behind)))
    (numeric : ∀ t ∈ passed ++ (matched ++ behind), t.IsNumeric ops)
    (found : rule.pattern.find? (passed ++ (matched ++ behind)) =
      some ⟨passed.length, matched.length⟩) :
    book.evaluate (passed ++ (matched ++ behind)) = (do
      let replaced ← book.replacement (rule.action.plan matched)
      book.evaluate (passed ++ (replaced ++ behind))) :=
  book.evaluate_core foreign (Profile.signed_uncalled _) known several
    (fun t member => (numeric t member).within) found unjoined.apart

theorem evaluate_pair (book : RuleBook) (binary : op ≠ .negate)
    (isLeft : left.content = .data (.number a)) (isFirst : first.content = .symbol (.operator op))
    (isRight : right.content = .data (.number b)) :
    book.evaluate [left, first, right] = op.join (.number a) (.number b) := by
  obtain ⟨level, known, joined⟩ := mem_levels binary
  have ready : Ready op.place [] ⟨.number a, [(op, .number b)]⟩ :=
    ⟨nofun, ⟨rfl, by simp [Value.category]⟩, nofun, by simp [binary]⟩
  have spelled : [left, first, right].map Token.content =
      leading [] ++ (⟨.number a, [(op, .number b)]⟩ : Series Value).contents := by
    simp [isLeft, isFirst, isRight, leading, Series.contents]
  have run := book.joins known joined ready spelled
  cases value : op.join (.number a) (.number b) with
  | error e =>
    rw [value] at run
    exact run
  | ok v =>
    rw [value] at run
    obtain ⟨after, spelled, same⟩ := run
    obtain ⟨last, none, rfl, content, nothing⟩ := List.map_eq_cons_iff.mp spelled
    obtain rfl := List.map_eq_nil_iff.mp nothing
    rw [List.nil_append, List.nil_append] at same
    have short : [last].length ≤ 1 := Nat.le_refl 1
    rw [same, book.evaluate_short short, List.headD_cons, Token.toValue, content]

theorem evaluate_numbers (book : RuleBook) (isLeft : left.content = .data (.number a))
    (isRight : right.content = .data (.number b)) :
    book.evaluate [left, right] = .error (.unreducible (render [left, right])) := by
  have within : ∀ t ∈ [left, right], t.content.Within (.signed []) := by
    intro t member
    have number : t.IsNumeric [] := by
      simp only [List.mem_cons, List.not_mem_nil, or_false] at member
      rcases member with rfl | rfl
      · exact .inl (Token.category_of_data isLeft)
      · exact .inl (Token.category_of_data isRight)
    exact number.within
  have foreign : ∀ rule ∈ coreRules, rule.pattern.any (Matcher.isForeign (.signed [])) = true := by
    decide
  refine book.evaluate_stuck (by simp) ?_
  rw [find?_eq_search, search_eq_none_iff]
  intro rule member
  rcases List.mem_append.mp member with custom | core
  · obtain ⟨d, _, rfl⟩ := List.mem_map.mp custom
    have function : d.pattern.any (Matcher.isForeign (.signed [])) = true := by
      simp [Definition.pattern, Matcher.isForeign, Matcher.function, Matcher.categories,
        Profile.signed]
    exact Pattern.find?_eq_none_of_foreign function within
  · exact Pattern.find?_eq_none_of_foreign (foreign rule core) within

/-! Which operator is heard -/

theorem numeric_adjacent {ops : List Operator} (isLeft : left.content = .data (.number a))
    (isFirst : first.content = .symbol (.operator op)) (known : op ∈ ops) {behind : List Token}
    (numeric : ∀ t ∈ behind, t.IsNumeric ops) :
    ∀ t ∈ left :: first :: behind, t.IsNumeric ops := by
  refine List.forall_mem_cons.mpr ⟨.inl (Token.category_of_data isLeft), ?_⟩
  exact List.forall_mem_cons.mpr ⟨.inr ⟨op, known, isFirst⟩, numeric⟩

theorem takes_percent (book : RuleBook) (isLeft : left.content = .data (.number a))
    (isFirst : first.content = .symbol (.operator .modulo)) {behind : List Token}
    (unjoined : Unjoined (left :: first :: behind))
    (numeric : ∀ t ∈ behind, t.IsNumeric [.modulo, next]) :
    book.evaluate (left :: first :: behind) = (do
      let p ← (Value.number a).percent
      book.evaluate (.data (.number p) :: behind)) := by
  have rule : coreRules[15]? = some ⟨"percentage", [.numeric, .modulo], .percentage⟩ := rfl
  have foreign : ForeignBefore 15 (.signed [.modulo, next]) joiningPlaces := by
    unfold ForeignBefore
    cases next <;> decide
  have single : Matcher.modulo.IsSingle := ⟨_, _, rfl⟩
  have accepted : Matcher.modulo.accepts first = true :=
    (Matcher.accepts_operators [.modulo] isFirst).mpr (by simp)
  have taken (atStart : Bool) :
      Pattern.take? [.numeric, .modulo] atStart (left :: first :: behind) = some 2 := by
    rw [Pattern.take?_cons_of_accepts Matcher.isSingle_numeric rfl
      (Matcher.accepts_numeric isLeft rfl), Pattern.take?_cons_of_accepts single rfl accepted]
    rfl
  have skips : Pattern.Skips [.numeric, .modulo] ([left, first] ++ behind) [] := trivial
  have found := skips.find? rfl rfl taken
  have step := book.evaluate_unjoined foreign rule (by simp) unjoined
    (numeric_adjacent isLeft isFirst List.mem_cons_self numeric) found
  simp only [Action.plan, percentOfToken_number isLeft, List.nil_append, List.cons_append] at step
  rw [step]
  cases (Value.number a).percent <;> rfl

theorem takes_minus (book : RuleBook) {ops : List Operator} {passed : List Token}
    (foreign : ForeignBefore 16 (.signed ops) joiningPlaces)
    (isMinus : second.content = .symbol (.operator .negate))
    (isRight : right.content = .data (.number b))
    (unjoined : Unjoined (passed ++ [second, right]))
    (numeric : ∀ t ∈ passed ++ [second, right], t.IsNumeric ops)
    (skips : Pattern.Skips [.minus, .numeric] [second, right] passed) :
    book.evaluate (passed ++ [second, right]) =
      book.evaluate (passed ++ [.data (.number b.negate)]) := by
  have rule : coreRules[16]? = some ⟨"negation", [.minus, .numeric], .negate⟩ := rfl
  have found : Pattern.find? [.minus, .numeric] (passed ++ ([second, right] ++ [])) =
      some ⟨passed.length, 2⟩ :=
    skips.find? rfl rfl fun atStart => minus_take? isMinus isRight atStart []
  have step := book.evaluate_unjoined foreign rule (by simp) unjoined numeric found
  simp only [Action.plan, List.getLast?_cons_cons, List.getLast?_singleton,
    negateToken_number isRight, List.append_nil] at step
  exact step

theorem takes_negated (book : RuleBook) {ops : List Operator} {place : Nat} {name : String}
    {action : Action} (powers : action = .powerNegated ∨ action = .scaleNegated)
    (known : coreRules[place]? =
      some ⟨name, [.numeric, .operators ops, .minus, .numeric], action⟩)
    (foreign : ForeignBefore place (.signed [op, .negate]) joiningPlaces) (joined : op ∈ ops)
    (isLeft : left.content = .data (.number a)) (isFirst : first.content = .symbol (.operator op))
    (isMinus : second.content = .symbol (.operator .negate))
    (isRight : right.content = .data (.number b)) :
    book.evaluate [left, first, second, right] = op.join (.number a) (.number b.negate) := by
  have accepted : (Matcher.operators ops).accepts first = true :=
    (Matcher.accepts_operators ops isFirst).mpr (.inr joined)
  have taken (atStart : Bool) : Pattern.take? [.numeric, .operators ops, .minus, .numeric] atStart
      [left, first, second, right] = some 4 := by
    rw [Pattern.take?_cons_of_accepts Matcher.isSingle_numeric rfl
        (Matcher.accepts_numeric isLeft rfl),
      Pattern.take?_cons_of_accepts (Matcher.isSingle_operators ops) rfl accepted,
      minus_take? isMinus isRight false []]
    rfl
  have numeric : ∀ t ∈ [left, first, second, right], t.IsNumeric [op, .negate] := by
    refine numeric_adjacent isLeft isFirst List.mem_cons_self ?_
    refine List.forall_mem_cons.mpr ⟨.inr ⟨.negate, by simp, isMinus⟩, ?_⟩
    exact List.forall_mem_singleton.mpr (.inl (Token.category_of_data isRight))
  have skips : Pattern.Skips [.numeric, .operators ops, .minus, .numeric]
      ([left, first, second, right] ++ []) [] := trivial
  have found := skips.find? rfl rfl taken
  have step := book.evaluate_unjoined foreign known (by simp)
    (Unjoined.adjacent isLeft isFirst isMinus) numeric found
  have negated : Token.content (.data (.number b.negate)) = .data (.number b.negate) := rfl
  have planned : action.plan [left, first, second, right] =
      .value (op.join (.number a) (.number b.negate)) := by
    rcases powers with rfl | rfl <;>
    · simp only [Action.plan, negateToken_number isRight, bind, Except.bind,
        applyTokens_operator isLeft rfl isFirst negated rfl]
  simp only [planned, List.nil_append, List.append_nil] at step
  rw [step]
  cases value : op.join (.number a) (.number b.negate) with
  | error e => rfl
  | ok v => exact book.evaluate_value v

/-! Negated right operands -/

theorem numeric_minus {ops : List Operator} (known : .negate ∈ ops)
    (isMinus : second.content = .symbol (.operator .negate))
    (isRight : right.content = .data (.number b)) : ∀ t ∈ [second, right], t.IsNumeric ops :=
  List.forall_mem_cons.mpr ⟨.inr ⟨.negate, known, isMinus⟩,
    List.forall_mem_singleton.mpr (.inl (Token.category_of_data isRight))⟩

/-- The operators that have no rule of their own for a minus behind them, but are joined later. -/
def patientOperators : List Operator := [.add, .subtract, .bitOr, .bitAnd]

theorem foreign_patient (known : op ∈ patientOperators) :
    ForeignBefore 16 (.signed [op, .negate]) joiningPlaces := by
  simp only [patientOperators, List.mem_cons, List.not_mem_nil, or_false] at known
  unfold ForeignBefore
  rcases known with rfl | rfl | rfl | rfl <;> decide

theorem evaluate_negated_last (book : RuleBook)
    (known : op ∈ patientOperators)
    (isLeft : left.content = .data (.number a)) (isFirst : first.content = .symbol (.operator op))
    (isMinus : second.content = .symbol (.operator .negate))
    (isRight : right.content = .data (.number b)) :
    book.evaluate [left, first, second, right] = op.join (.number a) (.number b.negate) := by
  have binary : op ≠ .negate := by
    rintro rfl
    exact absurd known (by decide)
  have skips : Pattern.Skips [.minus, .numeric] [second, right] [left, first] := by
    have rejected : Matcher.minus.accepts left = false :=
      Matcher.operators_reject [.subtract, .negate] isLeft
    have front : Pattern.Skips [.minus, .numeric] ([first] ++ [second, right]) [left] :=
      Pattern.skips_of_rejects isSingle_minus (List.forall_mem_singleton.mpr rejected)
    exact front.append (skips_operators isMinus (List.forall_mem_singleton.mpr ⟨op, isFirst⟩))
  have step := book.takes_minus (foreign_patient known) isMinus isRight
    (Unjoined.adjacent isLeft isFirst isMinus)
    (numeric_adjacent isLeft isFirst List.mem_cons_self (numeric_minus (by simp) isMinus isRight))
    skips
  exact step.trans (book.evaluate_pair binary isLeft isFirst rfl)

theorem evaluate_percent_negated (book : RuleBook) (isLeft : left.content = .data (.number a))
    (isFirst : first.content = .symbol (.operator .modulo))
    (isMinus : second.content = .symbol (.operator .negate))
    (isRight : right.content = .data (.number b)) : ∃ p, (Value.number a).percent = .ok p ∧
      book.evaluate [left, first, second, right] =
        .error (.unreducible (render [.data (.number p), .data (.number b.negate)])) := by
  obtain ⟨p, made⟩ := Value.percent_number a
  have among : ∀ t ∈ [second, right], t.IsNumeric [.modulo, .negate] :=
    numeric_minus (by simp) isMinus isRight
  have percent := book.takes_percent isLeft isFirst (Unjoined.adjacent isLeft isFirst isMinus) among
  have known : Token.content (.data (.number p)) = .data (.number p) := rfl
  have foreign : ForeignBefore 16 (.signed [.negate]) joiningPlaces := by
    unfold ForeignBefore
    decide
  have numeric : ∀ t ∈ [Token.data (.number p)] ++ [second, right], t.IsNumeric [.negate] :=
    List.forall_mem_cons.mpr ⟨.inl rfl, numeric_minus (by simp) isMinus isRight⟩
  have rejected : Matcher.minus.accepts (Token.data (.number p)) = false :=
    Matcher.operators_reject [.subtract, .negate] known
  have minus := book.takes_minus foreign isMinus isRight (Unjoined.apart_minus known isMinus)
    numeric (Pattern.skips_of_rejects isSingle_minus (List.forall_mem_singleton.mpr rejected))
  refine ⟨p, made, ?_⟩
  rw [percent, made]
  exact minus.trans (book.evaluate_numbers rfl rfl)

theorem join_not_unreducible (l r : Value) (rendered : String) :
    Operator.modulo.join l r ≠ .error (.unreducible rendered) := by
  intro failed
  have known : Arithmetic.ofOperator? .modulo = some .modulo := rfl
  simp only [Operator.join, known] at failed
  cases computed : Arithmetic.modulo.apply l r with
  | error e =>
    rw [computed] at failed
    cases failed
    exact Arithmetic.failsIn_apply _ _ _ _ computed
  | ok n =>
    rw [computed] at failed
    cases failed

/-- With a negated right operand an operator gives what it gives for the negative number, value or
    error, if and only if it is not the remainder: its sign is read as a percent sign when a minus
    is behind it, and nothing joins the hundredth with what follows. -/
theorem evaluate_negated_operand (book : RuleBook) (binary : op ≠ .negate) {tokens : List Token}
    (spelled : tokens.map Token.content = [.data (.number a), .symbol (.operator op),
      .symbol (.operator .negate), .data (.number b)]) :
    (book.evaluate tokens = op.join (.number a) (.number b.negate) ↔ op ≠ .modulo) ∧
      (op = .modulo → ∃ p, (Value.number a).percent = .ok p ∧ book.evaluate tokens =
        .error (.unreducible (render [.data (.number p), .data (.number b.negate)]))) := by
  obtain ⟨left, first, second, right, rfl, isLeft, isFirst, isMinus, isRight⟩ :=
    four_of_contents spelled
  by_cases remainder : op = .modulo
  · subst remainder
    obtain ⟨p, made, failed⟩ := book.evaluate_percent_negated isLeft isFirst isMinus isRight
    refine ⟨iff_of_false (fun same => ?_) fun other => other rfl, fun _ => ⟨p, made, failed⟩⟩
    exact join_not_unreducible _ _ _ (same.symm.trans failed)
  · refine ⟨iff_of_true ?_ remainder, fun same => absurd same remainder⟩
    have powers : coreRules[9]? = some ⟨"math_neg_pow",
        [.numeric, .operators [.power], .minus, .numeric], .powerNegated⟩ := rfl
    have products : coreRules[12]? = some ⟨"math_neg_mul",
        [.numeric, .operators [.multiply, .divide], .minus, .numeric], .scaleNegated⟩ := rfl
    cases op with
    | power =>
      exact book.takes_negated (.inl rfl) powers (by unfold ForeignBefore; decide)
        List.mem_cons_self isLeft isFirst isMinus isRight
    | multiply | divide =>
      exact book.takes_negated (.inr rfl) products (by unfold ForeignBefore; decide) (by simp)
        isLeft isFirst isMinus isRight
    | add | subtract | bitOr | bitAnd =>
      exact book.evaluate_negated_last (by simp [patientOperators]) isLeft isFirst isMinus isRight
    | modulo => exact absurd rfl remainder
    | negate => exact absurd rfl binary

/-- `7 / -2` is the quotient of 7 and -2. -/
theorem evaluate_negated_operand_quotient :
    let seven : Number := .integer 7 (by decide)
    let two : Number := .integer 2 (by decide)
    let tokens : List Token :=
      [.data (.number seven), .operator .divide, .operator .negate, .data (.number two)]
    Operator.divide ≠ .negate ∧ tokens.map Token.content = [.data (.number seven),
        .symbol (.operator .divide), .symbol (.operator .negate), .data (.number two)] ∧
      core.evaluate tokens = .ok (.decimal ⟨-35, 1, by decide, by decide⟩) := by
  have value : Operator.divide.join (.integer 7) (.integer (-2)) =
      .ok (.decimal ⟨-35, 1, by decide, by decide⟩) := by rfl
  intro seven two tokens
  have binary : Operator.divide ≠ .negate := nofun
  have spelled : tokens.map Token.content = [.data (.number seven),
      .symbol (.operator .divide), .symbol (.operator .negate), .data (.number two)] := rfl
  have evaluated := (core.evaluate_negated_operand binary spelled).1.mpr nofun
  exact ⟨binary, spelled, evaluated.trans value⟩

/-- `7 % -3` cannot be reduced, though the remainder of 7 and -3 is -2. -/
theorem negated_remainder_unreducible :
    let seven : Number := .integer 7 (by decide)
    let three : Number := .integer 3 (by decide)
    let tokens : List Token :=
      [.data (.number seven), .operator .modulo, .operator .negate, .data (.number three)]
    Operator.modulo.join (.number seven) (.number three.negate) = .ok (.integer (-2)) ∧
      core.evaluate tokens = .error (.unreducible "0.07 -3") := by
  have hundredth : (Value.integer 7).percent = .ok (.decimal ⟨7, 2, by decide, by decide⟩) := by rfl
  have remainder : Operator.modulo.join (.integer 7) (.integer (-3)) = .ok (.integer (-2)) := by rfl
  have rendered : render [.data (.decimal ⟨7, 2, by decide, by decide⟩), .data (.integer (-3))] =
      "0.07 -3" := by rfl
  intro seven three tokens
  have isLeft : (Token.data (.number seven)).content = .data (.number seven) := rfl
  have isPercent : (Token.operator .modulo).content = .symbol (.operator .modulo) := rfl
  have isMinus : (Token.operator .negate).content = .symbol (.operator .negate) := rfl
  have isRight : (Token.data (.number three)).content = .data (.number three) := rfl
  obtain ⟨p, made, failed⟩ := core.evaluate_percent_negated isLeft isPercent isMinus isRight
  obtain rfl := Except.ok.inj (hundredth.symm.trans made)
  refine ⟨remainder, failed.trans ?_⟩
  exact congrArg (fun text => Except.error (FormulaError.unreducible text)) rendered

end RuleBook

end Formulary
