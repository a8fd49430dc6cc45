import Formulary.Proofs.CallPatterns
import Formulary.Proofs.Comparisons
import Formulary.Proofs.Errors
import Formulary.Proofs.Groups

/-!
What actions take apart. A rule only matches tokens of the shape that its action expects: calls
spelled out with their arguments, or values of one kind with the signs that go with it. So an
action that computes its value fails for what the values are, and for nothing else.
-/
namespace Formulary

/-! Single tokens -/

def Token.Holds (t : Token) (category : Category) : Prop :=
  ∃ v, t.content = .data v ∧ v.category = category

theorem Token.holds_of_category {t : Token} {category : Category} (same : t.category = category)
    (value : category ∈ [.numeric, .text, .logical, .dateTime]) : t.Holds category := by
  match content : t.content with
  | .data v => exact ⟨v, content, by rw [← same, category_of_data content]⟩
  | .identifier _ | .blank =>
    simp only [Token.category, content] at same
    subst same
    simp at value
  | .symbol symbol =>
    rw [category_of_symbol content] at same
    subst same
    cases symbol <;> simp [Symbol.category] at value

theorem Token.symbol_of_category {t : Token} {category : Category} (same : t.category = category)
    (sign : category ∈ [.operator, .comparator, .combinator, .function]) :
    ∃ symbol, t.content = .symbol symbol ∧ symbol.category = category := by
  match content : t.content with
  | .symbol symbol => exact ⟨symbol, rfl, by rw [← same, category_of_symbol content]⟩
  | .identifier _ | .blank =>
    simp only [Token.category, content] at same
    subst same
    simp at sign
  | .data v =>
    rw [category_of_data content] at same
    subst same
    cases v <;> simp [Value.category] at sign

theorem Matcher.holds_of_accepts {category : Category}
    (value : category ∈ [.numeric, .text, .logical, .dateTime]) {t : Token}
    (accepted : (ofCategory category).accepts t = true) : t.Holds category :=
  Token.holds_of_category (category_of_accepts rfl accepted) value

theorem Matcher.operator_of_accepts {ops : List Operator} (any : ops ≠ []) {t : Token}
    (accepted : (operators ops).accepts t = true) :
    ∃ op ∈ ops, t.content = .symbol (.operator op) := by
  obtain ⟨symbol, member, same⟩ := symbol_mem_of_accepts accepted (by simpa [symbols, operators])
  obtain ⟨op, inside, rfl⟩ := List.mem_map.mp member
  exact ⟨op, inside, Token.content_of_symbol? same⟩

theorem Matcher.comparator_of_accepts {m : Matcher} {symbols : List Symbol}
    (shape : m.shape = .one [.comparator] symbols) {t : Token} (accepted : m.accepts t = true) :
    ∃ sign, t.content = .symbol (.comparator sign) := by
  obtain ⟨symbol, content, same⟩ :=
    Token.symbol_of_category (category_of_accepts shape accepted) (by decide)
  cases symbol with
  | comparator sign => exact ⟨sign, content⟩
  | _ => cases same

def Token.IsMinus (t : Token) : Prop :=
  ∃ op ∈ [Operator.subtract, .negate], t.content = .symbol (.operator op)

inductive Symbol.Joins : Symbol → Category → Prop where
  | operator {op : Operator} (binary : op ≠ .negate) : Joins (.operator op) .numeric
  | comparator (sign : Comparator) {category : Category}
      (ordered : category ∈ [.numeric, .text, .dateTime]) : Joins (.comparator sign) category
  | combinator (word : Combinator) : Joins (.combinator word) .logical

/-! Operations on tokens that stand for values -/

theorem Operator.failsIn_join (op : Operator) (left right : Value) :
    FailsIn FormulaError.IsOperand (op.join left right) := by
  unfold join
  split
  · exact .bind (Arithmetic.failsIn_apply _ _ _) fun _ _ => .pure _
  · exact op.failsIn_bitwise left right

theorem Token.Holds.logical {t : Token} (holds : t.Holds .logical) :
    ∃ b, t.content = .data (.logical b) := by
  obtain ⟨v, content, same⟩ := holds
  cases v with
  | logical b => exact ⟨b, content⟩
  | _ => cases same

theorem Symbol.Joins.failsIn_apply {symbol : Symbol} {category : Category}
    (joins : symbol.Joins category) {left sign right : Token} (isLeft : left.Holds category)
    (isSign : sign.content = .symbol symbol) (isRight : right.Holds category) :
    FailsIn FormulaError.IsOperand (applyTokens left sign right) := by
  cases joins with
  | operator binary =>
    obtain ⟨l, isLeft, numericLeft⟩ := isLeft
    obtain ⟨r, isRight, numericRight⟩ := isRight
    rw [applyTokens_operator isLeft numericLeft isSign isRight numericRight]
    exact Operator.failsIn_join _ l r
  | comparator sign ordered =>
    obtain ⟨l, isLeft, _⟩ := isLeft
    obtain ⟨r, isRight, _⟩ := isRight
    rw [applyTokens_comparator isLeft isSign isRight]
    exact (sign.failsIn_compare l r).map
  | combinator word =>
    obtain ⟨b, isLeft⟩ := isLeft.logical
    obtain ⟨c, isRight⟩ := isRight.logical
    rw [applyTokens_combinator isLeft isSign isRight]
    exact .ok _

theorem negateToken_of_data {t : Token} {v : Value} (content : t.content = .data v) :
    negateToken t = v.negate := by
  unfold negateToken
  rw [Token.toOperand_of_data content]
  rfl

theorem Value.category_negate {v w : Value} (negated : v.negate = .ok w) :
    w.category = .numeric := by
  cases v with
  | number n =>
    cases negated
    rfl
  | _ => cases negated

theorem Token.Holds.failsIn_percent {t : Token} (holds : t.Holds .numeric) :
    FailsIn FormulaError.IsOperand (percentOfToken t) := by
  obtain ⟨v, content, numeric⟩ := holds
  have plain : percentOfToken t = v.percent >>= fun n => pure (.number n) := by
    unfold percentOfToken
    rw [toOperand_of_data content]
    simp only [bind, Except.bind, Node.ofPercent, Operand.check, numeric, if_true, pure,
      Except.pure, Node.value, Operand.resolve]
  rw [plain]
  exact .bind v.failsIn_percent fun _ _ => .pure _

/-! Shapes -/

/-- The tokens have the shape that the action takes apart. -/
inductive Action.Suits : Action → List Token → Prop where
  | choose {condition consequent alternative matched : List Token}
      (call : SpellsCall (.mk "if") [condition, consequent, alternative] matched)
      (each : ∀ span ∈ [condition, consequent, alternative], IsArgument span) :
      Suits .choose matched
  | call {action : Action} {name : Name} {arguments : List (List Token)} {matched : List Token}
      (calls : action = .call ∨ action = .round ∨ action = .roundInteger)
      (call : SpellsCall name arguments matched) (each : ∀ span ∈ arguments, IsArgument span) :
      Suits action matched
  | negateLogical {span matched : List Token} (call : SpellsCall (.mk "not") [span] matched)
      (argument : IsArgument span) : Suits .negateLogical matched
  | evaluateGroup {opening closing : Token} {inner : List Token}
      (opens : opening.content = .symbol (.grouping .opening))
      (closes : closing.content = .symbol (.grouping .closing))
      (balanced : endDepth? 0 inner = some 0) :
      Suits .evaluateGroup (opening :: (inner ++ [closing]))
  | negate {minus operand : Token} (isMinus : minus.IsMinus) (value : operand.Holds .numeric) :
      Suits .negate [minus, operand]
  | apply {left sign right : Token} {symbol : Symbol} {category : Category}
      (isLeft : left.Holds category) (isSign : sign.content = .symbol symbol)
      (isRight : right.Holds category) (joins : symbol.Joins category) :
      Suits .apply [left, sign, right]
  | negated {action : Action} {left sign minus right : Token} {op : Operator}
      (negates : action = .powerNegated ∨ action = .scaleNegated) (isLeft : left.Holds .numeric)
      (isSign : sign.content = .symbol (.operator op)) (binary : op ≠ .negate)
      (isMinus : minus.IsMinus) (isRight : right.Holds .numeric) :
      Suits action [left, sign, minus, right]
  | percentage {operand sign : Token} (value : operand.Holds .numeric)
      (isSign : sign.content = .symbol (.operator .modulo)) : Suits .percentage [operand, sign]
  | expandRange {a first b second c : Token} {sign sign' : Comparator} (isA : a.Holds .numeric)
      (isFirst : first.content = .symbol (.comparator sign)) (isB : b.Holds .numeric)
      (isSecond : second.content = .symbol (.comparator sign')) (isC : c.Holds .numeric) :
      Suits .expandRange [a, first, b, second, c]

theorem SpellsCall.splitArguments {name : Name} {arguments : List (List Token)}
    {matched : List Token} (call : SpellsCall name arguments matched)
    (each : ∀ span ∈ arguments, IsArgument span) :
    splitArguments (interior 2 matched) = arguments := by
  obtain ⟨isName, opens, closes, separated⟩ := call
  rename_i head opening closing inner
  have held : interior 2 (head :: opening :: (inner ++ [closing])) = inner :=
    interior_append [head, opening] inner closing
  rw [held]
  exact separated.splitArguments each

theorem SpellsCall.head {name : Name} {arguments : List (List Token)} {matched : List Token}
    (call : SpellsCall name arguments matched) :
    ∃ head, matched.head? = some head ∧ head.content = .symbol (.function name) := by
  cases call with
  | mk isName => exact ⟨_, rfl, isName⟩

theorem Action.Suits.failsIn_plan {action : Action} {matched : List Token}
    (suits : action.Suits matched) {outcome : Outcome Value}
    (planned : action.plan matched = .value outcome) : FailsIn FormulaError.IsOperand outcome := by
  cases suits with
  | choose call each =>
    rw [plan, call.splitArguments each] at planned
    cases planned
  | call calls call each =>
    obtain ⟨head, first, isName⟩ := call.head
    rw [RuleBook.plan_of_calls isName first calls] at planned
    cases planned
  | negateLogical | evaluateGroup | expandRange => cases planned
  | negate isMinus value =>
    cases planned
    obtain ⟨v, content, _⟩ := value
    exact negateToken_of_data content ▸ v.failsIn_negate
  | apply isLeft isSign isRight joins =>
    cases planned
    exact joins.failsIn_apply isLeft isSign isRight
  | @negated _ left sign minus right op negates isLeft isSign binary isMinus isRight =>
    have same : outcome = (do applyTokens left sign (.data (← negateToken right))) := by
      rcases negates with rfl | rfl <;> exact (Plan.value.inj planned).symm
    rw [same]
    obtain ⟨v, content, _⟩ := isRight
    rw [negateToken_of_data content]
    refine .bind v.failsIn_negate fun w negated => ?_
    exact (Symbol.Joins.operator binary).failsIn_apply isLeft isSign
      ⟨w, rfl, Value.category_negate negated⟩
  | percentage value isSign =>
    cases planned
    exact value.failsIn_percent

/-! What the rules match -/

theorem spellsCall_of_take? (signature : Signature) {name : Name} {atStart : Bool}
    {tokens : List Token} {n : Nat}
    (taken : Pattern.take? (callPattern name (Definition.argumentPattern signature)) atStart
      tokens = some n) :
    ∃ arguments, SpellsCall name arguments (tokens.take n) ∧
      (∀ span ∈ arguments, IsArgument span) ∧ signature.Fits arguments.length := by
  let d : Definition := ⟨name, signature, fun _ => .ok .null⟩
  obtain ⟨arguments, call, more, rfl, rfl, called⟩ := d.called_of_take? taken
  exact ⟨arguments, List.take_left ▸ called.spells, called.each, called.fits⟩

theorem suits_call (signature : Signature) {name : Name} {action : Action} {atStart : Bool}
    {tokens : List Token} {n : Nat}
    (calls : action = .call ∨ action = .round ∨ action = .roundInteger)
    (taken : Pattern.take? (callPattern name (Definition.argumentPattern signature)) atStart
      tokens = some n) : action.Suits (tokens.take n) := by
  obtain ⟨arguments, call, each, _⟩ := spellsCall_of_take? signature taken
  exact .call calls call each

theorem suits_general {atStart : Bool} {tokens : List Token} {n : Nat}
    (taken : Pattern.take? [.ofCategory .function, .callOpening, .arguments, .closing] atStart
      tokens = some n) : Action.call.Suits (tokens.take n) := by
  obtain ⟨_, length, here, there, rfl⟩ := Pattern.take?_cons taken
  obtain ⟨head, rest, rfl, accepted, rfl⟩ := Matcher.take?_one rfl here
  obtain ⟨symbol, content, same⟩ :=
    Token.symbol_of_category (Matcher.category_of_accepts rfl accepted) (by decide)
  cases symbol with
  | function name =>
    have isName : (Matcher.function name).accepts head = true :=
      (Matcher.accepts_function content).mpr rfl
    simp only [List.drop_one, List.tail_cons, Nat.reduceBEq, Bool.and_false] at there
    -- what is read behind the name does not depend on it
    have named : Pattern.take? (callPattern name [.arguments]) atStart (head :: rest) =
        some (1 + length) := by
      refine (Pattern.take?_cons_of_accepts ⟨_, _, rfl⟩ rfl isName _ _ _).trans ?_
      exact congrArg (Option.map (1 + ·)) there
    exact suits_call (.between 0 none) (.inl rfl) named
  | _ => cases same

theorem suits_choose {atStart : Bool} {tokens : List Token} {n : Nat}
    (taken : Pattern.take? (callPattern (.mk "if") [.run, .comma, .run, .comma, .run]) atStart
      tokens = some n) : Action.choose.Suits (tokens.take n) := by
  obtain ⟨arguments, call, each, fits⟩ :=
    spellsCall_of_take? (.parameters ["", "", ""]) taken
  obtain ⟨condition, consequent, alternative, rfl⟩ := List.length_eq_three.mp fits.symm
  exact .choose call each

theorem suits_invert {atStart : Bool} {tokens : List Token} {n : Nat}
    (taken : Pattern.take? (callPattern (.mk "not") [.run]) atStart tokens = some n) :
    Action.negateLogical.Suits (tokens.take n) := by
  obtain ⟨arguments, call, each, fits⟩ := spellsCall_of_take? (.parameters [""]) taken
  obtain ⟨span, rfl⟩ := List.length_eq_one_iff.mp fits.symm
  exact .negateLogical call (each span List.mem_cons_self)

theorem suits_group {atStart : Bool} {tokens : List Token} {n : Nat}
    (taken : Pattern.take? [.opening, .optionalRun, .closing] atStart tokens = some n) :
    Action.evaluateGroup.Suits (tokens.take n) := by
  obtain ⟨_, _, here, there, rfl⟩ := Pattern.take?_cons taken
  obtain ⟨opening, rest, rfl, opens, rfl⟩ := Matcher.take?_one rfl here
  rw [List.drop_one, List.tail_cons] at there
  obtain ⟨first, _, inner, last, rfl⟩ := Pattern.take?_cons there
  obtain ⟨closing, more, behind, closes, rfl⟩ := Pattern.closing_of_take? last
  have held : (rest.drop first).take 1 = [closing] := by rw [behind]; rfl
  rw [Nat.add_comm, List.take_succ_cons, List.take_add, held]
  exact .evaluateGroup (Matcher.content_of_accepts rfl opens) closes
    (Matcher.take?_balanced (by simp [Matcher.optionalRun]) inner (by simp [behind]))

theorem suits_apply {category : Category}
    (value : category ∈ [.numeric, .text, .logical, .dateTime]) {sign : Matcher}
    {matched : List Token}
    (accepts : Pattern.Accepts [.ofCategory category, sign, .ofCategory category] matched)
    (joins : ∀ t, sign.accepts t = true →
      ∃ symbol, t.content = .symbol symbol ∧ symbol.Joins category) :
    Action.apply.Suits matched := by
  match matched, accepts with
  | [_, t, _], ⟨isLeft, isSign, isRight, _⟩ =>
    obtain ⟨symbol, content, joins⟩ := joins t isSign
    exact .apply (Matcher.holds_of_accepts value isLeft) content
      (Matcher.holds_of_accepts value isRight) joins

theorem joins_operators {ops : List Operator} (any : ops ≠ []) (binary : .negate ∉ ops)
    (t : Token) (accepted : (Matcher.operators ops).accepts t = true) :
    ∃ symbol, t.content = .symbol symbol ∧ symbol.Joins .numeric := by
  obtain ⟨op, inside, content⟩ := Matcher.operator_of_accepts any accepted
  exact ⟨_, content, .operator fun same => binary (same ▸ inside)⟩

theorem joins_comparators {category : Category} (ordered : category ∈ [.numeric, .text, .dateTime])
    (t : Token) (accepted : Matcher.comparator.accepts t = true) :
    ∃ symbol, t.content = .symbol symbol ∧ symbol.Joins category := by
  obtain ⟨sign, content⟩ := Matcher.comparator_of_accepts rfl accepted
  exact ⟨_, content, .comparator sign ordered⟩

theorem joins_combinators (t : Token) (accepted : Matcher.combinator.accepts t = true) :
    ∃ symbol, t.content = .symbol symbol ∧ symbol.Joins .logical := by
  obtain ⟨symbol, content, same⟩ :=
    Token.symbol_of_category (Matcher.category_of_accepts rfl accepted) (by decide)
  cases symbol with
  | combinator word => exact ⟨_, content, .combinator word⟩
  | _ => cases same

theorem suits_negate {anchored : Bool} {matched : List Token}
    (accepts : Pattern.Accepts [⟨Matcher.minus.shape, anchored⟩, .numeric] matched) :
    Action.negate.Suits matched := by
  match matched, accepts with
  | [_, _], ⟨isMinus, isNumeric, _⟩ =>
    exact .negate (Matcher.operator_of_accepts (List.cons_ne_nil _ _) isMinus)
      (Matcher.holds_of_accepts (by decide) isNumeric)

theorem suits_negated {action : Action} (negates : action = .powerNegated ∨ action = .scaleNegated)
    {ops : List Operator} (any : ops ≠ []) (binary : .negate ∉ ops) {matched : List Token}
    (accepts : Pattern.Accepts [.numeric, .operators ops, .minus, .numeric] matched) :
    action.Suits matched := by
  match matched, accepts with
  | [_, _, _, _], ⟨isLeft, isSign, isMinus, isRight, _⟩ =>
    obtain ⟨op, inside, content⟩ := Matcher.operator_of_accepts any isSign
    exact .negated negates (Matcher.holds_of_accepts (by decide) isLeft) content
      (fun same => binary (same ▸ inside))
      (Matcher.operator_of_accepts (List.cons_ne_nil _ _) isMinus)
      (Matcher.holds_of_accepts (by decide) isRight)

theorem suits_percentage {matched : List Token}
    (accepts : Pattern.Accepts [.numeric, .modulo] matched) : Action.percentage.Suits matched := by
  match matched, accepts with
  | [_, _], ⟨isNumeric, isSign, _⟩ =>
    exact .percentage (Matcher.holds_of_accepts (by decide) isNumeric)
      (Matcher.content_of_accepts rfl isSign)

theorem suits_range {signs : List Comparator} {matched : List Token}
    (accepts : (chaining signs).Accepts matched) : Action.expandRange.Suits matched := by
  match matched, accepts with
  | [_, _, _, _, _], ⟨isA, isFirst, isB, isSecond, isC, _⟩ =>
    obtain ⟨_, isFirst⟩ := Matcher.comparator_of_accepts rfl isFirst
    obtain ⟨_, isSecond⟩ := Matcher.comparator_of_accepts rfl isSecond
    exact .expandRange (Matcher.holds_of_accepts (by decide) isA) isFirst
      (Matcher.holds_of_accepts (by decide) isB) isSecond
      (Matcher.holds_of_accepts (by decide) isC)

theorem accepts_of_singles {pattern : Pattern}
    (single : pattern.all (fun m => match m.shape with | .one _ _ => true | _ => false) = true)
    {atStart : Bool} {tokens : List Token} {n : Nat}
    (taken : pattern.take? atStart tokens = some n) : pattern.Accepts (tokens.take n) := by
  refine Pattern.accepts_of_take? (fun m member => ?_) taken
  have one := List.all_eq_true.mp single m member
  split at one
  · exact ⟨_, _, by assumption⟩
  · cases one

theorem suits_of_take?_core {rule : Rule} (member : rule ∈ coreRules) {atStart : Bool}
    {tokens : List Token} {n : Nat} (taken : rule.pattern.take? atStart tokens = some n) :
    rule.action.Suits (tokens.take n) := by
  have general {name : Name} {action : Action}
      (calls : action = .call ∨ action = .round ∨ action = .roundInteger)
      (taken : Pattern.take? (callPattern name [.arguments]) atStart tokens = some n) :
      action.Suits (tokens.take n) := suits_call (.between 0 none) calls taken
  have operator {ops : List Operator} (any : ops ≠ []) (binary : .negate ∉ ops)
      (taken : (between ops).take? atStart tokens = some n) :
      Action.apply.Suits (tokens.take n) :=
    suits_apply (by decide) (accepts_of_singles rfl taken) (joins_operators any binary)
  have comparator {category : Category} (ordered : category ∈ [.numeric, .text, .dateTime])
      (taken : (comparing category).take? atStart tokens = some n) :
      Action.apply.Suits (tokens.take n) := by
    refine suits_apply ?_ (accepts_of_singles rfl taken) (joins_comparators ordered)
    simp only [List.mem_cons, List.not_mem_nil, or_false] at ordered ⊢
    tauto
  simp only [coreRules, List.mem_cons, List.not_mem_nil, or_false] at member
  rcases member with rfl | rfl | rfl | rfl | rfl | rfl | rfl | rfl | rfl | rfl | rfl | rfl | rfl |
    rfl | rfl | rfl | rfl | rfl | rfl | rfl | rfl | rfl | rfl
  · exact suits_choose taken
  · exact general (.inr (.inl rfl)) taken
  · exact general (.inr (.inr rfl)) taken
  · exact general (.inr (.inr rfl)) taken
  · exact suits_invert taken
  · exact suits_general taken
  · exact suits_group taken
  · exact suits_negate (accepts_of_singles rfl taken)
  · exact operator (by decide) (by decide) taken
  · exact suits_negated (.inl rfl) (by decide) (by decide) (accepts_of_singles rfl taken)
  · exact operator (by decide) (by decide) taken
  · exact operator (by decide) (by decide) taken
  · exact suits_negated (.inr rfl) (by decide) (by decide) (accepts_of_singles rfl taken)
  · exact operator (by decide) (by decide) taken
  · exact operator (by decide) (by decide) taken
  · exact suits_percentage (accepts_of_singles rfl taken)
  · exact suits_negate (accepts_of_singles rfl taken)
  · exact suits_range (accepts_of_singles rfl taken)
  · exact suits_range (accepts_of_singles rfl taken)
  · exact comparator (by decide) taken
  · exact comparator (by decide) taken
  · exact comparator (by decide) taken
  · exact suits_apply (by decide) (accepts_of_singles rfl taken) joins_combinators

namespace RuleBook

variable {book : RuleBook} {tokens : List Token} {m : RuleMatch}

/-- What a rule has matched has the shape that its action takes apart. -/
theorem suits_of_find? (found : book.find? tokens = some m) :
    m.rule.action.Suits (m.stretch.select tokens) := by
  have first := firstMatch_of_find? found
  rcases List.mem_append.mp (List.mem_of_getElem? first.known) with custom | core
  · obtain ⟨d, _, same⟩ := List.mem_map.mp custom
    have here := first.here
    rw [← same] at here ⊢
    exact suits_call d.signature (.inl rfl) here
  · exact suits_of_take?_core core first.here

theorem within_of_find? (found : book.find? tokens = some m) :
    m.stretch.start + m.stretch.length ≤ tokens.length := by
  have several := (matched_of_find? found).nonempty
  have short := Pattern.take?_le (firstMatch_of_find? found).here
  simp only [List.length_drop] at short
  -- a match of no tokens could begin behind the end, but none is empty
  by_cases past : tokens.length ≤ m.stretch.start
  · refine absurd ?_ several
    simp [Stretch.select, List.drop_eq_nil_of_le past]
  · omega

end RuleBook

end Formulary
