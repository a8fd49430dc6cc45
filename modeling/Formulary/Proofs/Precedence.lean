import Formulary.Proofs.Levels
import Formulary.Proofs.Search

/-!
Precedence. Rules are tried in their order, each at its leftmost match, and that is all there is to
it. On a series of numbers it comes to the same as the conventional tree.
-/
namespace Formulary

def leading (before : List (Value × Operator)) : List Content :=
  before.flatMap fun step => [.data step.1, .symbol (.operator step.2)]

def Series.IsNumeric (s : Series Value) : Prop :=
  s.first.category = .numeric ∧ ∀ step ∈ s.rest, step.2.category = .numeric

/-! Tokens of a series -/

namespace Matcher

theorem accepts_numeric {t : Token} {v : Value} (content : t.content = .data v)
    (number : v.category = .numeric) : numeric.accepts t = true :=
  accepts_of_category ((Token.category_of_data content).trans number)

theorem accepts_operators (ops : List Operator) {t : Token} {op : Operator}
    (content : t.content = .symbol (.operator op)) :
    (operators ops).accepts t = true ↔ ops = [] ∨ op ∈ ops := by
  have category : t.category = .operator := Token.category_of_symbol content
  have symbol := Token.symbol?_of_symbol content
  simp [accepts, operators, categories, symbols, category, symbol]

theorem isSingle_numeric : numeric.IsSingle := ⟨_, _, rfl⟩

theorem isSingle_operators (ops : List Operator) : (operators ops).IsSingle := ⟨_, _, rfl⟩

end Matcher

def between (level : List Operator) : Pattern := [.numeric, .operators level, .numeric]

theorem between_take?_operator (level : List Operator) {t : Token} {op : Operator}
    (content : t.content = .symbol (.operator op)) (atStart : Bool) (rest : List Token) :
    (between level).take? atStart (t :: rest) = none := by
  have other : t.category ≠ .numeric := by
    rw [Token.category_of_symbol content]
    simp [Symbol.category]
  exact Pattern.take?_cons_of_rejects Matcher.isSingle_numeric
    (Matcher.rejects_of_category rfl other) _ _ _

theorem between_take?_other {level : List Operator} (some : level ≠ []) {left : Token} {v : Value}
    (operand : left.content = .data v) (number : v.category = .numeric) {t : Token} {op : Operator}
    (content : t.content = .symbol (.operator op)) (apart : op ∉ level) (atStart : Bool)
    (rest : List Token) : (between level).take? atStart (left :: t :: rest) = none := by
  have rejected : (Matcher.operators level).accepts t = false := by
    rw [Bool.eq_false_iff, ne_eq, Matcher.accepts_operators level content]
    rintro (none | joined)
    · exact some none
    · exact apart joined
  unfold between
  rw [Pattern.take?_cons_of_accepts Matcher.isSingle_numeric rfl
    (Matcher.accepts_numeric operand number),
    Pattern.take?_cons_of_rejects (Matcher.isSingle_operators level) rejected]
  rfl

theorem between_take? {level : List Operator} {left right : Token} {l r : Value}
    (isLeft : left.content = .data l) (numericLeft : l.category = .numeric) {t : Token}
    {op : Operator} (content : t.content = .symbol (.operator op)) (joined : op ∈ level)
    (isRight : right.content = .data r) (numericRight : r.category = .numeric) (atStart : Bool)
    (rest : List Token) :
    (between level).take? atStart (left :: t :: right :: rest) = some 3 := by
  have accepted := (Matcher.accepts_operators level content).mpr (.inr joined)
  refine Pattern.take?_three ?_ (Matcher.accepts_numeric isLeft numericLeft) accepted
    (Matcher.accepts_numeric isRight numericRight) atStart rest
  have number : Matcher.numeric.IsSingle ∧ Matcher.numeric.anchored = false :=
    ⟨Matcher.isSingle_numeric, rfl⟩
  simp only [List.forall_mem_cons]
  exact ⟨number, ⟨Matcher.isSingle_operators level, rfl⟩, number, nofun⟩

theorem between_findFrom? {level : List Operator} (some : level ≠ [])
    {before : List (Value × Operator)} (apart : ∀ step ∈ before, step.2 ∉ level)
    (numeric : ∀ step ∈ before, step.1.category = .numeric) {passed : List Token}
    (spelled : passed.map Token.content = leading before) (start : Nat) (rest : List Token) :
    (between level).findFrom? start (passed ++ rest) =
      (between level).findFrom? (start + passed.length) rest := by
  induction before generalizing start passed with
  | nil =>
    have none : passed = [] := List.map_eq_nil_iff.mp spelled
    rw [none]
    rfl
  | cons step before ih =>
    obtain ⟨left, behind, rfl, isLeft, spelled⟩ := List.map_eq_cons_iff.mp spelled
    obtain ⟨sign, behind, rfl, isSign, spelled⟩ := List.map_eq_cons_iff.mp spelled
    have here := between_take?_other some isLeft (numeric step List.mem_cons_self) isSign
      (apart step List.mem_cons_self) (start == 0) (behind ++ rest)
    have there := between_take?_operator level isSign (start + 1 == 0) (behind ++ rest)
    have later := ih (fun other member => apart other (List.mem_cons_of_mem step member))
      (fun other member => numeric other (List.mem_cons_of_mem step member)) spelled (start + 2)
    simp only [List.cons_append, Pattern.findFrom?, here, there, List.length_cons]
    rw [show start + (behind.length + 1 + 1) = start + 2 + behind.length by omega]
    exact later

theorem between_find? {level : List Operator} {before : List (Value × Operator)}
    (apart : ∀ step ∈ before, step.2 ∉ level)
    (numeric : ∀ step ∈ before, step.1.category = .numeric) {passed : List Token}
    (spelled : passed.map Token.content = leading before) {left sign right : Token} {l r : Value}
    {op : Operator} (isLeft : left.content = .data l) (numericLeft : l.category = .numeric)
    (isSign : sign.content = .symbol (.operator op)) (joined : op ∈ level)
    (isRight : right.content = .data r) (numericRight : r.category = .numeric)
    (rest : List Token) :
    (between level).find? (passed ++ left :: sign :: right :: rest) = some ⟨passed.length, 3⟩ := by
  have taken := between_take? isLeft numericLeft isSign joined isRight numericRight
  have walked := between_findFrom? (List.ne_nil_of_mem joined) apart numeric spelled 0
    (left :: sign :: right :: rest)
  have free : (between level).isAnchored = false := rfl
  unfold Pattern.find?
  rw [if_neg (by simp [free]), walked, Nat.zero_add, Pattern.findFrom?, taken]

/-! Rules that match nowhere -/

def Operator.place : Operator → Nat
  | .power => 8
  | .modulo => 10
  | .multiply | .divide => 11
  | .add | .subtract => 13
  | .bitOr | .bitAnd | .negate => 14

def Waits (place : Nat) (t : Token) : Prop :=
  t.category = .numeric ∨
    ∃ op : Operator, t.content = .symbol (.operator op) ∧ place ≤ op.place ∧ op ≠ .negate

theorem Waits.category {place : Nat} {t : Token} (waits : Waits place t) :
    t.category = .numeric ∨ t.category = .operator := by
  rcases waits with number | ⟨op, content, _⟩
  · exact .inl number
  · exact .inr (Token.category_of_symbol content)

theorem Waits.rejected {place : Nat} {t : Token} (waits : Waits place t) {ops : List Operator}
    (some : ops ≠ []) (earlier : ∀ op ∈ ops, op.place < place) :
    (Matcher.operators ops).accepts t = false := by
  rcases waits with number | ⟨op, content, later, _⟩
  · exact Matcher.rejects_of_category rfl (by rw [number]; decide)
  · rw [Bool.eq_false_iff, ne_eq, Matcher.accepts_operators ops content]
    rintro (none | joined)
    · exact some none
    · have := earlier op joined
      omega

theorem leadingMinus_find?_eq_none {tokens : List Token}
    (starts : ∀ t ∈ tokens.head?, t.category ≠ .operator) :
    Pattern.find? [.leadingMinus, .numeric] tokens = none := by
  have anchored : Pattern.isAnchored [.leadingMinus, .numeric] = true := rfl
  have single : Matcher.leadingMinus.IsSingle := ⟨_, _, rfl⟩
  have none : Pattern.take? [.leadingMinus, .numeric] true tokens = none := by
    cases tokens with
    | nil => exact Pattern.take?_nil_of_headed ⟨_, _, rfl, single⟩ true
    | cons t rest =>
      have rejects : Matcher.leadingMinus.accepts t = false :=
        Matcher.rejects_of_category rfl (starts t rfl)
      exact Pattern.take?_cons_of_rejects single rejects _ _ _
  unfold Pattern.find?
  rw [if_pos anchored, none]
  rfl

section

variable {place : Nat} {tokens : List Token} (waits : ∀ t ∈ tokens, Waits place t)

include waits

theorem find?_eq_none_of_head {m : Matcher} {category : Category} {symbols : List Symbol}
    (shape : m.shape = .one [category] symbols)
    (other : category ≠ .numeric ∧ category ≠ .operator) (pattern : Pattern) :
    Pattern.find? (m :: pattern) tokens = none := by
  refine Pattern.find?_eq_none_of_absent List.mem_cons_self ⟨_, _, shape⟩ fun t member => ?_
  refine Matcher.rejects_of_category shape ?_
  rcases (waits t member).category with same | same
  · rw [same]
    exact other.1.symm
  · rw [same]
    exact other.2.symm

theorem find?_eq_none_of_operators {ops : List Operator} (some : ops ≠ [])
    (earlier : ∀ op ∈ ops, op.place < place) {pattern : Pattern}
    (member : Matcher.operators ops ∈ pattern) : pattern.find? tokens = none :=
  Pattern.find?_eq_none_of_absent member (Matcher.isSingle_operators ops) fun t inside =>
    (waits t inside).rejected some earlier

/-- Up to the place, everything that could match begins with another kind of token or needs an
    operator that is not there. A minus in front of all is not there either. -/
theorem core_find?_eq_none (number : ∀ t ∈ tokens.head?, t.category = .numeric)
    (least : place ≤ 14) {rule : Rule} (member : rule ∈ coreRules.take place) :
    rule.pattern.find? tokens = none := by
  obtain ⟨index, below, same⟩ := List.mem_take_iff_getElem.mp member
  have early : index < place := by omega
  have known : coreRules[index]? = some rule := List.getElem?_eq_some_iff.mpr ⟨_, same⟩
  have function {m : Matcher} {symbols : List Symbol} (shape : m.shape = .one [.function] symbols)
      {pattern : Pattern} : Pattern.find? (m :: pattern) tokens = none :=
    find?_eq_none_of_head waits shape (by decide) pattern
  have operator (ops : List Operator) (some : ops ≠ []) {bound : Nat} (below : bound < place)
      (later : ∀ op ∈ ops, op.place ≤ bound) {pattern : Pattern}
      (inside : Matcher.operators ops ∈ pattern) : pattern.find? tokens = none :=
    find?_eq_none_of_operators waits some
      (fun op among => Nat.lt_of_le_of_lt (later op among) below) inside
  match index, known, early with
  | 0, known, _ | 1, known, _ | 2, known, _ | 3, known, _ | 4, known, _ | 5, known, _ =>
    cases known
    exact function rfl
  | 6, known, _ =>
    cases known
    have shape : Matcher.opening.shape = .one [.grouping] [.grouping .opening] := rfl
    exact find?_eq_none_of_head waits shape (by decide) _
  | 7, known, _ =>
    cases known
    refine leadingMinus_find?_eq_none fun t first => ?_
    rw [number t first]
    decide
  | 8, known, early | 9, known, early =>
    cases known
    exact operator [.power] (List.cons_ne_nil _ _) early (by decide) (by simp [Matcher.power])
  | 10, known, early =>
    cases known
    exact operator [.modulo] (List.cons_ne_nil _ _) early (by decide) (by simp [Matcher.modulo])
  | 11, known, early | 12, known, early =>
    cases known
    exact operator [.multiply, .divide] (List.cons_ne_nil _ _) early (by decide)
      (by simp [Matcher.multiplyDivide])
  | 13, known, early =>
    cases known
    exact operator [.add, .subtract] (List.cons_ne_nil _ _) early (by decide)
      (by simp [Matcher.addSubtract])
  | index + 14, _, early => omega

end

theorem custom_find?_eq_none {place : Nat} {tokens : List Token}
    (waits : ∀ t ∈ tokens, Waits place t) (d : Definition) : d.pattern.find? tokens = none := by
  have shape : (Matcher.function d.name).shape = .one [.function] [.function d.name] := rfl
  exact find?_eq_none_of_head waits shape (by decide) _

/-! One step -/

theorem number_of_join {op : Operator} {l r v : Value} (joined : op.join l r = .ok v) :
    ∃ n, v = .number n := by
  unfold Operator.join at joined
  split at joined
  · obtain ⟨n, _, same⟩ := bind_eq_ok.mp joined
    exact ⟨n, (Except.ok.inj same).symm⟩
  · unfold Operator.bitwise at joined
    cases op with
    | bitOr | bitAnd =>
      obtain ⟨a, _, rest⟩ := bind_eq_ok.mp joined
      obtain ⟨b, _, same⟩ := bind_eq_ok.mp rest
      exact ⟨_, (Except.ok.inj same).symm⟩
    | _ => cases joined

theorem category_join {op : Operator} {l r v : Value} (joined : op.join l r = .ok v) :
    v.category = .numeric := by
  obtain ⟨n, rfl⟩ := number_of_join joined
  rfl

theorem Token.toOperand_of_data {t : Token} {v : Value} (content : t.content = .data v) :
    t.toOperand = .ok (.known v) := by
  simp [toOperand, Operand.ofToken?, content]

theorem applyTokens_operator {left sign right : Token} {l r : Value} {op : Operator}
    (isLeft : left.content = .data l) (numericLeft : l.category = .numeric)
    (isSign : sign.content = .symbol (.operator op)) (isRight : right.content = .data r)
    (numericRight : r.category = .numeric) : applyTokens left sign right = op.join l r := by
  unfold applyTokens Operator.join
  rw [Token.toOperand_of_data isLeft, Token.toOperand_of_data isRight,
    Token.symbol?_of_symbol isSign]
  cases kind : Arithmetic.ofOperator? op with
  | none => simp [kind, bind, Except.bind, Operand.resolve]
  | some arithmetic =>
    simp [kind, bind, Except.bind, Node.ofArithmetic, Operand.check, numericLeft, numericRight,
      Node.value, Operand.resolve, pure, Except.pure]

theorem core_operator {level : List Operator} (known : level ∈ levels) {op : Operator}
    (joined : op ∈ level) :
    ∃ name, coreRules[op.place]? = some ⟨name, between level, .apply⟩ := by
  simp only [levels, List.mem_cons, List.not_mem_nil, or_false] at known
  rcases known with rfl | rfl | rfl | rfl | rfl
  all_goals
    cases op
    all_goals first
      | exact ⟨_, rfl⟩
      | simp at joined

theorem mem_level_iff {level : List Operator} (known : level ∈ levels) {op other : Operator}
    (joined : op ∈ level) (binary : other ≠ .negate) :
    other ∈ level ↔ other.place = op.place := by
  simp only [levels, List.mem_cons, List.not_mem_nil, or_false] at known
  rcases known with rfl | rfl | rfl | rfl | rfl
  all_goals
    cases op
    all_goals first
      | (simp at joined; done)
      | (cases other <;> first | exact absurd rfl binary | simp [Operator.place])

namespace RuleBook

/-- The operators of the series, and those before it, wait for one place or a later one. -/
structure Ready (place : Nat) (before : List (Value × Operator)) (s : Series Value) : Prop where
  numericBefore : ∀ step ∈ before, step.1.category = .numeric
  numeric : s.IsNumeric
  passed : ∀ step ∈ before, place < step.2.place ∧ step.2 ≠ .negate
  waiting : ∀ step ∈ s.rest, place ≤ step.1.place ∧ step.1 ≠ .negate

theorem Ready.waits {place : Nat} {before : List (Value × Operator)} {s : Series Value}
    (ready : Ready place before s) {tokens : List Token}
    (spelled : tokens.map Token.content = leading before ++ s.contents) :
    ∀ t ∈ tokens, Waits place t := by
  intro t member
  have inside : t.content ∈ leading before ++ s.contents := spelled ▸ List.mem_map_of_mem member
  have number {v : Value} (content : t.content = .data v) (numeric : v.category = .numeric) :
      Waits place t := .inl ((Token.category_of_data content).trans numeric)
  rcases List.mem_append.mp inside with inBefore | inSeries
  · obtain ⟨step, among, here⟩ := List.mem_flatMap.mp inBefore
    rcases List.mem_cons.mp here with content | content
    · exact number content (ready.numericBefore step among)
    · have content := List.mem_singleton.mp content
      obtain ⟨later, binary⟩ := ready.passed step among
      exact .inr ⟨step.2, content, Nat.le_of_lt later, binary⟩
  · rcases List.mem_cons.mp inSeries with content | inRest
    · exact number content ready.numeric.1
    · obtain ⟨step, among, here⟩ := List.mem_flatMap.mp inRest
      rcases List.mem_cons.mp here with content | content
      · obtain ⟨later, binary⟩ := ready.waiting step among
        exact .inr ⟨step.1, content, later, binary⟩
      · exact number (List.mem_singleton.mp content) (ready.numeric.2 step among)

theorem Ready.first {place : Nat} {before : List (Value × Operator)} {s : Series Value}
    (ready : Ready place before s) {tokens : List Token}
    (spelled : tokens.map Token.content = leading before ++ s.contents) :
    ∀ t ∈ tokens.head?, t.category = .numeric := by
  cases before with
  | nil =>
    obtain ⟨first, rest, rfl, content, _⟩ := List.map_eq_cons_iff.mp spelled
    rintro t ⟨⟩
    exact (Token.category_of_data content).trans ready.numeric.1
  | cons step before =>
    obtain ⟨first, rest, rfl, content, _⟩ := List.map_eq_cons_iff.mp spelled
    rintro t ⟨⟩
    exact (Token.category_of_data content).trans (ready.numericBefore step List.mem_cons_self)

theorem joins (book : RuleBook) {level : List Operator} (known : level ∈ levels) {op : Operator}
    (joined : op ∈ level) {before : List (Value × Operator)} {l r : Value}
    {rest : List (Operator × Value)} (ready : Ready op.place before ⟨l, (op, r) :: rest⟩)
    {tokens : List Token} (spelled : tokens.map Token.content =
      leading before ++ (⟨l, (op, r) :: rest⟩ : Series Value).contents) :
    book.Becomes [] tokens
      ((op.join l r).map fun v => leading before ++ (⟨v, rest⟩ : Series Value).contents) := by
  have waits := ready.waits spelled
  have first := ready.first spelled
  obtain ⟨passed, behind, rfl, isPassed, spelled⟩ := List.map_eq_append_iff.mp spelled
  obtain ⟨left, behind, rfl, isLeft, spelled⟩ := List.map_eq_cons_iff.mp spelled
  obtain ⟨sign, behind, rfl, isSign, spelled⟩ := List.map_eq_cons_iff.mp spelled
  obtain ⟨right, behind, rfl, isRight, spelled⟩ := List.map_eq_cons_iff.mp spelled
  have numericLeft : l.category = .numeric := ready.numeric.1
  have numericRight : r.category = .numeric := ready.numeric.2 (op, r) List.mem_cons_self
  have apart : ∀ step ∈ before, step.2 ∉ level := by
    intro step member inside
    obtain ⟨later, binary⟩ := ready.passed step member
    have same := (mem_level_iff known joined binary).mp inside
    omega
  obtain ⟨name, rule⟩ := core_operator known joined
  have least : op.place ≤ 14 := by cases op <;> decide
  have found : book.find? _ = _ := find?_core rule
    (between_find? apart ready.numericBefore isPassed isLeft numericLeft isSign joined isRight
      numericRight behind)
    (fun d _ => custom_find?_eq_none waits d)
    (fun other member => core_find?_eq_none waits first least member)
  have long : ¬ (passed ++ left :: sign :: right :: behind).length ≤ 1 := by
    simp only [List.length_append, List.length_cons]
    omega
  have selected : Stretch.select ⟨passed.length, 3⟩ (passed ++ left :: sign :: right :: behind) =
      [left, sign, right] := by simp [Stretch.select]
  have applied := applyTokens_operator isLeft numericLeft isSign isRight numericRight
  have step := book.evaluate_step long found
  rw [rewrite, selected] at step
  simp only [Action.plan, applied, replacement] at step
  cases value : op.join l r with
  | error e =>
    rw [value] at step
    exact step
  | ok v =>
    rw [value] at step
    refine ⟨passed ++ .data v :: behind, ?_, ?_⟩
    · have isBehind : behind.map Token.content =
          rest.flatMap fun step => [.symbol (.operator step.1), .data step.2] := spelled
      simp only [List.map_append, List.map_cons, isPassed, isBehind, Series.contents]
      rfl
    · rw [List.nil_append, List.nil_append, step]
      simp [Stretch.splice, bind, Except.bind, pure, Except.pure]

/-! Runs of steps -/

theorem leading_append (before : List (Value × Operator)) (v : Value) (op : Operator)
    (contents : List Content) : leading (before ++ [(v, op)]) ++ contents =
      leading before ++ .data v :: .symbol (.operator op) :: contents := by
  simp [leading]

theorem numeric_compute {level : List Operator} {first : Value} {rest : List (Operator × Value)}
    (numeric : (⟨first, rest⟩ : Series Value).IsNumeric) {s : Series Value}
    (computed : compute level first rest = .ok s) : s.IsNumeric := by
  induction rest generalizing first s with
  | nil =>
    cases computed
    exact numeric
  | cons step rest ih =>
    obtain ⟨op, next⟩ := step
    have others : ∀ step ∈ rest, step.2.category = .numeric := fun step member =>
      numeric.2 step (List.mem_cons_of_mem _ member)
    unfold compute at computed
    by_cases joined : op ∈ level
    · rw [if_pos joined] at computed
      obtain ⟨v, value, computed⟩ := bind_eq_ok.mp computed
      exact ih ⟨category_join value, others⟩ computed
    · rw [if_neg joined] at computed
      obtain ⟨inner, within, same⟩ := bind_eq_ok.mp computed
      cases same
      obtain ⟨start, later⟩ := ih ⟨numeric.2 (op, next) List.mem_cons_self, others⟩ within
      constructor
      · exact numeric.1
      · intro step member
        rcases List.mem_cons.mp member with rfl | member
        · exact start
        · exact later step member

theorem computes (book : RuleBook) {level : List Operator} (known : level ∈ levels)
    {lead : Operator} (leads : lead ∈ level) {before : List (Value × Operator)} {first : Value}
    {rest : List (Operator × Value)} (ready : Ready lead.place before ⟨first, rest⟩)
    {tokens : List Token}
    (spelled : tokens.map Token.content =
      leading before ++ (⟨first, rest⟩ : Series Value).contents) :
    book.Becomes [] tokens
      ((compute level first rest).map fun s => leading before ++ s.contents) := by
  -- All steps of one level. By induction on what is still to the right: an operator of the level is
  -- joined next, any other is passed.
  induction rest generalizing before first tokens with
  | nil => exact ⟨tokens, spelled, rfl⟩
  | cons step rest ih =>
    obtain ⟨op, next⟩ := step
    obtain ⟨numericBefore, numeric, passed, waiting⟩ := ready
    have others : ∀ step ∈ rest, step.2.category = .numeric := fun step member =>
      numeric.2 step (List.mem_cons_of_mem _ member)
    have later : ∀ step ∈ rest, lead.place ≤ step.1.place ∧ step.1 ≠ .negate :=
      fun step member => waiting step (List.mem_cons_of_mem _ member)
    obtain ⟨here, binary⟩ := waiting (op, next) List.mem_cons_self
    have same := mem_level_iff known leads binary
    by_cases joined : op ∈ level
    · have ready : Ready op.place before ⟨first, (op, next) :: rest⟩ := by
        rw [same.mp joined]
        exact ⟨numericBefore, numeric, passed, waiting⟩
      have step := book.joins known joined ready spelled
      simp only [compute, if_pos joined]
      exact step.bind fun v after value spelled =>
        ih ⟨numericBefore, ⟨category_join value, others⟩, passed, later⟩ spelled
    · have further : ∀ step ∈ before ++ [(first, op)],
          lead.place < step.2.place ∧ step.2 ≠ .negate := by
        intro step member
        rcases List.mem_append.mp member with earlier | last
        · exact passed step earlier
        · obtain rfl := List.mem_singleton.mp last
          exact ⟨Nat.lt_of_le_of_ne here fun equal => joined (same.mpr equal.symm), binary⟩
      have numericFurther : ∀ step ∈ before ++ [(first, op)], step.1.category = .numeric := by
        intro step member
        rcases List.mem_append.mp member with earlier | last
        · exact numericBefore step earlier
        · obtain rfl := List.mem_singleton.mp last
          exact numeric.1
      have ready : Ready lead.place (before ++ [(first, op)]) ⟨next, rest⟩ :=
        ⟨numericFurther, ⟨numeric.2 (op, next) List.mem_cons_self, others⟩, further, later⟩
      have run := ih ready (by rw [leading_append]; exact spelled)
      simp only [compute, if_neg joined]
      cases computed : compute level next rest with
      | error e =>
        rw [computed] at run
        exact run
      | ok s =>
        rw [computed] at run
        simp only [Except.map, leading_append] at run
        exact run

theorem levels_nonempty {level : List Operator} (known : level ∈ levels) : level ≠ [] := by
  simp only [levels, List.mem_cons, List.not_mem_nil, or_false] at known
  rcases known with rfl | rfl | rfl | rfl | rfl <;> exact List.cons_ne_nil _ _

theorem levels_ordered : levels.Pairwise fun level other =>
    ∀ op ∈ level, ∀ later ∈ other, op.place < later.place := by decide

theorem place_le {done remaining : List (List Operator)} {level : List Operator}
    (split : levels = done ++ level :: remaining) {op : Operator} (binary : op ≠ .negate)
    (apart : ∀ other ∈ done, op ∉ other) {lead : Operator} (leads : lead ∈ level) :
    lead.place ≤ op.place := by
  have ordered := levels_ordered
  have known : level ∈ levels := by simp [split]
  obtain ⟨own, among, joined⟩ := mem_levels binary
  rw [split] at among ordered
  rcases List.mem_append.mp among with earlier | among
  · exact absurd joined (apart own earlier)
  · rcases List.mem_cons.mp among with rfl | later
    · exact Nat.le_of_eq ((mem_level_iff known leads binary).mp joined).symm
    · have tail := (List.pairwise_append.mp ordered).2.1
      exact Nat.le_of_lt ((List.pairwise_cons.mp tail).1 own later lead leads op joined)

theorem settles (book : RuleBook) {done remaining : List (List Operator)}
    (split : levels = done ++ remaining) {s : Series Value} (numeric : s.IsNumeric)
    (left : ∀ step ∈ s.rest, step.1 ≠ .negate ∧ ∀ level ∈ done, step.1 ∉ level)
    {tokens : List Token} (spelled : tokens.map Token.content = s.contents) :
    book.Becomes [] tokens ((settle remaining s).map Series.contents) := by
  induction remaining generalizing done s tokens with
  | nil => exact ⟨tokens, spelled, rfl⟩
  | cons level remaining ih =>
    have known : level ∈ levels := by simp [split]
    obtain ⟨lead, leads⟩ := List.exists_mem_of_ne_nil _ (levels_nonempty known)
    have ready : Ready lead.place [] s := by
      refine ⟨by simp, numeric, by simp, ?_⟩
      intro step member
      obtain ⟨binary, apart⟩ := left step member
      exact ⟨place_le split binary apart leads, binary⟩
    have run := book.computes known leads ready spelled
    refine run.bind fun next after computed spelled => ?_
    have operators := operators_compute computed
    have further : ∀ step ∈ next.rest,
        step.1 ≠ .negate ∧ ∀ other ∈ done ++ [level], step.1 ∉ other := by
      intro step member
      have kept : step.1 ∈ next.rest.map Prod.fst := List.mem_map_of_mem member
      rw [operators] at kept
      obtain ⟨among, apart⟩ := List.mem_filter.mp kept
      obtain ⟨earlier, inside, same⟩ := List.mem_map.mp among
      obtain ⟨binary, others⟩ := left earlier inside
      rw [← same] at apart ⊢
      constructor
      · exact binary
      · intro other known
        rcases List.mem_append.mp known with before | last
        · exact others other before
        · rw [List.mem_singleton.mp last]
          exact of_decide_eq_true apart
    have split : levels = (done ++ [level]) ++ remaining := by simp [split]
    exact ih split (numeric_compute numeric computed) further spelled

theorem evaluate_settle (book : RuleBook) {s : Series Number}
    (binary : ∀ step ∈ s.rest, step.1 ≠ .negate) {tokens : List Token}
    (spelled : tokens.map Token.content = (s.map Value.number).contents) :
    book.evaluate tokens = (settle levels (s.map Value.number)).map Series.first := by
  have binary' : ∀ step ∈ (s.map Value.number).rest, step.1 ≠ .negate := Series.map_binary binary
  have numeric : (s.map Value.number).IsNumeric := by
    constructor
    · rfl
    · intro step member
      obtain ⟨number, inside, rfl⟩ := List.mem_map.mp member
      rfl
  have run := book.settles (List.nil_append levels).symm numeric
    (fun step member => ⟨binary' step member, by simp⟩) spelled
  cases settled : settle levels (s.map Value.number) with
  | error e =>
    rw [settled] at run
    exact run
  | ok last =>
    rw [settled] at run
    obtain ⟨after, contents, same⟩ := run
    have none : last.rest = [] := settle_levels_rest binary' settled
    rw [Series.contents, none] at contents
    obtain ⟨t, rest, rfl, content, nothing⟩ := List.map_eq_cons_iff.mp contents
    have alone : rest = [] := List.map_eq_nil_iff.mp nothing
    have value : book.evaluate [t] = t.toValue := evaluate_short book (Nat.le_refl 1)
    rw [List.nil_append, List.nil_append] at same
    rw [same, alone, value]
    simp only [Token.toValue, content]
    rfl

/-- A series of numbers has the value of the conventional tree, if that has one, and none if it
    has none. -/
theorem evaluate_toOption (book : RuleBook) {s : Series Number}
    (binary : ∀ step ∈ s.rest, step.1 ≠ .negate) {tokens : List Token}
    (spelled : tokens.map Token.content = (s.map Value.number).contents) :
    (book.evaluate tokens).toOption = s.conventional.evaluate.toOption := by
  rw [Series.conventional_toOption binary, book.evaluate_settle binary spelled]
  cases settle levels (s.map Value.number) <;> rfl

/-- Whatever functions are registered, a series of numbers with operators between them evaluates
    to the value of the conventional tree, and fails if any part of the tree does. -/
theorem evaluate_series (book : RuleBook) {s : Series Number}
    (binary : ∀ step ∈ s.rest, step.1 ≠ .negate) {tokens : List Token}
    (spelled : tokens.map Token.content = (s.map Value.number).contents) :
    (∀ v, book.evaluate tokens = .ok v ↔ s.conventional.evaluate = .ok v) ∧
      ∀ part ∈ s.conventional.subtrees, ∀ e, part.evaluate = .error e →
        ∃ e', book.evaluate tokens = .error e' := by
  have same := book.evaluate_toOption binary spelled
  constructor
  · intro v
    cases here : book.evaluate tokens with
    | error e =>
      cases there : s.conventional.evaluate with
      | error e' => simp
      | ok w => simp [here, there, Except.toOption] at same
    | ok w =>
      cases there : s.conventional.evaluate with
      | error e' => simp [here, there, Except.toOption] at same
      | ok w' =>
        rw [here, there] at same
        obtain rfl := Option.some.inj same
        exact Iff.rfl
  · intro part member e failed
    obtain ⟨e', fails⟩ := Tree.evaluate_fails member failed
    cases here : book.evaluate tokens with
    | error e => exact ⟨e, rfl⟩
    | ok w => simp [here, fails, Except.toOption] at same

/-- `8 - 2 - 3 * 2`, with the core rules. -/
theorem evaluate_series_mixed :
    let s : Series Number := ⟨.integer 8 (by decide), [(.subtract, .integer 2 (by decide)),
      (.subtract, .integer 3 (by decide)), (.multiply, .integer 2 (by decide))]⟩
    let tokens : List Token := (s.map Value.number).contents.map fun content => ⟨content, 1⟩
    (∀ step ∈ s.rest, step.1 ≠ .negate) ∧
      tokens.map Token.content = (s.map Value.number).contents ∧
      core.evaluate tokens = .ok (.integer 0) := by
  have value : Tree.evaluate (.node .subtract
      (.node .subtract (.leaf (.integer 8 (by decide))) (.leaf (.integer 2 (by decide))))
      (.node .multiply (.leaf (.integer 3 (by decide))) (.leaf (.integer 2 (by decide))))) =
        .ok (.integer 0) := by rfl
  intro s tokens
  have binary : ∀ step ∈ s.rest, step.1 ≠ .negate := by decide
  have spelled : tokens.map Token.content = (s.map Value.number).contents := rfl
  exact ⟨binary, spelled, ((core.evaluate_series binary spelled).1 _).mpr value⟩

end RuleBook

end Formulary
