import Formulary.Proofs.Rewriting

/-!
Which errors can come of what. Operations on values only fail for what their operands are, and
none of them speaks of a limit on steps: an evaluation only does if it has one, or if the body of
a function says so.
-/
namespace Formulary

variable {α β : Type}

def FailsIn (allowed : FormulaError → Prop) (outcome : Outcome α) : Prop :=
  ∀ e, outcome = .error e → allowed e

namespace FailsIn

variable {allowed wider : FormulaError → Prop}

theorem ok (a : α) : FailsIn allowed (.ok a) := by
  intro e failed
  cases failed

theorem pure (a : α) : FailsIn allowed (Pure.pure a : Outcome α) := ok a

theorem error {e : FormulaError} (among : allowed e) : FailsIn allowed (.error e : Outcome α) := by
  intro e failed
  cases failed
  exact among

theorem bind {outcome : Outcome α} {f : α → Outcome β} (first : FailsIn allowed outcome)
    (next : ∀ a, outcome = .ok a → FailsIn allowed (f a)) : FailsIn allowed (outcome >>= f) := by
  intro e failed
  cases same : outcome with
  | error other =>
    rw [same] at failed
    cases failed
    exact first e same
  | ok a =>
    rw [same] at failed
    exact next a same e failed

theorem map {f : α → β} {outcome : Outcome α} (fails : FailsIn allowed outcome) :
    FailsIn allowed (outcome.map f) := by
  cases outcome with
  | error e => exact error (fails e rfl)
  | ok a => exact ok (f a)

theorem mono {outcome : Outcome α} (fails : FailsIn allowed outcome)
    (wide : ∀ e, allowed e → wider e) : FailsIn wider outcome :=
  fun e failed => wide e (fails e failed)

theorem mapM {f : α → Outcome β} {l : List α} (each : ∀ a ∈ l, FailsIn allowed (f a)) :
    FailsIn allowed (l.mapM f) := by
  induction l with
  | nil => exact pure []
  | cons a l ih =>
    have rest := ih fun b member => each b (List.mem_cons_of_mem a member)
    rw [List.mapM_cons]
    exact (each a List.mem_cons_self).bind fun _ _ => rest.bind fun _ _ => pure _

end FailsIn

def FormulaError.IsOperand : FormulaError → Prop
  | .notNumeric _ | .unsupported _ _ | .divisionByZero | .overflow _ | .underflow _
  | .undefinedPower _ _ => True
  | _ => False

theorem Number.failsIn_ofText (text : String) : FailsIn FormulaError.IsOperand (ofText text) := by
  unfold ofText
  split
  · split
    · exact .ok _
    · exact .error trivial
  · exact .error trivial

theorem Value.failsIn_coerce (operation : Operation) (preferInteger : Bool) (value : Value) :
    FailsIn FormulaError.IsOperand (value.coerce operation preferInteger) := by
  cases value with
  | text s => exact .bind (Number.failsIn_ofText s) fun _ _ => .pure _
  | number n => exact .ok _
  | _ => exact .error trivial

theorem Number.failsIn_power (base exponent : Number) :
    FailsIn FormulaError.IsOperand (base.power exponent) := by
  unfold power
  split
  · exact .ok _
  · unfold decimalPower
    dsimp only
    repeat' split
    all_goals first | exact .ok _ | exact .error trivial

namespace Arithmetic

theorem failsIn_compute (op : Arithmetic) (l r : Number) :
    FailsIn FormulaError.IsOperand (op.compute l r) := by
  unfold compute
  split
  · exact Number.failsIn_power l r
  · repeat' split
    all_goals first | exact .ok _ | exact .error trivial

theorem failsIn_apply (op : Arithmetic) (left right : Value) :
    FailsIn FormulaError.IsOperand (op.apply left right) := by
  unfold apply
  split
  · unfold divide
    refine .bind (Value.failsIn_coerce _ _ _) fun divisor _ => ?_
    split
    · exact .error trivial
    · refine .bind (Value.failsIn_coerce _ _ _) fun dividend _ => ?_
      split
      · exact .ok _
      · exact .error trivial
  · refine .bind (Value.failsIn_coerce _ _ _) fun l _ => ?_
    exact .bind (Value.failsIn_coerce _ _ _) fun r _ => failsIn_compute op l r

end Arithmetic

namespace Value

theorem failsIn_percent (value : Value) : FailsIn FormulaError.IsOperand value.percent := by
  unfold percent
  refine .bind (failsIn_coerce _ _ _) fun n _ => ?_
  split
  · exact .ok _
  · exact .error trivial

theorem failsIn_negate (value : Value) : FailsIn FormulaError.IsOperand value.negate := by
  cases value with
  | number n => exact .ok _
  | _ => exact .error trivial

theorem failsIn_bits (op : Operator) (value : Value) :
    FailsIn FormulaError.IsOperand (value.bits op) := by
  unfold bits
  refine .bind (failsIn_coerce _ _ _) fun n _ => ?_
  cases n with
  | integer i fits => exact .ok _
  | decimal d => exact .error trivial

end Value

theorem Operator.failsIn_bitwise (op : Operator) (left right : Value) :
    FailsIn FormulaError.IsOperand (op.bitwise left right) := by
  have both (join : BitVec 64 → BitVec 64 → Outcome Value) (ends : ∀ l r, ∃ v, join l r = .ok v) :
      FailsIn FormulaError.IsOperand (do join (← left.bits op) (← right.bits op)) := by
    refine .bind (Value.failsIn_bits op left) fun l _ => ?_
    refine .bind (Value.failsIn_bits op right) fun r _ => ?_
    obtain ⟨v, same⟩ := ends l r
    rw [same]
    exact .ok v
  unfold bitwise
  cases op with
  | bitOr => exact both _ fun l r => ⟨_, rfl⟩
  | bitAnd => exact both _ fun l r => ⟨_, rfl⟩
  | _ => exact .error trivial

theorem Comparator.failsIn_compare (sign : Comparator) (left right : Value) :
    FailsIn FormulaError.IsOperand (sign.compare left right) := by
  unfold compare
  split
  · exact .ok _
  · split
    · exact .ok _
    · exact .ok _
    · exact .error trivial

/-! Functions that are there from the start -/

def FormulaError.IsArgument (e : FormulaError) : Prop :=
  match e with
  | .badArgument _ | .argumentCount _ _ _ => True
  | e => e.IsOperand

theorem FormulaError.IsOperand.isArgument {e : FormulaError} (operand : e.IsOperand) :
    e.IsArgument := by
  cases e <;> first | exact operand | exact trivial

theorem FailsIn.isArgument {outcome : Outcome α}
    (fails : FailsIn FormulaError.IsOperand outcome) : FailsIn FormulaError.IsArgument outcome :=
  fails.mono fun _ operand => operand.isArgument

namespace Value

theorem failsIn_toNumber (value : Value) : FailsIn FormulaError.IsArgument value.toNumber := by
  cases value with
  | number n => exact .ok n
  | text s => exact (Number.failsIn_ofText s).isArgument.map
  | _ => exact .error trivial

theorem failsIn_numbers (values : List Value) :
    FailsIn FormulaError.IsArgument (numbers values) := by
  fun_induction numbers values with
  | case1 => exact .ok []
  | case2 rest items inner outer => exact .bind inner fun _ _ => .bind outer fun _ _ => .pure _
  | case3 value rest _ ih =>
    exact .bind (failsIn_toNumber value) fun _ _ => .bind ih fun _ _ => .pure _

end Value

namespace Aggregate

theorem failsIn_sum (arguments : List Value) : FailsIn FormulaError.IsArgument (sum arguments) := by
  have total (numbers : List Number) (start : Number) :
      FailsIn FormulaError.IsArgument (sumFrom start numbers) := by
    induction numbers generalizing start with
    | nil => exact .ok start
    | cons n numbers ih => exact .bind (Arithmetic.failsIn_apply _ _ _).isArgument fun _ _ => ih _
  unfold sum
  exact .bind (Value.failsIn_numbers arguments) fun numbers _ =>
    .bind (total numbers .zero) fun _ _ => .pure _

theorem failsIn_average (arguments : List Value) :
    FailsIn FormulaError.IsArgument (average arguments) := by
  unfold average
  refine .bind (Value.failsIn_numbers arguments) fun numbers _ => ?_
  split
  · exact .error trivial
  · refine .bind (failsIn_sum arguments) fun total _ => ?_
    split
    · exact .bind (Arithmetic.failsIn_apply _ _ _).isArgument fun _ _ => .pure _
    · exact .error trivial

theorem failsIn_extreme (name : String) (better : Number → Number → Bool)
    (arguments : List Value) :
    FailsIn FormulaError.IsArgument (extreme name better arguments) := by
  unfold extreme
  refine .bind (Value.failsIn_numbers arguments) fun numbers _ => ?_
  split
  · exact .ok _
  · exact .error trivial

end Aggregate

theorem Number.failsIn_round (mode : Rounding) (places : Int) (n : Number) :
    FailsIn FormulaError.IsOperand (n.round mode places) := by
  unfold Number.round
  split
  · exact .ok _
  · dsimp only
    split
    · exact .ok _
    · exact .error trivial

namespace RoundingFunction

theorem failsIn_places (value : Value) : FailsIn FormulaError.IsArgument (places value) := by
  unfold places
  refine .bind (Value.failsIn_toNumber value) fun n _ => ?_
  split
  · exact .ok _
  · exact .error trivial

theorem failsIn_roundWith (mode : Rounding) (arguments : List Value) :
    FailsIn FormulaError.IsArgument (roundWith mode arguments) := by
  unfold roundWith
  split
  · exact .error trivial
  · next value rest =>
    refine .bind (Value.failsIn_toNumber value) fun n _ => ?_
    have optional : FailsIn FormulaError.IsArgument (optionalPlaces rest.head?) := by
      unfold optionalPlaces
      split
      · exact .ok _
      · exact .ok _
      · exact failsIn_places _
    refine .bind optional fun places _ => ?_
    exact .bind (Number.failsIn_round mode places n).isArgument fun _ _ => .pure _

end RoundingFunction

theorem Registry.failsIn_builtin {d : Definition} (member : d ∈ builtin.definitions)
    (arguments : List Value) : FailsIn FormulaError.IsArgument (d.body arguments) := by
  simp only [builtin, List.mem_cons, List.not_mem_nil, or_false] at member
  rcases member with rfl | rfl | rfl | rfl | rfl | rfl | rfl
  · exact Aggregate.failsIn_sum arguments
  · exact Aggregate.failsIn_extreme _ _ arguments
  · exact Aggregate.failsIn_extreme _ _ arguments
  · exact Aggregate.failsIn_average arguments
  all_goals exact RoundingFunction.failsIn_roundWith _ arguments

/-! Evaluation -/

/-- All but what only the tokenizer says, and what only a limit on steps gives rise to. -/
def FormulaError.IsOwn : FormulaError → Prop
  | .lexical _ | .stepLimit _ => False
  | _ => True

theorem FormulaError.IsArgument.isOwn {e : FormulaError} (argument : e.IsArgument) : e.IsOwn := by
  cases e <;> first | exact argument | exact trivial

def FormulaError.IsOfCall (e : FormulaError) : Prop :=
  match e with
  | .unknownFunction _ => True
  | e => e.IsArgument

theorem FormulaError.IsArgument.isOfCall {e : FormulaError} (argument : e.IsArgument) :
    e.IsOfCall := by
  cases e <;> first | exact argument | exact trivial

theorem FormulaError.IsOfCall.isOwn {e : FormulaError} (ofCall : e.IsOfCall) : e.IsOwn := by
  cases e <;> first | exact ofCall | exact trivial

theorem FailsIn.isOwn {outcome : Outcome α} (fails : FailsIn FormulaError.IsOperand outcome) :
    FailsIn FormulaError.IsOwn outcome :=
  fails.mono fun _ operand => operand.isArgument.isOwn

namespace Token

theorem failsIn_toValue (t : Token) : FailsIn FormulaError.IsOwn t.toValue := by
  unfold toValue
  split
  · exact .ok _
  · exact .error trivial
  · exact .error trivial

theorem failsIn_toOperand (t : Token) : FailsIn FormulaError.IsOwn t.toOperand := by
  unfold toOperand
  split
  · exact .ok _
  · exact .error trivial

end Token

namespace Operand

theorem failsIn_resolve (lookup : String → Option Value) (operand : Operand) :
    FailsIn FormulaError.IsOwn (operand.resolve lookup) := by
  unfold resolve
  repeat' split
  · exact .ok _
  · exact .ok _
  · exact .error trivial

theorem failsIn_check (operation : Operation) (expected : Kind) (category : Category)
    (side : Side) (operand : Operand) :
    FailsIn FormulaError.IsOwn (operand.check operation expected category side) := by
  unfold check
  repeat' split
  · exact .ok _
  · exact .error trivial
  · exact .ok _

end Operand

namespace Node

theorem failsIn_ofArithmetic (op : Arithmetic) (left right : Operand) :
    FailsIn FormulaError.IsOwn (ofArithmetic op left right) :=
  .bind (Operand.failsIn_check _ _ _ _ _) fun _ _ =>
    .bind (Operand.failsIn_check _ _ _ _ _) fun _ _ => .pure _

theorem failsIn_ofPercent (operand : Operand) : FailsIn FormulaError.IsOwn (ofPercent operand) :=
  .bind (Operand.failsIn_check _ _ _ _ _) fun _ _ => .pure _

theorem failsIn_ofCombination (word : Combinator) (left right : Operand) :
    FailsIn FormulaError.IsOwn (ofCombination word left right) :=
  .bind (Operand.failsIn_check _ _ _ _ _) fun _ _ =>
    .bind (Operand.failsIn_check _ _ _ _ _) fun _ _ => .pure _

theorem failsIn_value (lookup : String → Option Value) (node : Node) :
    FailsIn FormulaError.IsOwn (node.value lookup) := by
  cases node with
  | arithmetic op left right =>
    exact .bind (Operand.failsIn_resolve _ _) fun _ _ => .bind (Operand.failsIn_resolve _ _)
      fun _ _ => .bind (Arithmetic.failsIn_apply _ _ _).isOwn fun _ _ => .pure _
  | percent operand =>
    exact .bind (Operand.failsIn_resolve _ _) fun _ _ =>
      .bind (Value.failsIn_percent _).isOwn fun _ _ => .pure _
  | combination word left right =>
    exact .bind (Operand.failsIn_resolve _ _) fun _ _ => .bind (Operand.failsIn_resolve _ _)
      fun _ _ => .pure _

end Node

theorem failsIn_applyTokens (left op right : Token) :
    FailsIn FormulaError.IsOwn (applyTokens left op right) := by
  unfold applyTokens
  refine .bind left.failsIn_toOperand fun l _ => .bind right.failsIn_toOperand fun r _ => ?_
  split
  · split
    · exact .bind (Node.failsIn_ofArithmetic _ _ _) fun _ _ => Node.failsIn_value _ _
    · exact .bind (Operand.failsIn_resolve _ _) fun _ _ => .bind (Operand.failsIn_resolve _ _)
        fun _ _ => (Operator.failsIn_bitwise _ _ _).isOwn
  · exact .bind (Operand.failsIn_resolve _ _) fun _ _ => .bind (Operand.failsIn_resolve _ _)
      fun _ _ => .bind (Comparator.failsIn_compare _ _ _).isOwn fun _ _ => .pure _
  · exact .bind (Node.failsIn_ofCombination _ _ _) fun _ _ => Node.failsIn_value _ _
  · exact .error trivial

theorem failsIn_negateToken (t : Token) : FailsIn FormulaError.IsOwn (negateToken t) :=
  .bind t.failsIn_toOperand fun _ _ => .bind (Operand.failsIn_resolve _ _) fun _ _ =>
    (Value.failsIn_negate _).isOwn

theorem failsIn_percentOfToken (t : Token) : FailsIn FormulaError.IsOwn (percentOfToken t) :=
  .bind t.failsIn_toOperand fun _ _ => .bind (Node.failsIn_ofPercent _) fun _ _ =>
    Node.failsIn_value _ _

theorem Action.failsIn_plan {action : Action} {matched : List Token} {outcome : Outcome Value}
    (planned : action.plan matched = .value outcome) : FailsIn FormulaError.IsOwn outcome := by
  cases action <;> simp only [plan, Plan.mismatch] at planned
  all_goals
    repeat' split at planned
    all_goals cases planned
  all_goals first
    | exact .error trivial
    | exact failsIn_negateToken _
    | exact failsIn_applyTokens _ _ _
    | exact failsIn_percentOfToken _
    | exact .bind (failsIn_negateToken _) fun _ _ => failsIn_applyTokens _ _ _

theorem Registry.mem_of_mem_register {registry : Registry} {d other : Definition}
    (member : other ∈ (registry.register d).definitions) :
    other = d ∨ other ∈ registry.definitions := by
  rcases List.mem_cons.mp member with same | member
  · exact .inl same
  · exact .inr (List.mem_filter.mp member).1

namespace RuleBook

theorem mem_of_mem_functions {book : RuleBook} {d : Definition}
    (member : d ∈ book.functions.definitions) :
    d ∈ book.custom ∨ d ∈ Registry.builtin.definitions := by
  obtain ⟨custom⟩ := book
  induction custom with
  | nil => exact .inr member
  | cons latest custom ih =>
    rcases Registry.mem_of_mem_register member with same | member
    · exact .inl (same ▸ List.mem_cons_self)
    · rcases ih member with registered | builtin
      · exact .inl (List.mem_cons_of_mem latest registered)
      · exact .inr builtin

def Reports (book : RuleBook) (e : FormulaError) : Prop :=
  ∃ d ∈ book.custom, ∃ arguments, d.body arguments = .error e

def CanFail (book : RuleBook) (e : FormulaError) : Prop := e.IsOwn ∨ book.Reports e

theorem failsIn_of_isOwn {book : RuleBook} {outcome : Outcome α}
    (fails : FailsIn FormulaError.IsOwn outcome) : FailsIn book.CanFail outcome :=
  fails.mono fun _ => Or.inl

/-- A call only fails for what its arguments are, for an unknown name, or as the body says. -/
theorem fails_call (book : RuleBook) (name : Name) (arguments : List Value) :
    FailsIn (fun e => e.IsOfCall ∨ book.Reports e) (book.call name arguments) := by
  unfold call
  split
  · next d known =>
    have counted : FailsIn (fun e => e.IsOfCall ∨ book.Reports e)
        (d.checkCount arguments.length) := by
      unfold Definition.checkCount
      split
      · exact .error (.inl trivial)
      · exact .ok ()
    refine counted.bind fun _ _ => ?_
    rcases mem_of_mem_functions (List.mem_of_find?_eq_some known) with registered | builtin
    · exact fun e failed => .inr ⟨d, registered, arguments, failed⟩
    · exact (Registry.failsIn_builtin builtin arguments).mono fun _ argument =>
        .inl argument.isOfCall
  · repeat' split
    all_goals exact .error (.inl trivial)

theorem failsIn_call (book : RuleBook) (name : Name) (arguments : List Value) :
    FailsIn book.CanFail (book.call name arguments) :=
  (book.fails_call name arguments).mono fun _ => .imp_left FormulaError.IsOfCall.isOwn

theorem failsIn_result {book : RuleBook} {value : List Token → Outcome Value} {request : Request}
    (spans : ∀ span ∈ request.spans, FailsIn book.CanFail (value span)) :
    FailsIn book.CanFail (request.result book value) := by
  cases request with
  | choose condition consequent alternative =>
    refine .bind (spans condition (by simp [Request.spans])) fun v _ => ?_
    split
    · exact spans consequent (by simp [Request.spans])
    · exact spans alternative (by simp [Request.spans])
  | call name arguments => exact .bind (.mapM spans) fun values _ => book.failsIn_call name values
  | invert span => exact .bind (spans span List.mem_cons_self) fun _ _ => .pure _
  | evaluate span => exact spans span List.mem_cons_self

theorem failsIn_rewrite {book : RuleBook} {tokens : List Token} {m : RuleMatch}
    (spans : ∀ span ∈ (m.rule.action.plan (m.stretch.select tokens)).spans,
      FailsIn book.CanFail (book.evaluate span)) :
    FailsIn book.CanFail (book.rewrite tokens m) := by
  refine .bind ?_ fun _ _ => .pure _
  cases planned : m.rule.action.plan (m.stretch.select tokens) with
  | value outcome =>
    exact .bind (failsIn_of_isOwn (Action.failsIn_plan planned)) fun _ _ => .pure _
  | tokens replacement => exact .pure _
  | request request =>
    rw [planned] at spans
    exact .bind (failsIn_result spans) fun _ _ => .pure _

theorem failsIn_evaluate_of_reduce {book : RuleBook} {tokens : List Token}
    (fails : FailsIn book.CanFail (book.reduce tokens)) :
    FailsIn book.CanFail (book.evaluate tokens) := by
  rw [evaluate_eq]
  exact fails.bind fun t _ => failsIn_of_isOwn t.failsIn_toValue

theorem failsIn_reduce (book : RuleBook) (tokens : List Token) :
    FailsIn book.CanFail (book.reduce tokens) := by
  -- By induction on the weight, as evaluation goes.
  induction size : weight tokens using Nat.strongRecOn generalizing tokens with
  | ind n ih =>
    by_cases short : tokens.length ≤ 1
    · rw [reduce_short book short]
      exact .ok _
    · cases found : book.find? tokens with
      | none =>
        rw [reduce_stuck book short found]
        exact .error (.inl trivial)
      | some m =>
        rw [reduce_step book short found]
        have spans : ∀ span ∈ (m.rule.action.plan (m.stretch.select tokens)).spans,
            FailsIn book.CanFail (book.evaluate span) := fun span member =>
          failsIn_evaluate_of_reduce (ih _ (size ▸ span_lighter found member) span rfl)
        refine (failsIn_rewrite spans).bind fun after done => ?_
        exact ih _ (size ▸ rewrite_lighter found done) after rfl

theorem failsIn_evaluate (book : RuleBook) (tokens : List Token) :
    FailsIn book.CanFail (book.evaluate tokens) :=
  failsIn_evaluate_of_reduce (book.failsIn_reduce tokens)

end RuleBook

end Formulary
