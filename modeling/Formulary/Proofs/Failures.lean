import Formulary.Proofs.Shapes
import Formulary.Proofs.StepBudget

/-!
Where evaluation fails. It goes from stream to stream, by a step or into a span whose value is
asked for. It fails with an error exactly if it reaches a stream that breaks with this error, and
no stream breaks for a shape that an action has not expected.
-/
namespace Formulary

/-! Answers that fail -/

theorem mapM_eq_error {α β : Type} {f : α → Outcome β} {l : List α} {e : FormulaError}
    (failed : l.mapM f = .error e) :
    ∃ front a behind values, l = front ++ a :: behind ∧ front.mapM f = .ok values ∧
      f a = .error e := by
  induction l with
  | nil => cases failed
  | cons first l ih =>
    rw [List.mapM_cons] at failed
    rcases bind_eq_error.mp failed with failed | ⟨v, value, failed⟩
    · exact ⟨[], first, l, [], rfl, rfl, failed⟩
    · rcases bind_eq_error.mp failed with failed | ⟨_, _, impossible⟩
      · obtain ⟨front, a, behind, values, rfl, known, failed⟩ := ih failed
        refine ⟨first :: front, a, behind, v :: values, rfl, ?_, failed⟩
        rw [List.mapM_cons, value, known]
        rfl
      · cases impossible

theorem mapM_fails_behind {α β : Type} {f : α → Outcome β} {front behind : List α} {a : α}
    {values : List β} {e : FormulaError} (known : front.mapM f = .ok values)
    (failed : f a = .error e) : (front ++ a :: behind).mapM f = .error e := by
  rw [List.mapM_append, known, List.mapM_cons, failed]
  rfl

namespace Request

/-- The spans that the answer really evaluates: a branch only if the condition has chosen it, and
    an argument only if all before it have values. -/
inductive Asks (value : List Token → Outcome Value) : Request → List Token → Prop where
  | condition {condition consequent alternative : List Token} :
      Asks value (.choose condition consequent alternative) condition
  | consequent {condition consequent alternative : List Token} {v : Value}
      (known : value condition = .ok v) (chosen : v.isTruthy = true) :
      Asks value (.choose condition consequent alternative) consequent
  | alternative {condition consequent alternative : List Token} {v : Value}
      (known : value condition = .ok v) (chosen : v.isTruthy = false) :
      Asks value (.choose condition consequent alternative) alternative
  | argument {name : Name} {front behind : List (List Token)} {span : List Token}
      {values : List Value} (known : front.mapM value = .ok values) :
      Asks value (.call name (front ++ span :: behind)) span
  | inverted {span : List Token} : Asks value (.invert span) span
  | evaluated {span : List Token} : Asks value (.evaluate span) span

variable {book : RuleBook} {value : List Token → Outcome Value} {request : Request}
  {span : List Token} {e : FormulaError}

theorem Asks.mem_spans (asked : request.Asks value span) : span ∈ request.spans := by
  cases asked <;> simp [spans]

theorem Asks.result_eq_error (asked : request.Asks value span) (failed : value span = .error e) :
    request.result book value = .error e := by
  cases asked with
  | condition => exact bind_eq_error.mpr (.inl failed)
  | consequent known chosen =>
    refine bind_eq_error.mpr (.inr ⟨_, known, ?_⟩)
    rwa [if_pos chosen]
  | alternative known chosen =>
    refine bind_eq_error.mpr (.inr ⟨_, known, ?_⟩)
    rwa [if_neg (by simp [chosen])]
  | argument known =>
    exact bind_eq_error.mpr (.inl (mapM_fails_behind known failed))
  | inverted => exact bind_eq_error.mpr (.inl failed)
  | evaluated => exact failed

theorem asks_or_call_of_result (failed : request.result book value = .error e) :
    (∃ span, request.Asks value span ∧ value span = .error e) ∨
      ∃ name arguments values, request = .call name arguments ∧
        arguments.mapM value = .ok values ∧ book.call name values = .error e := by
  cases request with
  | choose condition consequent alternative =>
    refine .inl ?_
    rcases bind_eq_error.mp failed with failed | ⟨v, known, failed⟩
    · exact ⟨condition, .condition, failed⟩
    · cases chosen : v.isTruthy with
      | true =>
        rw [if_pos chosen] at failed
        exact ⟨consequent, .consequent known chosen, failed⟩
      | false =>
        rw [if_neg (by simp [chosen])] at failed
        exact ⟨alternative, .alternative known chosen, failed⟩
  | call name arguments =>
    rcases bind_eq_error.mp failed with failed | ⟨values, known, failed⟩
    · obtain ⟨front, span, behind, values, rfl, known, failed⟩ := mapM_eq_error failed
      exact .inl ⟨span, .argument known, failed⟩
    · exact .inr ⟨name, arguments, values, rfl, known, failed⟩
  | invert span =>
    rcases bind_eq_error.mp failed with failed | ⟨_, _, impossible⟩
    · exact .inl ⟨span, .inverted, failed⟩
    · cases impossible
  | evaluate span => exact .inl ⟨span, .evaluated, failed⟩

end Request

namespace RuleBook

/-- The streams that evaluation works on. -/
inductive Reaches (book : RuleBook) : List Token → List Token → Prop where
  | here (tokens : List Token) : Reaches book tokens tokens
  | step {tokens after stream : List Token} {m : RuleMatch} (long : ¬ tokens.length ≤ 1)
      (found : book.find? tokens = some m) (done : book.rewrite tokens m = .ok after)
      (later : Reaches book after stream) : Reaches book tokens stream
  | span {tokens span stream : List Token} {m : RuleMatch} {request : Request}
      (long : ¬ tokens.length ≤ 1) (found : book.find? tokens = some m)
      (planned : m.rule.action.plan (m.stretch.select tokens) = .request request)
      (asked : request.Asks book.evaluate span) (inside : Reaches book span stream) :
      Reaches book tokens stream

/-- The stream fails by itself, while everything it asks for has a value. -/
inductive Breaks (book : RuleBook) : List Token → FormulaError → Prop where
  | alone {t : Token} {e : FormulaError} (failed : t.toValue = .error e) : Breaks book [t] e
  | stuck {tokens : List Token} (long : ¬ tokens.length ≤ 1) (stuck : book.find? tokens = none) :
      Breaks book tokens (.unreducible (render tokens))
  | operation {tokens : List Token} {m : RuleMatch} {e : FormulaError}
      (long : ¬ tokens.length ≤ 1) (found : book.find? tokens = some m)
      (failed : m.rule.action.plan (m.stretch.select tokens) = .value (.error e)) :
      Breaks book tokens e
  | call {tokens : List Token} {m : RuleMatch} {name : Name} {arguments : List (List Token)}
      {values : List Value} {e : FormulaError} (long : ¬ tokens.length ≤ 1)
      (found : book.find? tokens = some m)
      (planned : m.rule.action.plan (m.stretch.select tokens) = .request (.call name arguments))
      (known : arguments.mapM book.evaluate = .ok values)
      (failed : book.call name values = .error e) : Breaks book tokens e

variable {book : RuleBook} {tokens stream : List Token} {m : RuleMatch} {e : FormulaError}

theorem rewrite_eq_error_of_result {request : Request}
    (planned : m.rule.action.plan (m.stretch.select tokens) = .request request)
    (failed : request.result book book.evaluate = .error e) :
    book.rewrite tokens m = .error e := by
  unfold rewrite
  rw [planned]
  exact bind_eq_error.mpr (.inl (bind_eq_error.mpr (.inl failed)))

theorem Breaks.evaluate_eq_error (breaks : book.Breaks tokens e) :
    book.evaluate tokens = .error e := by
  cases breaks with
  | alone failed => exact (book.evaluate_short (by simp)).trans failed
  | stuck long stuck => exact book.evaluate_stuck long stuck
  | operation long found failed =>
    rw [book.evaluate_step long found, rewrite, failed]
    rfl
  | call long found planned known failed =>
    rw [book.evaluate_step long found]
    refine bind_eq_error.mpr (.inl (rewrite_eq_error_of_result planned ?_))
    exact bind_eq_error.mpr (.inr ⟨_, known, failed⟩)

theorem Reaches.evaluate_eq_error (reaches : book.Reaches tokens stream)
    (breaks : book.Breaks stream e) : book.evaluate tokens = .error e := by
  -- By induction on the way there: a failure comes all the way back.
  induction reaches with
  | here => exact breaks.evaluate_eq_error
  | step long found done later ih =>
    rw [book.evaluate_step long found, done]
    exact ih breaks
  | span long found planned asked inside ih =>
    rw [book.evaluate_step long found]
    refine bind_eq_error.mpr (.inl (rewrite_eq_error_of_result planned ?_))
    exact asked.result_eq_error (ih breaks)

theorem breaks_or_asks_of_rewrite (long : ¬ tokens.length ≤ 1) (found : book.find? tokens = some m)
    (failed : book.rewrite tokens m = .error e) : book.Breaks tokens e ∨
      ∃ request span, m.rule.action.plan (m.stretch.select tokens) = .request request ∧
        request.Asks book.evaluate span ∧ book.evaluate span = .error e := by
  rcases bind_eq_error.mp failed with failed | ⟨_, _, impossible⟩
  · cases planned : m.rule.action.plan (m.stretch.select tokens) with
    | value outcome =>
      rw [planned] at failed
      rcases bind_eq_error.mp failed with rfl | ⟨_, _, impossible⟩
      · exact .inl (.operation long found planned)
      · cases impossible
    | tokens replacement =>
      -- a range is only written out
      rw [planned] at failed
      cases failed
    | request request =>
      rw [planned] at failed
      rcases bind_eq_error.mp failed with failed | ⟨_, _, impossible⟩
      · rcases Request.asks_or_call_of_result failed with
          ⟨span, asked, failed⟩ | ⟨name, arguments, values, rfl, known, failed⟩
        · exact .inr ⟨request, span, rfl, asked, failed⟩
        · exact .inl (.call long found planned known failed)
      · cases impossible
  · cases impossible

theorem exists_breaks_of_evaluate (failed : book.evaluate tokens = .error e) :
    ∃ stream, book.Reaches tokens stream ∧ book.Breaks stream e := by
  -- By induction on the weight, as evaluation goes.
  induction size : weight tokens using Nat.strongRecOn generalizing tokens with
  | ind n ih =>
    by_cases short : tokens.length ≤ 1
    · rw [book.evaluate_short short] at failed
      match tokens, short with
      | [t], _ => exact ⟨[t], .here _, .alone failed⟩
    · cases found : book.find? tokens with
      | none =>
        rw [book.evaluate_stuck short found] at failed
        cases failed
        exact ⟨tokens, .here _, .stuck short found⟩
      | some m =>
        rw [book.evaluate_step short found] at failed
        rcases bind_eq_error.mp failed with failed | ⟨after, done, failed⟩
        · rcases breaks_or_asks_of_rewrite short found failed with
            breaks | ⟨request, span, planned, asked, failed⟩
          · exact ⟨tokens, .here _, breaks⟩
          · have member : span ∈ (m.rule.action.plan (m.stretch.select tokens)).spans := by
              rw [planned]
              exact asked.mem_spans
            have lighter := span_lighter found member
            obtain ⟨stream, inside, breaks⟩ := ih _ (size ▸ lighter) failed rfl
            exact ⟨stream, .span short found planned asked inside, breaks⟩
        · have lighter := rewrite_lighter found done
          obtain ⟨stream, later, breaks⟩ := ih _ (size ▸ lighter) failed rfl
          exact ⟨stream, .step short found done later, breaks⟩

/-- An evaluation fails with an error exactly if a stream that it reaches does. -/
theorem evaluate_eq_error_iff : book.evaluate tokens = .error e ↔
    ∃ stream, book.Reaches tokens stream ∧ book.Breaks stream e :=
  ⟨exists_breaks_of_evaluate, fun ⟨_, reaches, breaks⟩ => reaches.evaluate_eq_error breaks⟩

/-! Tokens of streams that are reached -/

theorem mem_of_yields {action : Action} {matched replaced : List Token}
    (yields : (action.plan matched).Yields replaced) {t : Token} (member : t ∈ replaced) :
    t ∈ matched ∨ (∃ v, t = .data v) ∨ t = .combinator .and := by
  obtain ⟨v, rfl⟩ | ⟨a, first, b, second, c, rfl, rfl, rfl⟩ := Action.yields_cases yields
  · exact .inr (.inl ⟨v, List.mem_singleton.mp member⟩)
  · simp only [List.mem_cons, List.not_mem_nil, or_false] at member ⊢
    tauto

theorem Reaches.mem (reaches : book.Reaches tokens stream) {t : Token} (member : t ∈ stream) :
    t ∈ tokens ∨ (∃ v, t = .data v) ∨ t = .combinator .and := by
  induction reaches with
  | here => exact .inl member
  | @step tokens after stream m long found done later ih =>
    refine (ih member).elim (fun there => ?_) .inr
    obtain ⟨replaced, yields, rfl⟩ := yields_of_rewrite done
    rcases List.mem_append.mp there with front | behind
    · rcases List.mem_append.mp front with before | here
      · exact .inl (List.mem_of_mem_take before)
      · exact (mem_of_yields yields here).imp_left fun inside =>
          List.mem_of_mem_drop (List.mem_of_mem_take inside)
    · exact .inl (List.mem_of_mem_drop behind)
  | @span tokens span stream m request long found planned asked inside ih =>
    refine (ih member).elim (fun there => ?_) .inr
    have within := Action.span_inside (matched_of_find? found).nonempty planned asked.mem_spans
    exact .inl (List.mem_of_mem_drop (List.mem_of_mem_take (within.1.subset there)))

end RuleBook

/-! Errors that no evaluation gives rise to -/

/-- The errors of an operation on other operands than its rule has promised, and of tokens that
    are not rewritten. -/
def FormulaError.IsInternal : FormulaError → Prop
  | .operandKind _ _ _ _ | .unreducible _ => True
  | _ => False

theorem FormulaError.IsOperand.not_isInternal {e : FormulaError} (operand : e.IsOperand) :
    ¬ e.IsInternal := by
  cases e <;> first | exact fun impossible => impossible | cases operand

theorem FormulaError.IsOfCall.not_isInternal {e : FormulaError} (ofCall : e.IsOfCall) :
    ¬ e.IsInternal := by
  cases e <;> first | exact fun impossible => impossible | cases ofCall

namespace RuleBook

variable {book : RuleBook} {tokens stream : List Token} {m : RuleMatch} {e : FormulaError}

theorem find?_eq_none_iff : book.find? tokens = none ↔
    ∀ rule ∈ book.rules, ∀ start, rule.pattern.matchAt? tokens start = none := by
  rw [find?_eq_search, search_eq_none_iff]
  refine forall₂_congr fun rule member => ?_
  exact Pattern.find?_eq_none_iff (isHeaded_of_mem_rules member).headed

/-- A stream of several tokens that no rule matches, or of one that is not a value. -/
inductive Stalls (book : RuleBook) : List Token → String → Prop where
  | stuck {tokens : List Token} (long : 2 ≤ tokens.length)
      (none : ∀ rule ∈ book.rules, ∀ start, rule.pattern.matchAt? tokens start = none) :
      Stalls book tokens (render tokens)
  | alone {t : Token} (noValue : ∀ v, t.content ≠ .data v)
      (noName : ∀ name, t.content ≠ .identifier name) : Stalls book [t] t.display

theorem Breaks.stalls (quiet : ∀ e, book.Reports e → ¬ e.IsInternal)
    (breaks : book.Breaks tokens e) (isInternal : e.IsInternal) :
    ∃ rendered, e = .unreducible rendered ∧ book.Stalls tokens rendered := by
  cases breaks with
  | @alone t _ failed =>
    unfold Token.toValue at failed
    split at failed
    · cases failed
    · cases failed
      cases isInternal
    · next noValue noName =>
      cases failed
      exact ⟨_, rfl, .alone noValue noName⟩
  | stuck long stuck => exact ⟨_, rfl, .stuck (by omega) (find?_eq_none_iff.mp stuck)⟩
  | operation long found failed =>
    have operand := (suits_of_find? found).failsIn_plan failed e rfl
    exact absurd isInternal operand.not_isInternal
  | call long found planned known failed =>
    rcases book.fails_call _ _ e failed with ofCall | reported
    · exact absurd isInternal ofCall.not_isInternal
    · exact absurd isInternal (quiet e reported)

/-- Matches lie inside the stream, the rule they name is there, and its action finds the tokens in
    the shape it expects. So an evaluation never fails for the kind of an operand, and if it fails
    because tokens cannot be reduced, these are a stream it has reached that no rule matches, or a
    single token that is neither a value nor a variable. -/
theorem internal_errors_unreachable (quiet : ∀ e, book.Reports e → ¬ e.IsInternal)
    (tokens : List Token) :
    (∀ stream m, book.find? stream = some m →
      book.rule? m.index = some m.rule ∧
      m.stretch.start + m.stretch.length ≤ stream.length ∧
      m.rule.action.Suits (m.stretch.select stream) ∧
      ∀ outcome, m.rule.action.plan (m.stretch.select stream) = .value outcome →
        FailsIn FormulaError.IsOperand outcome) ∧
    ∀ limit p e, ((Evaluator.evaluate ⟨book, limit⟩ tokens).run p).1 = .error e →
      (∀ operation expected actual side, e ≠ .operandKind operation expected actual side) ∧
      ∀ rendered, e = .unreducible rendered →
        ∃ stream, book.Reaches tokens stream ∧ book.Stalls stream rendered := by
  constructor
  · intro stream m found
    have suits := suits_of_find? found
    exact ⟨(firstMatch_of_find? found).known, within_of_find? found, suits,
      fun outcome planned => suits.failsIn_plan planned⟩
  · intro limit p e failed
    have stalls (isInternal : e.IsInternal) : ∃ rendered, e = .unreducible rendered ∧
        ∃ stream, book.Reaches tokens stream ∧ book.Stalls stream rendered := by
      rcases book.evaluate_or_limit tokens limit p with same | ⟨l, _, stopped⟩
      · obtain ⟨stream, reaches, breaks⟩ := exists_breaks_of_evaluate (same.symm.trans failed)
        obtain ⟨rendered, is, stalls⟩ := breaks.stalls quiet isInternal
        exact ⟨rendered, is, stream, reaches, stalls⟩
      · rw [stopped] at failed
        cases failed
        cases isInternal
    constructor
    · rintro operation expected actual side rfl
      obtain ⟨rendered, impossible, _⟩ := stalls trivial
      cases impossible
    · rintro rendered rfl
      obtain ⟨_, same, there⟩ := stalls trivial
      cases same
      exact there

/-- Two values in a row, with a function registered that always fails. -/
theorem internal_errors_unreachable_pair :
    let book := core.register ⟨.mk "fail", .between 0 none, fun _ => .error .divisionByZero⟩
    let tokens := [Token.data (.integer 1), .data (.integer 2)]
    (∀ e, book.Reports e → ¬ e.IsInternal) ∧
      ∃ stream, book.Reaches tokens stream ∧ book.Stalls stream (render tokens) := by
  intro book tokens
  have quiet : ∀ e, book.Reports e → ¬ e.IsInternal := by
    rintro e ⟨d, member, arguments, failed⟩
    obtain rfl := List.mem_singleton.mp member
    cases failed
    exact fun impossible => impossible
  have failed : ((Evaluator.evaluate ⟨book, none⟩ tokens).run {}).1 =
      .error (.unreducible (render tokens)) := book.evaluate_stuck (by decide) rfl
  exact ⟨quiet, ((internal_errors_unreachable quiet tokens).2 none {} _ failed).2 _ rfl⟩

end RuleBook

end Formulary
