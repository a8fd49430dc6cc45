import Mathlib.Algebra.GroupWithZero.Nat
import Formulary.Descent

/-!
What steps cost. The weight that a step takes away pays for the step itself and for the steps that
the evaluation of spans among the matched tokens takes.
-/
namespace Formulary

theorem weight_append_le (left right : List Token) :
    weight left + weight right ≤ weight (left ++ right) := by
  have lower := chained_mono (Row.start_le (Row.start.afterAll left)) right
  simp only [weight, chained_append, List.length_append]
  omega

theorem length_le_weight (tokens : List Token) : tokens.length ≤ weight tokens := by
  unfold weight
  omega

theorem pieces_weight_le (r : Row) (depth : Nat) (tokens : List Token) :
    ∃ first others, pieces depth tokens = first :: others ∧
      first.length + 3 * chained r first + (others.map weight).sum ≤
        tokens.length + 3 * chained r tokens := by
  induction tokens generalizing r depth with
  | nil => exact ⟨[], [], rfl, by simp⟩
  | cons t rest ih =>
    have apart : ∃ first others, [] :: pieces 0 rest = first :: others ∧
        first.length + 3 * chained r first + (others.map weight).sum ≤
          (t :: rest).length + 3 * chained r (t :: rest) := by
      obtain ⟨first, others, same, low⟩ := ih Row.start 0
      refine ⟨[], first :: others, by rw [same], ?_⟩
      have lower := chained_mono (Row.start_le (r.after t.mark)) rest
      simp only [List.map_cons, List.sum_cons, weight, List.length_nil, List.length_cons, chained]
      omega
    unfold pieces
    split
    · exact apart
    · next inner _ =>
      split
      · exact apart
      · obtain ⟨first, others, same, low⟩ := ih (r.after t.mark) inner
        refine ⟨t :: first, others, by rw [same]; rfl, ?_⟩
        simp only [List.length_cons, chained]
        omega

theorem splitArguments_weight_le (tokens : List Token) :
    ((splitArguments tokens).map weight).sum ≤ weight tokens := by
  unfold splitArguments
  split
  · simp
  · obtain ⟨first, others, same, low⟩ := pieces_weight_le Row.start 0 tokens
    rw [same, List.map_cons, List.sum_cons]
    exact low

theorem interior_weight_le {matched : List Token} (several : 2 ≤ matched.length) {lead : Nat}
    (led : 1 ≤ lead) : weight (interior lead matched) + 2 ≤ weight matched := by
  unfold interior
  by_cases short : matched.length ≤ lead
  · have whole := length_le_weight matched
    simp only [List.drop_eq_nil_of_le short, List.dropLast_nil]
    have : weight [] = 0 := rfl
    omega
  · have some : matched.drop lead ≠ [] := by
      intro none
      exact short (List.drop_eq_nil_iff.mp none)
    have split := List.dropLast_concat_getLast some
    have front := weight_append_le (matched.take lead) (matched.drop lead)
    have back := weight_append_le (matched.drop lead).dropLast [(matched.drop lead).getLast some]
    have lower := length_le_weight (matched.take lead)
    have last := length_le_weight [(matched.drop lead).getLast some]
    rw [split] at back
    rw [List.take_append_drop] at front
    simp only [List.length_take, List.length_singleton] at lower last
    omega

theorem Action.spans_weight_le {action : Action} {matched : List Token}
    (several : 2 ≤ matched.length) {request : Request}
    (planned : action.plan matched = .request request) :
    (request.spans.map weight).sum + 2 ≤ weight matched := by
  rcases spans_of_plan planned with arguments | ⟨lead, led, held⟩
  · rw [arguments]
    have parts := splitArguments_weight_le (interior 2 matched)
    have inner := interior_weight_le several (show 1 ≤ 2 by decide)
    omega
  · rw [held, List.map_singleton, List.sum_singleton]
    exact interior_weight_le several led

/-! Plans -/

namespace Plan

def spans : Plan → List (List Token)
  | .request asked => asked.spans
  | _ => []

def Yields : Plan → List Token → Prop
  | .value outcome, replaced => ∃ v, outcome = .ok v ∧ replaced = [.data v]
  | .tokens replacement, replaced => replaced = replacement
  | .request _, replaced => ∃ v, replaced = [.data v]

end Plan

theorem Action.yields_cases {action : Action} {matched replaced : List Token}
    (yields : (action.plan matched).Yields replaced) :
    (∃ v, replaced = [.data v]) ∨ ∃ a first b second c,
      action = .expandRange ∧ matched = [a, first, b, second, c] ∧
        replaced = [a, first, b, .combinator .and, b, second, c] := by
  cases planned : action.plan matched with
  | value outcome =>
    rw [planned] at yields
    obtain ⟨v, _, same⟩ := yields
    exact .inl ⟨v, same⟩
  | tokens replacement =>
    rw [planned] at yields
    cases yields
    exact .inr (plan_tokens planned)
  | request request =>
    rw [planned] at yields
    exact .inl yields

namespace Matched

theorem value_pays {matched : List Token}
    (closed : ∀ r : Row, r.Le (r.afterAll matched)) (v : Value) (before behind : List Token) :
    weight (before ++ [.data v] ++ behind) + weight matched ≤
      weight (before ++ matched ++ behind) + 1 := by
  have none (r : Row) : r.links (Token.data v).mark = 0 := by
    rcases Token.mark_data v with h | h <;> rw [h] <;> rfl
  have row (r : Row) : (r.after (Token.data v).mark).Le (r.afterAll matched) :=
    (Token.after_data_le r v).trans (closed r)
  have here := chained_mono (Row.start_le (Row.start.afterAll before)) matched
  have rest := chained_mono (row (Row.start.afterAll before)) behind
  simp only [weight, chained_append, chained, none, List.length_append, List.length_cons,
    List.length_nil, Row.afterAll_append, Row.afterAll]
  omega

/-- The step, and the evaluation of its spans, are paid for. -/
theorem step_pays {action : Action} {matched : List Token} (ways : Matched action matched)
    {replaced : List Token} (yields : (action.plan matched).Yields replaced)
    (before behind : List Token) :
    weight (before ++ replaced ++ behind) + ((action.plan matched).spans.map weight).sum <
      weight (before ++ matched ++ behind) := by
  cases planned : action.plan matched with
  | value outcome =>
    rw [planned] at yields
    obtain ⟨v, rfl, rfl⟩ := yields
    exact ways.outcome_lighter planned before behind
  | tokens replacement =>
    rw [planned] at yields
    subst yields
    exact ways.tokens_lighter planned before behind
  | request request =>
    rw [planned] at yields
    obtain ⟨v, rfl⟩ := yields
    cases ways with
    | closed _ several closed =>
      have spans := Action.spans_weight_le several planned
      have value := value_pays closed v before behind
      simp only [Plan.spans]
      omega
    | combination => cases planned
    | range => cases planned

end Matched

theorem RuleBook.step_pays {book : RuleBook} {tokens : List Token} {m : RuleMatch}
    (found : book.find? tokens = some m) {replaced : List Token}
    (yields : (m.rule.action.plan (m.stretch.select tokens)).Yields replaced) :
    weight (m.stretch.splice tokens replaced) +
      ((m.rule.action.plan (m.stretch.select tokens)).spans.map weight).sum < weight tokens := by
  have paid := (matched_of_find? found).step_pays yields (tokens.take m.stretch.start)
    (tokens.drop (m.stretch.start + m.stretch.length))
  have whole := m.stretch.splice_select tokens
  unfold Stretch.splice at whole
  rwa [whole] at paid

theorem RuleBook.spans_weight_lt {book : RuleBook} {tokens : List Token} {m : RuleMatch}
    (found : book.find? tokens = some m) :
    ((m.rule.action.plan (m.stretch.select tokens)).spans.map weight).sum < weight tokens := by
  have some : 0 < weight tokens := by
    have nonempty := (matched_of_find? found).nonempty
    have selected : (m.stretch.select tokens).length ≤ tokens.length := by
      simp only [Stretch.select, List.length_take, List.length_drop]
      omega
    have bound := length_le_weight tokens
    have := List.length_pos_iff.mpr nonempty
    omega
  cases planned : m.rule.action.plan (m.stretch.select tokens) with
  | request request =>
    have yields : (m.rule.action.plan (m.stretch.select tokens)).Yields [.data .null] := by
      rw [planned]
      exact ⟨.null, rfl⟩
    have paid := step_pays found yields
    rw [planned] at paid
    omega
  | _ => exact some

theorem RuleBook.span_lighter {book : RuleBook} {tokens : List Token} {m : RuleMatch}
    (found : book.find? tokens = some m) {span : List Token}
    (member : span ∈ (m.rule.action.plan (m.stretch.select tokens)).spans) :
    weight span < weight tokens := by
  cases planned : m.rule.action.plan (m.stretch.select tokens) with
  | request request =>
    rw [planned] at member
    have nonempty := (matched_of_find? found).nonempty
    exact m.stretch.weight_lt_of_inside_select (Action.span_inside nonempty planned member)
  | _ => simp [planned, Plan.spans] at member

end Formulary
