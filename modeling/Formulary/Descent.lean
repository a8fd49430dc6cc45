import Formulary.Action
import Formulary.Matched

/-!
Every rewriting step makes the tokens lighter, and the spans it evaluates weigh less than the
tokens they stand in. This is why evaluation ends.
-/
namespace Formulary

/-! Spans -/

theorem pieces_inside (depth : Nat) (tokens : List Token) :
    ∃ first others, pieces depth tokens = first :: others ∧ first <+: tokens ∧
      ∀ piece ∈ others, piece <:+: tokens := by
  induction tokens generalizing depth with
  | nil => exact ⟨[], [], rfl, List.prefix_rfl, by simp⟩
  | cons t rest ih =>
    have apart : ∃ first others, [] :: pieces 0 rest = first :: others ∧ first <+: t :: rest ∧
        ∀ piece ∈ others, piece <:+: t :: rest := by
      obtain ⟨first, others, same, leading, inside⟩ := ih 0
      refine ⟨[], first :: others, by rw [same], List.nil_prefix, fun piece member => ?_⟩
      rcases List.mem_cons.mp member with rfl | member
      · exact leading.isInfix.trans (List.suffix_cons t rest).isInfix
      · exact List.infix_cons (inside piece member)
    unfold pieces
    split
    · exact apart
    · next inner _ =>
      split
      · exact apart
      · obtain ⟨first, others, same, leading, inside⟩ := ih inner
        rw [same]
        exact ⟨t :: first, others, rfl, List.cons_prefix_cons.mpr ⟨rfl, leading⟩,
          fun piece member => List.infix_cons (inside piece member)⟩

theorem infix_of_mem_splitArguments {tokens piece : List Token}
    (member : piece ∈ splitArguments tokens) : piece <:+: tokens := by
  unfold splitArguments at member
  split at member
  · cases member
  · obtain ⟨first, others, same, leading, inside⟩ := pieces_inside 0 tokens
    rw [same] at member
    rcases List.mem_cons.mp member with rfl | member
    · exact leading.isInfix
    · exact inside piece member

def Inside (part whole : List Token) : Prop := part <:+: whole ∧ part.length < whole.length

theorem interior_inside {matched : List Token} (nonempty : matched ≠ []) (lead : Nat) :
    Inside (interior lead matched) matched := by
  refine ⟨(List.dropLast_prefix _).isInfix.trans (List.drop_suffix lead matched).isInfix, ?_⟩
  have := List.length_pos_iff.mpr nonempty
  simp only [interior, List.length_dropLast, List.length_drop]
  omega

theorem argument_inside {matched piece : List Token} (nonempty : matched ≠ []) {lead : Nat}
    (member : piece ∈ splitArguments (interior lead matched)) : Inside piece matched := by
  have inside := infix_of_mem_splitArguments member
  have whole := interior_inside nonempty lead
  exact ⟨inside.trans whole.1, Nat.lt_of_le_of_lt inside.length_le whole.2⟩

theorem Action.spans_of_plan {action : Action} {matched : List Token} {request : Request}
    (planned : action.plan matched = .request request) :
    request.spans = splitArguments (interior 2 matched) ∨
      ∃ lead, 1 ≤ lead ∧ request.spans = [interior lead matched] := by
  cases action <;> simp only [plan, Plan.mismatch] at planned
  case choose =>
    split at planned
    · next arguments =>
      cases planned
      exact .inl arguments.symm
    · cases planned
  case evaluateGroup =>
    cases planned
    exact .inr ⟨1, Nat.le_refl 1, rfl⟩
  case negateLogical =>
    cases planned
    exact .inr ⟨2, by decide, rfl⟩
  case round | roundInteger | call =>
    split at planned
    · cases planned
      exact .inl rfl
    · cases planned
  all_goals
    repeat' split at planned
    all_goals cases planned

theorem Action.span_inside {action : Action} {matched : List Token} (nonempty : matched ≠ [])
    {request : Request} (planned : action.plan matched = .request request) {span : List Token}
    (member : span ∈ request.spans) : Inside span matched := by
  rcases spans_of_plan planned with arguments | ⟨lead, _, held⟩
  · rw [arguments] at member
    exact argument_inside nonempty member
  · rw [held] at member
    obtain rfl := List.mem_singleton.mp member
    exact interior_inside nonempty lead

/-! Replacements -/

theorem Action.plan_tokens {action : Action} {matched replacement : List Token}
    (planned : action.plan matched = .tokens replacement) : ∃ a first b second c,
      action = .expandRange ∧ matched = [a, first, b, second, c] ∧
        replacement = [a, first, b, .combinator .and, b, second, c] := by
  cases action <;> simp only [plan, Plan.mismatch] at planned
  all_goals
    repeat' split at planned
    all_goals cases planned
  exact ⟨_, _, _, _, _, rfl, rfl, rfl⟩

theorem Token.content_of_logical {t : Token} (category : t.category = .logical) :
    ∃ b, t.content = .data (.logical b) := by
  match kind : t.content with
  | .data (.logical b) => exact ⟨b, rfl⟩
  | .data (.number _) | .data (.text _) | .data (.dateTime _) | .data (.list _) | .data .null
  | .identifier _ | .blank => simp [Token.category, kind, Value.category] at category
  | .symbol symbol => cases symbol <;> simp [Token.category, kind, Symbol.category] at category

theorem Token.symbol_of_combinator {t : Token} (category : t.category = .combinator) :
    ∃ word, t.symbol? = some (.combinator word) := by
  match kind : t.content with
  | .symbol (.combinator word) => exact ⟨word, by simp [symbol?, kind]⟩
  | .data v => cases v <;> simp [Token.category, kind, Value.category] at category
  | .identifier _ | .blank => simp [Token.category, kind] at category
  | .symbol (.operator _) | .symbol (.comparator _) | .symbol (.grouping _)
  | .symbol (.function _) | .symbol (.caseWord _) =>
    simp [Token.category, kind, Symbol.category] at category

theorem category_applyTokens {left word right : Token} (isLeft : left.category = .logical)
    (isWord : word.category = .combinator) (isRight : right.category = .logical) {v : Value}
    (applied : applyTokens left word right = .ok v) : v.category = .logical := by
  obtain ⟨l, leftData⟩ := Token.content_of_logical isLeft
  obtain ⟨w, symbol⟩ := Token.symbol_of_combinator isWord
  obtain ⟨r, rightData⟩ := Token.content_of_logical isRight
  have joined : applyTokens left word right = .ok (w.join (.logical l) (.logical r)) := by
    simp [applyTokens, Token.toOperand, Operand.ofToken?, leftData, symbol, rightData,
      Node.ofCombination, Operand.check, Value.category, Node.value, Operand.resolve, bind,
      Except.bind, pure, Except.pure]
  rw [joined] at applied
  cases applied
  cases w <;> simp only [Combinator.join] <;> split <;> rfl

namespace Matched

theorem nonempty {action : Action} {matched : List Token} (m : Matched action matched) :
    matched ≠ [] := by
  cases m with
  | closed _ several _ =>
    rintro rfl
    simp at several
  | _ => simp

theorem value_lighter {matched : List Token} (several : 2 ≤ matched.length)
    (closed : ∀ r : Row, r.Le (r.afterAll matched)) (v : Value) (before behind : List Token) :
    weight (before ++ [.data v] ++ behind) < weight (before ++ matched ++ behind) :=
  Token.weight_value_lt several (fun r => (Token.after_data_le r v).trans (closed r)) before behind

theorem outcome_lighter {action : Action} {matched : List Token} (m : Matched action matched)
    {v : Value} (planned : action.plan matched = .value (.ok v)) (before behind : List Token) :
    weight (before ++ [.data v] ++ behind) < weight (before ++ matched ++ behind) := by
  cases m with
  | closed _ several closed => exact value_lighter several closed v before behind
  | @combination left word right isLeft isWord isRight =>
    have logical := category_applyTokens isLeft isWord isRight (Plan.value.inj planned)
    have parts {t : Token} (category : t.category = .logical ∨ t.category = .combinator) :
        t.mark = .parts := by
      rcases category with category | category
      · exact Token.mark_of_category category (by decide)
      · exact Token.mark_of_category category (by decide)
    refine Token.weight_value_lt (by simp) (fun r => ?_) before behind
    simp only [Row.afterAll, parts (.inl isLeft), parts (.inr isWord), parts (.inl isRight),
      parts (t := .data v) (.inl logical)]
    exact .refl _
  | range => cases planned

theorem answer_lighter {action : Action} {matched : List Token} (m : Matched action matched)
    {request : Request} (planned : action.plan matched = .request request) (v : Value)
    (before behind : List Token) :
    weight (before ++ [.data v] ++ behind) < weight (before ++ matched ++ behind) := by
  cases m with
  | closed _ several closed => exact value_lighter several closed v before behind
  | combination => cases planned
  | range => cases planned

theorem tokens_lighter {action : Action} {matched : List Token} (m : Matched action matched)
    {replacement : List Token} (planned : action.plan matched = .tokens replacement)
    (before behind : List Token) :
    weight (before ++ replacement ++ behind) < weight (before ++ matched ++ behind) := by
  obtain ⟨_, _, _, _, _, rfl, rfl, rfl⟩ := Action.plan_tokens planned
  cases m with
  | closed other _ _ => exact absurd rfl other
  | range a first b second c =>
    have passes {t : Token} (numeric : t.category = .numeric) : t.mark = .passes :=
      Token.mark_of_category numeric (by decide)
    have compares {t : Token} (comparator : t.category = .comparator) : t.mark = .compares :=
      Token.mark_of_category comparator (by decide)
    have parts : (Token.combinator .and).mark = .parts := rfl
    simp only [weight, chained_append, chained, Row.afterAll, Row.afterAll_append, passes a,
      compares first, passes b, compares second, passes c, parts, Row.after, Row.links,
      List.length_append, List.length_cons, List.length_nil,
      if_true, Bool.false_eq_true, if_false]
    omega

end Matched

/-! What is left after a step, and what it looks into -/

namespace Stretch

theorem weight_splice_lt (s : Stretch) {tokens replacement : List Token}
    (lighter : ∀ before behind, weight (before ++ replacement ++ behind) <
      weight (before ++ s.select tokens ++ behind)) :
    weight (s.splice tokens replacement) < weight tokens := by
  have step := lighter (tokens.take s.start) (tokens.drop (s.start + s.length))
  have whole := s.splice_select tokens
  unfold splice at whole
  rwa [whole] at step

theorem weight_lt_of_inside_select (s : Stretch) {tokens part : List Token}
    (inside : Inside part (s.select tokens)) : weight part < weight tokens := by
  have selected : s.select tokens <:+: tokens :=
    (List.take_prefix _ _).isInfix.trans (List.drop_suffix _ _).isInfix
  exact weight_lt_of_infix (inside.1.trans selected)
    (Nat.lt_of_lt_of_le inside.2 selected.length_le)

end Stretch

end Formulary
