import Formulary.Proofs.Arguments

/-!
The rules for calls and groups come before all others. Their matches do not go across the brackets
around them, so that in a part of the tokens whose brackets close they are what they are in that
part alone. No rule changes how deep the tokens behind its match stand, or where commas part them.
-/
namespace Formulary

def Action.lead? : Action → Option Nat
  | choose | round | roundInteger | negateLogical | call => some 2
  | evaluateGroup => some 1
  | _ => none

inductive Rule.Bracketed (r : Rule) : Prop where
  | call (names : List Symbol) (inner : Pattern) : (∀ m ∈ inner, m.IsInner) →
      r.pattern = ⟨.one [.function] names, false⟩ :: .callOpening :: (inner ++ [.closing]) →
      r.action.lead? = some 2 → Bracketed r
  | group (inner : Pattern) : (∀ m ∈ inner, m.IsInner) →
      r.pattern = .opening :: (inner ++ [.closing]) → r.action = .evaluateGroup → Bracketed r

def Rule.IsFlat (r : Rule) : Prop :=
  ∀ m ∈ r.pattern, ∃ category symbols, m.shape = .one [category] symbols ∧ category ≠ .grouping

theorem Rule.Bracketed.pattern {r : Rule} (bracketed : r.Bracketed) : r.pattern.Bracketed := by
  cases bracketed with
  | call names inner every same action =>
    rw [same]
    exact .call names every
  | group inner every same action =>
    rw [same]
    exact .group every

theorem Definition.bracketed_rule (d : Definition) : d.rule.Bracketed :=
  .call [.function d.name] (argumentPattern d.signature) (fun _ member => d.isInner_of_mem member)
    d.pattern_eq rfl

theorem Matcher.isInner_of_mem_runs {inner : Pattern}
    (known : inner = [.run, .comma, .run, .comma, .run] ∨ inner = [.arguments] ∨ inner = [.run] ∨
      inner = [.optionalRun]) : ∀ m ∈ inner, m.IsInner := by
  rcases known with rfl | rfl | rfl | rfl <;> simp [IsInner]

theorem bracketed_of_core {index : Nat} (early : index < 7) {rule : Rule}
    (known : coreRules[index]? = some rule) : rule.Bracketed := by
  have inner := @Matcher.isInner_of_mem_runs
  match index, known, early with
  | 0, rfl, _ => exact .call _ [.run, .comma, .run, .comma, .run] (inner (.inl rfl)) rfl rfl
  | 1, rfl, _ | 2, rfl, _ | 3, rfl, _ | 5, rfl, _ =>
    exact .call _ [.arguments] (inner (.inr (.inl rfl))) rfl rfl
  | 4, rfl, _ => exact .call _ [.run] (inner (.inr (.inr (.inl rfl)))) rfl rfl
  | 6, rfl, _ => exact .group [.optionalRun] (inner (.inr (.inr (.inr rfl)))) rfl rfl

theorem isFlat_of_core {rule : Rule} (late : rule ∈ coreRules.drop 7) : rule.IsFlat := by
  have flat {m : Matcher} (category : Category) (symbols : List Symbol)
      (shape : m.shape = .one [category] symbols) (other : category ≠ .grouping) :
      ∃ category symbols, m.shape = .one [category] symbols ∧ category ≠ .grouping :=
    ⟨category, symbols, shape, other⟩
  simp only [coreRules, List.drop_succ_cons, List.drop_zero, List.mem_cons, List.not_mem_nil,
    or_false] at late
  rcases late with rfl | rfl | rfl | rfl | rfl | rfl | rfl | rfl | rfl | rfl | rfl | rfl | rfl |
    rfl | rfl | rfl
  all_goals
    intro m member
    simp only [List.mem_cons, List.not_mem_nil, or_false] at member
    rcases member with rfl | rfl | rfl | rfl | rfl <;> exact flat _ _ rfl (by decide)

namespace RuleBook

variable {book : RuleBook}

theorem bracketed_of_index {index : Nat} (early : index < book.custom.length + 7) {rule : Rule}
    (known : book.rules[index]? = some rule) : rule.Bracketed := by
  obtain ⟨d, _, rfl, _⟩ | ⟨place, rfl, here⟩ := rule_cases known
  · exact d.bracketed_rule
  · exact bracketed_of_core (by omega) here

theorem bracketed_or_isFlat {rule : Rule} (member : rule ∈ book.rules) :
    rule.Bracketed ∨ rule.IsFlat := by
  obtain ⟨index, known⟩ := List.getElem?_of_mem member
  obtain ⟨d, _, rfl, _⟩ | ⟨place, rfl, here⟩ := rule_cases known
  · exact .inl d.bracketed_rule
  · by_cases early : place < 7
    · exact .inl (bracketed_of_core early here)
    · refine .inr (isFlat_of_core (List.mem_of_getElem? (i := place - 7) ?_))
      rw [List.getElem?_drop, Nat.add_sub_cancel' (Nat.le_of_not_lt early)]
      exact here

end RuleBook

/-! Matches -/

theorem Pattern.enclosed_of_isInner {inner : Pattern} (every : ∀ m ∈ inner, m.IsInner) :
    inner.Enclosed := by
  induction inner with
  | nil => exact enclosed_nil
  | cons m inner ih =>
    have rest : Enclosed inner :=
      ih fun other member => every other (List.mem_cons_of_mem m member)
    rcases every m List.mem_cons_self with rfl | rfl | rfl | rfl
    · exact @enclosed_cons .run inner (by simp [Matcher.run]) rest
    · exact @enclosed_cons .optionalRun inner (by simp [Matcher.optionalRun]) rest
    · exact @enclosed_cons .arguments inner (by simp [Matcher.arguments]) rest
    · exact @enclosed_comma inner rest

/-- What the rules for calls and groups match: brackets that close, with their contents. -/
inductive Enclosing : List Token → Prop where
  | call {head opening closing : Token} {inner : List Token} :
      IsCall head opening inner closing → Enclosing (head :: opening :: (inner ++ [closing]))
  | group {opening closing : Token} {inner : List Token} : opening.isOpening = true →
      closing.isClosing = true → endDepth? 0 inner = some 0 →
      Enclosing (opening :: (inner ++ [closing]))

theorem Pattern.Bracketed.enclosing {pattern : Pattern} (bracketed : pattern.Bracketed)
    {atStart : Bool} {tokens : List Token} {n : Nat}
    (taken : pattern.take? atStart tokens = some n) : Enclosing (tokens.take n) := by
  cases bracketed with
  | call names inner =>
    obtain ⟨head, opening, span, closing, same, function, opens, closes, balanced⟩ :=
      take?_call (enclosed_of_isInner inner) rfl taken
    rw [same]
    exact .call ⟨function, opens, closes, balanced⟩
  | group inner =>
    obtain ⟨opening, span, closing, same, opens, closes, balanced⟩ :=
      take?_brackets (enclosed_of_isInner inner) (.inl rfl) taken
    rw [same]
    exact .group opens closes balanced

theorem Enclosing.freeDepth? {matched : List Token} (enclosing : Enclosing matched) (depth : Nat) :
    freeDepth? depth matched = some depth := by
  cases enclosing with
  | call call => exact call.freeDepth? depth
  | group opens closes balanced =>
    have within := freeDepth?_inner balanced depth
    rw [Nat.zero_add] at within
    rw [freeDepth?_cons (isComma_of_bracket (.inl opens)), depthAfter?_of_isOpening opens,
      Option.bind_some, freeDepth?_append, within, Option.bind_some,
      freeDepth?_cons (isComma_of_bracket (.inr closes)), depthAfter?_of_isClosing closes]
    rfl

theorem freeDepth?_of_category {tokens : List Token}
    (other : ∀ t ∈ tokens, t.category ≠ .grouping) (depth : Nat) :
    freeDepth? depth tokens = some depth := by
  induction tokens with
  | nil => rfl
  | cons t rest ih =>
    have here := other t List.mem_cons_self
    rw [freeDepth?_cons (isComma_of_category here), depthAfter?_of_category here]
    exact ih fun u member => other u (List.mem_cons_of_mem t member)

theorem Pattern.category_of_accepts {pattern : Pattern}
    (flat : ∀ m ∈ pattern, ∃ category symbols, m.shape = .one [category] symbols ∧
      category ≠ .grouping) {tokens : List Token} (accepts : pattern.Accepts tokens) :
    ∀ t ∈ tokens, t.category ≠ .grouping := by
  induction pattern generalizing tokens with
  | nil =>
    cases tokens with
    | nil => simp
    | cons t rest => exact accepts.elim
  | cons m pattern ih =>
    cases tokens with
    | nil => exact accepts.elim
    | cons t rest =>
      intro u member
      rcases List.mem_cons.mp member with rfl | member
      · obtain ⟨category, symbols, shape, other⟩ := flat m List.mem_cons_self
        rw [Matcher.category_of_accepts shape accepts.1]
        exact other
      · exact ih (fun n inside => flat n (List.mem_cons_of_mem m inside)) accepts.2 u member

namespace RuleBook

variable {book : RuleBook} {tokens : List Token} {m : RuleMatch}

theorem firstMatch_of_find? (found : book.find? tokens = some m) : book.FirstMatch tokens m :=
  search_eq_some_iff_firstMatch.mp (book.find?_eq_search tokens ▸ found)

theorem find?_of_firstMatch (first : book.FirstMatch tokens m) : book.find? tokens = some m :=
  book.find?_eq_search tokens ▸ search_eq_some_iff_firstMatch.mpr first

theorem freeDepth?_select (found : book.find? tokens = some m) (depth : Nat) :
    freeDepth? depth (m.stretch.select tokens) = some depth := by
  have first := firstMatch_of_find? found
  rcases bracketed_or_isFlat (List.mem_of_getElem? first.known) with bracketed | flat
  · exact (bracketed.pattern.enclosing first.here).freeDepth? depth
  · have single : ∀ n ∈ m.rule.pattern, ∃ categories symbols,
        n.shape = .one categories symbols := by
      intro n member
      obtain ⟨_, _, shape, _⟩ := flat n member
      exact ⟨_, _, shape⟩
    exact freeDepth?_of_category
      (Pattern.category_of_accepts flat (Pattern.accepts_of_take? single first.here)) depth

theorem freeDepth?_data (v : Value) (depth : Nat) : freeDepth? depth [.data v] = some depth :=
  freeDepth?_of_category (by simp [category_data]) depth

theorem freeDepth?_yields {action : Action} {matched : List Token} (ways : Matched action matched)
    {replaced : List Token} (yields : (action.plan matched).Yields replaced) (depth : Nat) :
    freeDepth? depth replaced = some depth := by
  obtain ⟨v, rfl⟩ | ⟨_, _, _, _, _, rfl, rfl, rfl⟩ := Action.yields_cases yields
  · exact freeDepth?_data v depth
  · cases ways with
    | closed other _ _ => exact absurd rfl other
    | range a first b second c =>
      have joined : (Token.combinator .and).category ≠ .grouping := by decide
      refine freeDepth?_of_category (fun t member => ?_) depth
      simp only [List.mem_cons, List.not_mem_nil, or_false] at member
      rcases member with rfl | rfl | rfl | rfl | rfl | rfl | rfl <;> simp_all

/-- A step leaves the brackets around its match, and the commas there, as they are. -/
theorem freeDepth?_rewrite (found : book.find? tokens = some m) {after : List Token}
    (done : book.rewrite tokens m = .ok after) (depth : Nat) :
    freeDepth? depth after = freeDepth? depth tokens := by
  obtain ⟨replaced, yields, rfl⟩ := yields_of_rewrite done
  have selected := freeDepth?_select found
  have put := freeDepth?_yields (matched_of_find? found) yields
  have same : freeDepth? depth (m.stretch.splice tokens replaced) =
      freeDepth? depth (m.stretch.splice tokens (m.stretch.select tokens)) := by
    simp only [Stretch.splice, freeDepth?_append, Option.bind_assoc, selected, put,
      Option.bind_some]
  rw [same, m.stretch.splice_select]

theorem freeDepth?_of_evaluate {v : Value} (done : book.evaluate tokens = .ok v) :
    freeDepth? 0 tokens = some 0 := by
  induction size : weight tokens using Nat.strongRecOn generalizing tokens with
  | ind n ih =>
    by_cases short : tokens.length ≤ 1
    · match tokens, short with
      | [], _ => rfl
      | [t], _ =>
        have value : book.evaluate [t] = t.toValue := evaluate_short book (Nat.le_refl 1)
        rw [value] at done
        cases content : t.content with
        | data w =>
          refine freeDepth?_of_category (fun u member => ?_) 0
          rw [List.mem_singleton.mp member, Token.category_of_data content]
          exact category_data w
        | _ => simp [Token.toValue, content] at done
    · cases found : book.find? tokens with
      | none =>
        rw [evaluate_stuck book short found] at done
        cases done
      | some m =>
        rw [evaluate_step book short found] at done
        obtain ⟨after, rewritten, done⟩ := bind_eq_ok.mp done
        rw [← freeDepth?_rewrite found rewritten]
        exact ih _ (size ▸ rewrite_lighter found rewritten) done rfl

end RuleBook

end Formulary
