import Formulary.Proofs.Abridgement

/-!
Groups are transparent: the value of a group can stand in its place. The rules for calls may take
steps between its brackets before the group is evaluated, and a group or a call around it may
evaluate it along with other tokens. The tokens with the value in place of the group take the same
steps, except for those inside the group.
-/
namespace Formulary

namespace Abridged

variable {book : RuleBook} {whole short : List Token}

structure Holds (book : RuleBook) (whole short left left' : List Token) (opening : Token)
    (inner : List Token) (closing : Token) (v : Value) (right right' : List Token) : Prop where
  group : IsGroup book opening inner closing v
  whole_eq : whole = left ++ opening :: (inner ++ closing :: right)
  short_eq : short = left' ++ .data v :: right'
  before : Abridged book left left'
  behind : Abridged book right right'

theorem Holds.cons {left left' inner right right' : List Token} {opening closing : Token}
    {v : Value} (holds : Holds book whole short left left' opening inner closing v right right')
    {front front' : List Token} (further : Abridged book front front') :
    Holds book (front ++ whole) (front' ++ short) (front ++ left) (front' ++ left') opening inner
      closing v right right' := by
  obtain ⟨group, rfl, rfl, before, behind⟩ := holds
  exact ⟨group, by simp, by simp, further.append before, behind⟩

theorem eq_or_holds (abridged : Abridged book whole short) : whole = short ∨
    ∃ left left' opening inner closing v right right',
      Holds book whole short left left' opening inner closing v right right' := by
  induction abridged with
  | nil => exact .inl rfl
  | cons t _ ih =>
    rcases ih with rfl | ⟨_, _, _, _, _, _, _, _, holds⟩
    · exact .inl rfl
    · exact .inr ⟨_, _, _, _, _, _, _, _, holds.cons (.cons t .nil)⟩
  | group isGroup abridged _ =>
    exact .inr ⟨[], [], _, _, _, _, _, _, isGroup, rfl, rfl, .nil, abridged⟩

theorem locate (abridged : Abridged book whole short) {place : Nat}
    (inside : place < whole.length) :
    (∃ left left' t right right', whole = left ++ t :: right ∧ short = left' ++ t :: right' ∧
      Abridged book left left' ∧ Abridged book right right' ∧ left.length = place) ∨
    ∃ left left' opening inner closing v right right',
      Holds book whole short left left' opening inner closing v right right' ∧
        left.length ≤ place ∧ place < left.length + inner.length + 2 := by
  induction abridged generalizing place with
  | nil => exact absurd inside (Nat.not_lt_zero place)
  | @cons t whole short abridged ih =>
    cases place with
    | zero => exact .inl ⟨[], [], t, whole, short, rfl, rfl, .nil, abridged, rfl⟩
    | succ place =>
      rcases ih (Nat.lt_of_succ_lt_succ inside) with
        ⟨left, left', u, right, right', rfl, rfl, before, behind, rfl⟩ |
        ⟨left, left', _, inner, _, _, _, _, holds, low, high⟩
      · exact .inl ⟨t :: left, t :: left', u, right, right', rfl, rfl, .cons t before, behind, rfl⟩
      · refine .inr ⟨_, _, _, _, _, _, _, _, holds.cons (.cons t .nil), ?_, ?_⟩
        all_goals
          simp only [List.length_append, List.length_cons, List.length_nil]
          omega
  | @group opening closing inner whole short v isGroup abridged ih =>
    by_cases here : place < inner.length + 2
    · exact .inr ⟨[], [], opening, inner, closing, v, whole, short,
        ⟨isGroup, rfl, rfl, .nil, abridged⟩, Nat.zero_le _, by simpa using here⟩
    · obtain ⟨further, rfl⟩ : ∃ further, place = further + (inner.length + 2) :=
        Nat.exists_eq_add_of_le' (by omega)
      have within : further < whole.length := by
        simp only [List.length_cons, List.length_append] at inside
        omega
      have whole_eq (rest : List Token) : opening :: (inner ++ closing :: rest) =
          (opening :: (inner ++ [closing])) ++ rest := by simp
      have alone : Abridged book (opening :: (inner ++ [closing])) [.data v] := .group isGroup .nil
      rcases ih within with
        ⟨left, left', u, right, right', rfl, rfl, before, behind, rfl⟩ |
        ⟨left, left', _, _, _, _, _, _, holds, low, high⟩
      · refine .inl ⟨opening :: (inner ++ closing :: left), .data v :: left', u, right, right',
          by simp, rfl, .group isGroup before, behind, ?_⟩
        simp only [List.length_cons, List.length_append]
        omega
      · rw [whole_eq]
        refine .inr ⟨_, _, _, _, _, _, _, _, holds.cons alone, ?_, ?_⟩
        all_goals
          simp only [List.length_append, List.length_cons, List.length_nil]
          omega

end Abridged

/-! The step that both take -/

theorem interior_append (lead inner : List Token) (closing : Token) :
    interior lead.length (lead ++ (inner ++ [closing])) = inner := by
  simp [interior]

namespace RuleBook

variable {book : RuleBook}

theorem mapM_abridged {spans spans' : List (List Token)}
    (each : List.Forall₂ (Abridged book) spans spans')
    (same : ∀ span ∈ spans, ∀ span', Abridged book span span' →
      book.evaluate span = book.evaluate span') :
    spans.mapM book.evaluate = spans'.mapM book.evaluate := by
  induction each with
  | nil => rfl
  | cons here _ ih =>
    rw [List.mapM_cons, List.mapM_cons, same _ List.mem_cons_self _ here,
      ih fun span member => same span (List.mem_cons_of_mem _ member)]

theorem replacement_abridged {action : Action} {lead inner inner' : List Token}
    (leads : action.Leads lead) (abridged : Abridged book inner inner')
    (same : ∀ span, span <:+: inner → ∀ span', Abridged book span span' →
      book.evaluate span = book.evaluate span') (closing : Token) :
    book.replacement (action.plan (lead ++ (inner ++ [closing]))) =
      book.replacement (action.plan (lead ++ (inner' ++ [closing]))) := by
  have within := interior_append lead inner closing
  have within' := interior_append lead inner' closing
  have all := same inner List.infix_rfl inner' abridged
  cases leads with
  | group opening action =>
    subst action
    simp only [List.length_cons, List.length_nil, Nat.zero_add] at within within'
    simp only [Action.plan, within, within', replacement, Request.result, all]
  | @call head opening name isName two =>
    have split := abridged.splitArguments
    have each : ∀ span ∈ splitArguments inner, ∀ span', Abridged book span span' →
        book.evaluate span = book.evaluate span' :=
      fun span member => same span (infix_of_mem_splitArguments member)
    have values := mapM_abridged split each
    simp only [List.length_cons, List.length_nil, Nat.reduceAdd, List.cons_append,
      List.nil_append] at within within' ⊢
    cases action with
    | choose =>
      simp only [Action.plan, within, within']
      revert split each
      generalize splitArguments inner = spans, splitArguments inner' = spans'
      intro split each
      rcases split with _ | ⟨c, _ | ⟨t, _ | ⟨e, _ | ⟨_, more⟩⟩⟩⟩
      · rfl
      · rfl
      · rfl
      · simp only [replacement, Request.result, each _ (by simp) _ c, each _ (by simp) _ t,
          each _ (by simp) _ e]
      · simp [more.length_eq]
    | negateLogical => simp only [Action.plan, within, within', replacement, Request.result, all]
    | call | round | roundInteger =>
      simp only [Action.plan, List.head?_cons, Option.bind_some, isName, within, within',
        replacement, Request.result, values]
    | _ => cases two

/-! One step -/

variable {whole short : List Token} {m : RuleMatch}

theorem find?_of_group {left right inner : List Token} {opening closing : Token} {v : Value}
    (group : IsGroup book opening inner closing v) :
    ∃ m, book.find? (left ++ opening :: (inner ++ closing :: right)) = some m ∧
      m.index < book.custom.length + 7 := by
  have known : book.rules[book.custom.length + 6]? =
      some ⟨"group", [.opening, .optionalRun, .closing], .evaluateGroup⟩ := by
    simp [rules, coreRules]
  have isOpening : Matcher.opening.accepts opening = true :=
    (Matcher.accepts_grouping group.opens).mpr rfl
  have isClosing : Matcher.closing.accepts closing = true :=
    (Matcher.accepts_grouping group.closes).mpr rfl
  have run : runLength false 0 (inner ++ closing :: right) = inner.length :=
    runLength_of_freeDepth? (freeDepth?_of_evaluate group.value) (.inr group.isClosing) right
  have taken : Pattern.matchAt? [.opening, .optionalRun, .closing]
      (left ++ opening :: (inner ++ closing :: right)) left.length = some (inner.length + 2) := by
    have optional : Matcher.optionalRun.take? false (inner ++ closing :: right) =
        some inner.length := congrArg some run
    have last (atStart : Bool) : Pattern.take? [.closing] atStart (closing :: right) = some 1 :=
      Pattern.take?_cons_of_accepts ⟨_, _, rfl⟩ rfl isClosing [] atStart right
    unfold Pattern.matchAt?
    rw [List.drop_left, Pattern.take?_cons_of_accepts ⟨_, _, rfl⟩ rfl isOpening, Pattern.take?,
      optional]
    simp only [Option.bind_eq_bind, Option.bind_some, List.drop_left, last, Option.pure_def,
      Option.map_some, Option.some.injEq]
    omega
  obtain ⟨m, found, early⟩ := find?_of_matchAt? known taken
  exact ⟨m, found, Nat.lt_succ_of_le early⟩

section Steps

variable {left left' right right' inner : List Token} {t opening closing : Token} {v : Value}

theorem firstMatch_abridged (before : Abridged book left left')
    (behind : Abridged book right right')
    (first : book.FirstMatch (left ++ t :: right) m) (early : m.index < book.custom.length + 7)
    (start : m.stretch.start = left.length) :
    ∃ lead inner inner' closing more more',
      t :: right = lead ++ (inner ++ [closing]) ++ more ∧
      t :: right' = lead ++ (inner' ++ [closing]) ++ more' ∧ m.rule.action.Leads lead ∧
      Abridged book inner inner' ∧ Abridged book more more' ∧
      m.stretch.length = (lead ++ (inner ++ [closing])).length ∧
      book.FirstMatch (left' ++ t :: right')
        ⟨m.index, m.rule, ⟨left'.length, (lead ++ (inner' ++ [closing])).length⟩⟩ := by
  obtain ⟨index, rule, begin, n⟩ := m
  dsimp only at early start
  subst start
  obtain ⟨known, here, leftmost, earlier⟩ := first
  dsimp only at known here leftmost earlier
  have bracketed := bracketed_of_index early known
  have whole : Abridged book (left ++ t :: right) (left' ++ t :: right') :=
    before.append (.cons t behind)
  unfold Pattern.matchAt? at here
  rw [List.drop_left] at here
  rcases behind.bracketed bracketed t (left.length == 0) (left'.length == 0) with ⟨nothing, _⟩ |
    ⟨k, n', lead, inner, inner', closing, more, more', taken, taken', splits, leads⟩
  · rw [nothing] at here
    cases here
  · rw [taken] at here
    cases here
    obtain ⟨split, split', inside, further, long, long'⟩ := splits
    refine ⟨lead, inner, inner', closing, more, more', by simp [split], by simp [split'], leads,
      inside, further, by simp [long, Nat.add_assoc], known, ?_, ?_, ?_⟩
    · unfold Pattern.matchAt?
      rw [List.drop_left]
      simpa [long', Nat.add_assoc] using taken'
    · exact before.nowhere bracketed (.cons t behind) leftmost
    · intro other (below : other < index) rule' known' place
      by_cases inside : place < (left' ++ t :: right').length
      · have nowhere := whole.nowhere (bracketed_of_index (by omega) known') .nil
          (fun start _ => by
            rw [List.append_nil]
            exact earlier other below rule' known' start) place inside
        rwa [List.append_nil] at nowhere
      · exact Pattern.matchAt?_of_length_le
          (isHeaded_of_mem_rules (List.mem_of_getElem? known')).headed (by omega)

theorem evaluate_outside (before : Abridged book left left') (behind : Abridged book right right')
    (found : book.find? (left ++ t :: right) = some m)
    (early : m.index < book.custom.length + 7) (start : m.stretch.start = left.length)
    (same : ∀ whole short, weight whole < weight (left ++ t :: right) →
      Abridged book whole short → book.evaluate whole = book.evaluate short) :
    book.evaluate (left ++ t :: right) = book.evaluate (left' ++ t :: right') := by
  obtain ⟨lead, inner, inner', closing, more, more', split, split', leads, inside, further, long,
    first'⟩ := firstMatch_abridged before behind (firstMatch_of_find? found) early start
  have found' := find?_of_firstMatch first'
  have size := length_of_find? found early
  have size' := length_of_find? found' early
  have step := book.evaluate_step (show ¬ (left ++ t :: right).length ≤ 1 by omega) found
  have step' := book.evaluate_step (show ¬ (left' ++ t :: right').length ≤ 1 by omega) found'
  obtain ⟨index, rule, begin, n⟩ := m
  dsimp only at leads long start step'
  subst start long
  rw [split] at found step same ⊢
  rw [split'] at step' ⊢
  have spans : book.replacement (rule.action.plan (lead ++ (inner ++ [closing]))) =
      book.replacement (rule.action.plan (lead ++ (inner' ++ [closing]))) := by
    refine replacement_abridged leads inside (fun span part span' related => ?_) closing
    have contained : inner <:+: left ++ (lead ++ (inner ++ [closing]) ++ more) :=
      ⟨left ++ lead, closing :: more, by simp⟩
    have shorter : span.length <
        (left ++ (lead ++ (inner ++ [closing]) ++ more)).length := by
      have within := part.length_le
      simp only [List.length_append, List.length_cons, List.length_nil]
      omega
    have spanLighter := weight_lt_of_infix (part.trans contained) shorter
    exact same span span' spanLighter related
  have lighter := @rewrite_lighter book _ _ found
  rw [rewrite_matched] at step lighter
  rw [rewrite_matched, ← spans] at step'
  rw [step, step']
  cases replaced : book.replacement (rule.action.plan (lead ++ (inner ++ [closing]))) with
  | error e => rfl
  | ok tokens =>
    rw [replaced] at lighter
    exact same _ _ (lighter rfl) (before.append ((Abridged.refl book tokens).append further))

theorem rewrite_group (group : IsGroup book opening inner closing v)
    (found : book.find? (left ++ opening :: (inner ++ closing :: right)) = some m)
    (early : m.index < book.custom.length + 7) (start : m.stretch.start = left.length) :
    book.rewrite (left ++ opening :: (inner ++ closing :: right)) m =
      .ok (left ++ .data v :: right) := by
  have first := firstMatch_of_find? found
  have bracketed := bracketed_of_index early first.known
  have here := first.here
  obtain ⟨index, rule, begin, n⟩ := m
  dsimp only at here start bracketed
  subst start
  unfold Pattern.matchAt? at here
  rw [List.drop_left] at here
  have grouping : opening.category = .grouping := Token.category_of_symbol group.opens
  have evaluates : rule.action = .evaluateGroup := by
    cases bracketed with
    | group pattern every same action => exact action
    | call names pattern every same action =>
      rw [same, Pattern.take?_cons_of_rejects ⟨_, _, rfl⟩
        (Matcher.rejects_of_category rfl (by rw [grouping]; decide))] at here
      cases here
  have enclosing := bracketed.pattern.enclosing here
  have whole := Pattern.take?_le here
  generalize taken : (opening :: (inner ++ closing :: right)).take n = matched at enclosing
  have split := List.take_append_drop n (opening :: (inner ++ closing :: right))
  rw [taken] at split
  have long : n = matched.length := by
    rw [← taken, List.length_take]
    omega
  cases enclosing with
  | @call head _ _ _ call =>
    obtain ⟨rfl, _⟩ := List.cons.inj split
    rw [call.function] at grouping
    cases grouping
  | @group begins last inside opens closes balanced =>
    rw [List.cons_append, List.append_assoc, List.singleton_append] at split
    generalize (opening :: (inner ++ closing :: right)).drop n = others at split
    obtain ⟨rfl, rest⟩ := List.cons.inj split
    -- both are what stands before the bracket that closes the group
    have run := runLength_of_endDepth? balanced closes others
    rw [rest, runLength_of_endDepth? group.balanced group.isClosing right] at run
    obtain ⟨rfl, same⟩ := List.append_inj rest run.symm
    obtain ⟨rfl, _⟩ := List.cons.inj same
    have within : interior 1 (begins :: (inside ++ [last])) = inside := by simp [interior]
    have tokens : left ++ begins :: (inside ++ last :: right) =
        left ++ (begins :: (inside ++ [last]) ++ right) := by simp
    rw [tokens, long, rewrite_matched, evaluates]
    simp only [Action.plan, within, replacement, Request.result, group.value]
    rfl

/-- The value of a group can stand in its place. -/
theorem evaluate_abridged {whole short : List Token} (abridged : Abridged book whole short) :
    book.evaluate whole = book.evaluate short := by
  induction size : weight whole using Nat.strongRecOn generalizing whole short with
  | ind n ih =>
    have same (whole' short' : List Token) (lighter : weight whole' < weight whole)
        (related : Abridged book whole' short') : book.evaluate whole' = book.evaluate short' :=
      ih _ (size ▸ lighter) related rfl
    rcases abridged.eq_or_holds with rfl | ⟨_, _, _, _, _, _, _, _, holds⟩
    · rfl
    obtain ⟨m, found, early⟩ : ∃ m, book.find? whole = some m ∧
        m.index < book.custom.length + 7 := by
      rw [holds.whole_eq]
      exact find?_of_group holds.group
    have inside := length_of_find? found early
    have step := book.evaluate_step (show ¬ whole.length ≤ 1 by omega) found
    rcases abridged.locate (show m.stretch.start < whole.length by omega) with
      ⟨left, left', t, right, right', rfl, rfl, before, behind, start⟩ |
      ⟨left, left', opening, inner, closing, v, right, right', holds, low, high⟩
    · exact evaluate_outside before behind found early start.symm same
    · obtain ⟨group, rfl, rfl, before, behind⟩ := holds
      by_cases start : m.stretch.start = left.length
      · have rewritten := rewrite_group group found early start
        rw [step, rewritten]
        exact same _ _ (rewrite_lighter found rewritten) (before.append (.cons _ behind))
      · -- the step is one of the tokens in the group, which keep their value
        have regroup (tokens : List Token) : left ++ opening :: (tokens ++ closing :: right) =
            (left ++ [opening]) ++ (tokens ++ closing :: right) := by simp
        have notClosing := start_ne_of_grouping found early
          (show _ = (left ++ opening :: inner) ++ closing :: right by simp) group.closes (by decide)
        have apart : Matcher.callOpening.accepts closing = false :=
          Matcher.rejects_grouping group.closes (by decide)
        simp only [List.length_append, List.length_cons] at notClosing
        rw [regroup] at found step same ⊢
        rcases steps_within found early group.balanced apart
          (by simp only [List.length_append, List.length_cons, List.length_nil]; omega)
          (by simp only [List.length_append, List.length_cons, List.length_nil]; omega) with
          ⟨e, fails, _⟩ | ⟨after, value, _, _, rewritten⟩
        · rw [group.value] at fails
          cases fails
        · rw [step, rewritten]
          have still : IsGroup book opening after closing v :=
            ⟨group.opens, group.closes, value ▸ group.value⟩
          refine same _ _ (rewrite_lighter found rewritten) ?_
          rw [← regroup]
          exact before.append (.group still behind)

end Steps

/-- A group whose tokens evaluate to a value can be replaced by that value, wherever it stands. -/
theorem evaluate_group (book : RuleBook) (left right : List Token) {opening closing : Token}
    (opens : opening.content = .symbol (.grouping .opening))
    (closes : closing.content = .symbol (.grouping .closing)) {inner : List Token} {v : Value}
    (value : book.evaluate inner = .ok v) :
    book.evaluate (left ++ opening :: (inner ++ closing :: right)) =
      book.evaluate (left ++ .data v :: right) :=
  evaluate_abridged ((Abridged.refl book left).append
    (.group ⟨opens, closes, value⟩ (Abridged.refl book right)))

/-- `2 * (1 + 2)` is `2 * 3`. -/
theorem evaluate_group_sum :
    let operator (op : Operator) : Token := .symbol (.operator op)
    let left := [.data (.integer 2), operator .multiply]
    let inner := [.data (.integer 1), operator .add, .data (.integer 2)]
    core.evaluate inner = .ok (.integer 3) ∧
      core.evaluate (left ++ .grouping .opening :: (inner ++ [.grouping .closing])) =
        core.evaluate (left ++ [.data (.integer 3)]) := by
  intro operator left inner
  have found : core.find? inner =
      some ⟨13, ⟨"math_add", [.numeric, .addSubtract, .numeric], .apply⟩, ⟨0, 3⟩⟩ := rfl
  have rewritten : core.rewrite inner
      ⟨13, ⟨"math_add", [.numeric, .addSubtract, .numeric], .apply⟩, ⟨0, 3⟩⟩ =
        .ok [.data (.integer 3)] := rfl
  have value : core.evaluate inner = .ok (.integer 3) := by
    rw [core.evaluate_step (by decide) found, rewritten]
    exact core.evaluate_short (Nat.le_refl 1)
  exact ⟨value, core.evaluate_group left [] rfl rfl value⟩

end RuleBook

end Formulary
