import Formulary.Proofs.Arguments

/-!
Conditionals. Apart from calls of registered functions, only the branch that is chosen is
evaluated. Those calls are answered before the condition is looked at, in both branches.
-/
namespace Formulary

structure Conditional where
  head : Token
  opening : Token
  first : Token
  second : Token
  closing : Token
  isIf : head.content = .symbol (.function (.mk "if"))
  opens : opening.content = .symbol (.grouping .callOpening)
  parts : first.content = .symbol (.grouping .comma)
  partsAgain : second.content = .symbol (.grouping .comma)
  closes : closing.content = .symbol (.grouping .closing)

def Conditional.tokens (frame : Conditional) (condition consequent alternative : List Token) :
    List Token :=
  frame.head :: frame.opening :: (condition ++ frame.first ::
    (consequent ++ frame.second :: (alternative ++ [frame.closing])))

def Conditional.plain : Conditional where
  head := ⟨.symbol (.function (.mk "if")), 0⟩
  opening := .grouping .callOpening
  first := .grouping .comma
  second := .grouping .comma
  closing := .grouping .closing
  isIf := rfl
  opens := rfl
  parts := rfl
  partsAgain := rfl
  closes := rfl

def Definition.failing : Definition :=
  ⟨.mk "fail", .parameters ["x"], fun _ => .error (.badArgument (.other "boom"))⟩

/-! The rule for conditionals -/

theorem Matcher.take?_run {span : List Token} (argument : IsArgument span) {stop : Token}
    (stops : stop.isComma = true ∨ stop.isClosing = true) (atStart : Bool) (more : List Token) :
    run.take? atStart (span ++ stop :: more) = some span.length := by
  have length := runLength_of_freeDepth? argument.freeDepth? stops more
  simp [take?, run, length, argument.nonempty]

theorem Pattern.take?_run {span : List Token} (argument : IsArgument span) {stop : Token}
    (stops : stop.isComma = true ∨ stop.isClosing = true) (pattern : Pattern) (atStart : Bool)
    (more : List Token) :
    take? (.run :: pattern) atStart (span ++ stop :: more) =
      (take? pattern false (stop :: more)).map (span.length + ·) := by
  have one := Matcher.take?_run argument stops atStart more
  have inside : (atStart && span.length == 0) = false := by simp [argument.nonempty]
  simp only [take?, one, inside, Option.bind_eq_bind, Option.bind_some, List.drop_left]
  cases take? pattern false (stop :: more) <;> rfl

namespace Conditional

variable (frame : Conditional) {c t e : List Token}

theorem stops : frame.first.isComma = true ∧ frame.second.isComma = true ∧
    frame.closing.isClosing = true :=
  ⟨Token.isGrouping_of_content frame.parts, Token.isGrouping_of_content frame.partsAgain,
    Token.isGrouping_of_content frame.closes⟩

theorem length_tokens (c t e : List Token) :
    (frame.tokens c t e).length = 5 + c.length + t.length + e.length := by
  simp only [tokens, List.length_cons, List.length_append, List.length_nil]
  omega

theorem find? (condition : IsArgument c) (consequent : IsArgument t) (alternative : IsArgument e) :
    (callPattern (.mk "if") [.run, .comma, .run, .comma, .run]).find? (frame.tokens c t e) =
      some ⟨0, (frame.tokens c t e).length⟩ := by
  obtain ⟨comma, commaAgain, closing⟩ := frame.stops
  have opens : Matcher.callOpening.IsSingle := ⟨_, _, rfl⟩
  have parts : Matcher.comma.IsSingle := ⟨_, _, rfl⟩
  have closes : Matcher.closing.IsSingle := ⟨_, _, rfl⟩
  have free :
      Pattern.isAnchored (callPattern (.mk "if") [.run, .comma, .run, .comma, .run]) = false := rfl
  have taken : Pattern.take? (callPattern (.mk "if") [.run, .comma, .run, .comma, .run]) true
      (frame.tokens c t e) = some (frame.tokens c t e).length := by
    have head : (Matcher.function (.mk "if")).accepts frame.head = true :=
      (Matcher.accepts_function frame.isIf).mpr rfl
    have opening : Matcher.callOpening.accepts frame.opening = true :=
      (Matcher.accepts_grouping frame.opens).mpr rfl
    have first : Matcher.comma.accepts frame.first = true :=
      (Matcher.accepts_grouping frame.parts).mpr rfl
    have second : Matcher.comma.accepts frame.second = true :=
      (Matcher.accepts_grouping frame.partsAgain).mpr rfl
    have last : Matcher.closing.accepts frame.closing = true :=
      (Matcher.accepts_grouping frame.closes).mpr rfl
    have pattern : callPattern (.mk "if") [.run, .comma, .run, .comma, .run] =
        [.function (.mk "if"), .callOpening, .run, .comma, .run, .comma, .run, .closing] := rfl
    rw [pattern, length_tokens]
    unfold tokens
    rw [Pattern.take?_cons_of_accepts ⟨_, _, rfl⟩ rfl head,
      Pattern.take?_cons_of_accepts opens rfl opening,
      Pattern.take?_run condition (.inl comma),
      Pattern.take?_cons_of_accepts parts rfl first,
      Pattern.take?_run consequent (.inl commaAgain),
      Pattern.take?_cons_of_accepts parts rfl second,
      Pattern.take?_run alternative (.inr closing),
      Pattern.take?_cons_of_accepts closes rfl last]
    simp only [Pattern.take?, Option.map_some, Option.some.injEq]
    omega
  unfold Pattern.find?
  rw [if_neg (by simp [free])]
  unfold tokens at taken ⊢
  simp only [Pattern.findFrom?, BEq.rfl, taken]

theorem splitArguments (condition : IsArgument c) (consequent : IsArgument t)
    (alternative : IsArgument e) :
    splitArguments (interior 2 (frame.tokens c t e)) = [c, t, e] := by
  obtain ⟨comma, commaAgain, _⟩ := frame.stops
  have inner : interior 2 (frame.tokens c t e) = c ++ frame.first :: (t ++ frame.second :: e) := by
    have split : frame.tokens c t e = frame.head :: frame.opening ::
        ((c ++ frame.first :: (t ++ frame.second :: e)) ++ [frame.closing]) := by
      simp [tokens]
    rw [split]
    exact List.dropLast_concat
  rw [inner, Formulary.splitArguments]
  rw [if_neg (by simp), (pieces_of_freeDepth? condition.freeDepth?).2 _ _ comma,
    (pieces_of_freeDepth? consequent.freeDepth?).2 _ _ commaAgain,
    (pieces_of_freeDepth? alternative.freeDepth?).1]

theorem evaluate (book : RuleBook) (condition : IsArgument c) (consequent : IsArgument t)
    (alternative : IsArgument e) (none : book.findCall? (frame.tokens c t e) = none) :
    book.evaluate (frame.tokens c t e) = (do
      if (← book.evaluate c).isTruthy then book.evaluate t else book.evaluate e) := by
  have known : coreRules[0]? =
      some ⟨"if", callPattern (.mk "if") [.run, .comma, .run, .comma, .run], .choose⟩ := rfl
  have found := RuleBook.find?_core known (frame.find? condition consequent alternative)
    (RuleBook.findCall?_eq_none_iff.mp none) (by simp)
  have long : ¬ (frame.tokens c t e).length ≤ 1 := by
    rw [length_tokens]
    omega
  have selected : Stretch.select ⟨0, (frame.tokens c t e).length⟩ (frame.tokens c t e) =
      frame.tokens c t e := by simp [Stretch.select]
  have spliced (v : Value) : Stretch.splice ⟨0, (frame.tokens c t e).length⟩
      (frame.tokens c t e) [.data v] = [.data v] := by simp [Stretch.splice]
  have value (v : Value) : book.evaluate [.data v] = .ok v := book.evaluate_short (Nat.le_refl 1)
  rw [book.evaluate_step long found, RuleBook.rewrite, selected]
  simp only [Action.plan, frame.splitArguments condition consequent alternative,
    RuleBook.replacement, Request.result, bind_assoc, pure_bind, spliced, value]
  exact bind_congr fun v => bind_pure _

theorem answerCalls_tokens {book : RuleBook} (others : ∀ d ∈ book.custom, d.name.text ≠ "if") :
    book.answerCalls (frame.tokens c t e) =
      (book.answerCalls (c ++ frame.first :: (t ++ frame.second :: (e ++ [frame.closing])))).map
        fun rest => frame.head :: frame.opening :: rest := by
  have head : ∀ d ∈ book.custom, (Matcher.function d.name).accepts frame.head = false := by
    intro d member
    rw [Bool.eq_false_iff, ne_eq, Matcher.accepts_function frame.isIf]
    exact fun same => others d member (congrArg Name.text same.symm)
  have opening : ∀ d ∈ book.custom, (Matcher.function d.name).accepts frame.opening = false :=
    fun d _ => Matcher.function_rejects d.name frame.opens
  unfold tokens
  rw [RuleBook.answerCalls_cons head, RuleBook.answerCalls_cons opening]
  cases book.answerCalls _ <;> rfl

theorem answered {book : RuleBook} (others : ∀ d ∈ book.custom, d.name.text ≠ "if")
    (condition : IsArgument c) (consequent : IsArgument t) (alternative : IsArgument e) :
    (∃ c' t' e', book.answerCalls c = .ok c' ∧ book.answerCalls t = .ok t' ∧
        book.answerCalls e = .ok e' ∧
        book.answerCalls (frame.tokens c t e) = .ok (frame.tokens c' t' e')) ∨
      ∃ error, book.answerCalls (frame.tokens c t e) = .error error ∧
        (book.answerCalls c = .error error ∨ book.answerCalls t = .error error ∨
          book.answerCalls e = .error error) := by
  have last : book.answerCalls (e ++ [frame.closing]) = _ := RuleBook.answerCalls_concat
    (book.parts_of_grouping frame.closes alternative.balanced (by decide))
  have behind : book.AnsweredApart t frame.second (e ++ [frame.closing]) :=
    RuleBook.answeredApart
      (book.parts_of_grouping frame.partsAgain consequent.balanced (by decide)) _
  have all : book.AnsweredApart c frame.first (t ++ frame.second :: (e ++ [frame.closing])) :=
    RuleBook.answeredApart (book.parts_of_grouping frame.parts condition.balanced (by decide)) _
  rw [frame.answerCalls_tokens others]
  cases all with
  | failed error either failed =>
    refine .inr ⟨error, by rw [failed]; rfl, ?_⟩
    rcases either with inCondition | later
    · exact .inl inCondition
    · cases behind with
      | answered t' r _ _ done =>
        rw [done] at later
        cases later
      | failed other either failed =>
        rw [failed] at later
        cases later
        rcases either with inConsequent | inAlternative
        · exact .inr (.inl inConsequent)
        · cases done : book.answerCalls e with
          | ok e' =>
            rw [last, done] at inAlternative
            cases inAlternative
          | error other =>
            rw [last, done] at inAlternative
            cases inAlternative
            exact .inr (.inr rfl)
  | answered c' r doneCondition rest done =>
    cases behind with
    | failed error _ failed =>
      rw [failed] at rest
      cases rest
    | answered t' r' doneConsequent tail both =>
      rw [both] at rest
      cases rest
      cases doneAlternative : book.answerCalls e with
      | error other =>
        rw [last, doneAlternative] at tail
        cases tail
      | ok e' =>
        rw [last, doneAlternative] at tail
        cases tail
        refine .inl ⟨c', t', e', doneCondition, doneConsequent, rfl, ?_⟩
        rw [done]
        rfl

end Conditional

namespace RuleBook

theorem answerCalls_of_evaluate {book : RuleBook} {tokens : List Token} {v : Value}
    (done : book.evaluate tokens = .ok v) :
    ∃ answered, book.answerCalls tokens = .ok answered ∧ book.evaluate answered = .ok v := by
  rw [evaluate_answerCalls] at done
  exact bind_eq_ok.mp done

theorem evaluate_of_answerCalls {book : RuleBook} {tokens answered : List Token}
    (done : book.answerCalls tokens = .ok answered) :
    book.evaluate tokens = book.evaluate answered := by
  rw [evaluate_answerCalls, done]
  rfl

theorem evaluate_of_answerCalls_error {book : RuleBook} {tokens : List Token} {e : FormulaError}
    (failed : book.answerCalls tokens = .error e) : book.evaluate tokens = .error e := by
  rw [evaluate_answerCalls, failed]
  rfl

/-- Once all calls are answered, it is the chosen branch that is evaluated. -/
theorem evaluate_answered {book : RuleBook} {frame : Conditional} {c t e c' t' e' : List Token}
    (condition : IsArgument c) (consequent : IsArgument t) (alternative : IsArgument e)
    (doneCondition : book.answerCalls c = .ok c') (doneConsequent : book.answerCalls t = .ok t')
    (doneAlternative : book.answerCalls e = .ok e')
    (done : book.answerCalls (frame.tokens c t e) = .ok (frame.tokens c' t' e')) {v : Value}
    (decided : book.evaluate c = .ok v) :
    book.evaluate (frame.tokens c t e) = book.evaluate (if v.isTruthy then t else e) := by
  have none := (answerCalls_preserves (P := fun _ => True) (fun _ _ _ _ _ _ => trivial) done
    trivial).2
  have conditional := frame.evaluate book (condition.answered doneCondition)
    (consequent.answered doneConsequent) (alternative.answered doneAlternative) none
  rw [evaluate_of_answerCalls doneCondition] at decided
  have chosen : book.evaluate (frame.tokens c' t' e') =
      if v.isTruthy then book.evaluate t' else book.evaluate e' := by
    rw [conditional, decided]
    rfl
  rw [evaluate_of_answerCalls done, chosen]
  cases v.isTruthy with
  | true => exact (evaluate_of_answerCalls doneConsequent).symm
  | false => exact (evaluate_of_answerCalls doneAlternative).symm

theorem branch_fails {book : RuleBook} {c t e : List Token} {v : Value}
    (decided : book.evaluate c = .ok v) {error : FormulaError}
    (either : book.answerCalls c = .error error ∨ book.answerCalls t = .error error ∨
      book.answerCalls e = .error error) :
    book.answerCalls (if v.isTruthy then t else e) = .error error ∨
      book.answerCalls (if v.isTruthy then e else t) = .error error := by
  rcases either with inCondition | inConsequent | inAlternative
  · obtain ⟨answered, done, _⟩ := answerCalls_of_evaluate decided
    rw [done] at inCondition
    cases inCondition
  · cases v.isTruthy with
    | true => exact .inl inConsequent
    | false => exact .inr inConsequent
  · cases v.isTruthy with
    | true => exact .inr inAlternative
    | false => exact .inl inAlternative

/-- A conditional whose condition has a value evaluates to what the chosen branch does, unless
    calls of registered functions in the other branch fail. Then it fails too, and only with the
    error of the chosen branch if that comes first. -/
theorem evaluate_conditional (book : RuleBook) (others : ∀ d ∈ book.custom, d.name.text ≠ "if")
    (frame : Conditional) {c t e : List Token} (condition : IsArgument c)
    (consequent : IsArgument t) (alternative : IsArgument e) {v : Value}
    (decided : book.evaluate c = .ok v) :
    let chosen := if v.isTruthy then t else e
    let other := if v.isTruthy then e else t
    let whole := frame.tokens c t e
    (book.evaluate whole = book.evaluate chosen ↔
      (∃ answered, book.answerCalls other = .ok answered) ∨
        ∃ error, book.answerCalls whole = .error error ∧ book.evaluate chosen = .error error) ∧
    ∀ error, book.answerCalls other = .error error →
      ∃ error', book.answerCalls whole = .error error' ∧ book.evaluate whole = .error error' := by
  intro chosen other whole
  rcases frame.answered others condition consequent alternative with
    ⟨c', t', e', doneCondition, doneConsequent, doneAlternative, done⟩ | ⟨error, failed, either⟩
  · have same : book.evaluate whole = book.evaluate chosen :=
      evaluate_answered condition consequent alternative doneCondition
        doneConsequent doneAlternative done decided
    have answered : ∃ answered, book.answerCalls other = .ok answered := by
      unfold other
      split
      · exact ⟨e', doneAlternative⟩
      · exact ⟨t', doneConsequent⟩
    constructor
    · exact ⟨fun _ => .inl answered, fun _ => same⟩
    · intro error impossible
      obtain ⟨rest, done⟩ := answered
      rw [done] at impossible
      cases impossible
  · have fails : book.evaluate whole = .error error := evaluate_of_answerCalls_error failed
    have branch := branch_fails decided either
    refine ⟨?_, fun _ _ => ⟨error, failed, fails⟩⟩
    constructor
    · intro same
      exact .inr ⟨error, failed, same ▸ fails⟩
    · rintro (⟨answered, done⟩ | ⟨known, failedToo, chosenFails⟩)
      · rcases branch with inChosen | inOther
        · rw [fails, evaluate_of_answerCalls_error inChosen]
        · rw [done] at inOther
          cases inOther
      · rw [fails, chosenFails]
        have same := failed.symm.trans failedToo
        cases same
        rfl

/-- `if(true, 1, 1 / 0)`: the branch that is not chosen would fail, and is not evaluated. -/
theorem evaluate_conditional_plain :
    let book := core.register .failing
    let c := [Token.data (.logical true)]
    let t := [Token.data (.integer 1)]
    let e := [Token.data (.integer 1), .operator .divide, .data (.integer 0)]
    (∀ d ∈ book.custom, d.name.text ≠ "if") ∧ IsArgument c ∧ IsArgument t ∧ IsArgument e ∧
      book.evaluate c = .ok (.logical true) ∧ book.evaluate e = .error .divisionByZero ∧
      book.evaluate (Conditional.plain.tokens c t e) = .ok (.integer 1) := by
  intro book c t e
  have others : ∀ d ∈ book.custom, d.name.text ≠ "if" := by decide
  have arguments : IsArgument c ∧ IsArgument t ∧ IsArgument e := by decide
  have decided : book.evaluate c = .ok (.logical true) := book.evaluate_short (Nat.le_refl 1)
  have chosen : book.evaluate t = .ok (.integer 1) := book.evaluate_short (Nat.le_refl 1)
  have fails : book.evaluate e = .error .divisionByZero := by
    have found : book.find? e =
        some ⟨12, ⟨"math_mul", [.numeric, .multiplyDivide, .numeric], .apply⟩, ⟨0, 3⟩⟩ := rfl
    rw [book.evaluate_step (by decide) found]
    rfl
  have answered : book.answerCalls e = .ok e := answerCalls_none rfl
  have lazy := evaluate_conditional book others .plain arguments.1 arguments.2.1 arguments.2.2
    decided
  exact ⟨others, arguments.1, arguments.2.1, arguments.2.2, decided, fails,
    (lazy.1.mpr (.inl ⟨e, answered⟩)).trans chosen⟩

/-- `if(true, 1, fail(1))`: the call in the branch that is not chosen fails first. -/
theorem conditional_not_lazy :
    let book := core.register .failing
    let c := [Token.data (.logical true)]
    let t := [Token.data (.integer 1)]
    let e := [⟨.symbol (.function (.mk "fail")), 0⟩, .grouping .callOpening, .data (.integer 1),
      .grouping .closing]
    (∀ d ∈ book.custom, d.name.text ≠ "if") ∧ IsArgument c ∧ IsArgument t ∧ IsArgument e ∧
      book.evaluate c = .ok (.logical true) ∧ book.evaluate t = .ok (.integer 1) ∧
      book.evaluate (Conditional.plain.tokens c t e) =
        .error (.badArgument (.other "boom")) := by
  intro book c t e
  have others : ∀ d ∈ book.custom, d.name.text ≠ "if" := by decide
  have arguments : IsArgument c ∧ IsArgument t ∧ IsArgument e := by decide
  have decided : book.evaluate c = .ok (.logical true) := book.evaluate_short (Nat.le_refl 1)
  have chosen : book.evaluate t = .ok (.integer 1) := book.evaluate_short (Nat.le_refl 1)
  have found : book.find? (Conditional.plain.tokens c t e) =
      some ⟨0, Definition.failing.rule, ⟨6, 4⟩⟩ := rfl
  have asked : Action.plan .call (Stretch.select ⟨6, 4⟩ (Conditional.plain.tokens c t e)) =
      .request (.call (.mk "fail") [t]) := rfl
  have called : book.replacement (.request (.call (.mk "fail") [t])) =
      .error (.badArgument (.other "boom")) := by
    simp only [replacement, Request.result, List.mapM_cons, List.mapM_nil, chosen]
    rfl
  have failed : book.rewrite (Conditional.plain.tokens c t e)
      ⟨0, Definition.failing.rule, ⟨6, 4⟩⟩ = .error (.badArgument (.other "boom")) := by
    rw [rewrite]
    simp only [Definition.rule, asked, called]
    rfl
  refine ⟨others, arguments.1, arguments.2.1, arguments.2.2, decided, chosen, ?_⟩
  rw [book.evaluate_step (by decide) found, failed]
  rfl

end RuleBook

end Formulary
