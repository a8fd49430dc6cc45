import Formulary.Proofs.CallOrder

/-!
Functions of different names may be registered in any order. Their rules come in another order then,
and calls are answered in another, but what the tokens evaluate to is the same.
-/
namespace Formulary

namespace RuleBook

variable {book other : RuleBook} {tokens : List Token}

/-- The same functions, with their rules in some order. -/
structure Alike (book other : RuleBook) : Prop where
  custom : ∀ d, d ∈ book.custom ↔ d ∈ other.custom
  call : book.call = other.call

theorem found_of_uncalled (uncalled : book.findCall? tokens = none) :
    (book.find? tokens).map RuleMatch.found = firstRule? coreRules tokens := by
  have nowhere : firstRule? (book.custom.map Definition.rule) tokens = none := by
    unfold firstRule?
    rw [List.findSome?_map, List.findSome?_eq_none_iff]
    intro d member
    simp [Definition.rule, findCall?_eq_none_iff.mp uncalled d member]
  rw [found_find?]
  unfold rules
  rw [firstRule?_append, nowhere, Option.none_or]

namespace Alike

variable (alike : book.Alike other)

include alike

theorem uncalled (here : book.findCall? tokens = none) : other.findCall? tokens = none := by
  apply findCall?_eq_none_iff.mpr
  intro d member
  exact findCall?_eq_none_iff.mp here d ((alike.custom d).mpr member)

theorem callValue? (name : Name) {arguments : List (List Token)}
    (same : ∀ span ∈ arguments, book.value? span = other.value? span) :
    book.callValue? name arguments = other.callValue? name arguments := by
  unfold RuleBook.callValue?
  rw [mapM_congr same, alike.call]

theorem result {request : Request}
    (same : ∀ span ∈ request.spans, book.value? span = other.value? span) :
    (request.result book book.evaluate).toOption =
      (request.result other other.evaluate).toOption := by
  cases request with
  | choose condition consequent alternative =>
    have first := same condition (by simp [Request.spans])
    have second := same consequent (by simp [Request.spans])
    have third := same alternative (by simp [Request.spans])
    unfold value? at first second third
    simp only [Request.result, toOption_bind, first]
    congr 1
    funext v
    cases v.isTruthy with
    | true => exact second
    | false => exact third
  | call name arguments =>
    have called := alike.callValue? name same
    rw [callValue?_eq, callValue?_eq] at called
    exact called
  | invert span =>
    have inner := same span (by simp [Request.spans])
    unfold value? at inner
    simp only [Request.result, toOption_bind, inner]
  | evaluate span => exact same span (by simp [Request.spans])

theorem rewrite {m m' : RuleMatch} (rule : m'.rule = m.rule) (stretch : m'.stretch = m.stretch)
    (same : ∀ span ∈ (m.rule.action.plan (m.stretch.select tokens)).spans,
      book.value? span = other.value? span) :
    (book.rewrite tokens m).toOption = (other.rewrite tokens m').toOption := by
  unfold RuleBook.rewrite
  rw [rule, stretch, toOption_bind, toOption_bind]
  congr 1
  cases planned : m.rule.action.plan (m.stretch.select tokens) with
  | value outcome => rfl
  | tokens replacement => rfl
  | request request =>
    rw [planned] at same
    simp only [replacement, toOption_bind, alike.result same]

theorem value? (tokens : List Token) : book.value? tokens = other.value? tokens := by
  -- By induction on the weight. If a function is called, both books may begin with that call; if
  -- none is, they find the same rule.
  induction size : weight tokens using Nat.strongRecOn generalizing tokens with
  | ind n ih =>
    cases calls : book.findCall? tokens with
    | some m =>
      obtain ⟨d, member, arguments, call, left, right, called, rfl, value⟩ :=
        value?_of_findCall? calls
      have answered : book.callValue? d.name arguments = other.callValue? d.name arguments := by
        apply alike.callValue?
        intro span inside
        exact ih _ (size ▸ called.argument_lighter inside left right) span rfl
      rw [value, value?_call ((alike.custom d).mp member) called]
      unfold valueAfter?
      rw [answered]
      congr 1
      funext v
      exact ih _ (size ▸ called.data_lighter v left right) _ rfl
    | none =>
      have found := (found_of_uncalled calls).trans (found_of_uncalled (alike.uncalled calls)).symm
      unfold RuleBook.value?
      by_cases short : tokens.length ≤ 1
      · rw [evaluate_short book short, evaluate_short other short]
      · cases next : book.find? tokens with
        | none =>
          rw [next] at found
          have stuck := Option.map_eq_none_iff.mp found.symm
          rw [evaluate_stuck book short next, evaluate_stuck other short stuck]
        | some m =>
          obtain ⟨m', next', rule, stretch⟩ := find?_of_found found next
          have same : (book.rewrite tokens m).toOption = (other.rewrite tokens m').toOption := by
            apply alike.rewrite rule stretch
            intro span member
            exact ih _ (size ▸ span_lighter next member) span rfl
          rw [evaluate_step book short next, evaluate_step other short next', toOption_bind,
            toOption_bind, ← same]
          cases rewritten : book.rewrite tokens m with
          | error e => rfl
          | ok after => exact ih _ (size ▸ rewrite_lighter next rewritten) after rfl

end Alike

theorem alike_registered (book : RuleBook) {d e : Definition} (apart : d.name ≠ e.name) :
    ((book.register d).register e).Alike ((book.register e).register d) where
  custom := by
    intro other
    have apart' : e.name ≠ d.name := apart.symm
    simp only [register, List.mem_cons, List.mem_filter, bne_iff_ne, ne_eq]
    constructor
    · rintro (rfl | ⟨rfl | ⟨member, notD⟩, notE⟩)
      · exact .inr ⟨.inl rfl, apart'⟩
      · exact .inl rfl
      · exact .inr ⟨.inr ⟨member, notE⟩, notD⟩
    · rintro (rfl | ⟨rfl | ⟨member, notE⟩, notD⟩)
      · exact .inr ⟨.inl rfl, apart⟩
      · exact .inl rfl
      · exact .inr ⟨.inr ⟨member, notD⟩, notE⟩
  call := by
    funext name values
    have same : ((book.register d).register e).function? name.text =
        ((book.register e).register d).function? name.text := by
      simp only [function?_register]
      by_cases isD : d.name = name
      · have notE : e.name ≠ name := isD ▸ apart.symm
        rw [if_neg notE, if_pos isD, if_pos isD]
      · rw [if_neg isD, if_neg isD]
    unfold call
    rw [same]

/-- Tokens evaluate to the same values whichever of two functions was registered first. -/
theorem registration_order (book : RuleBook) {d e : Definition} (apart : d.name ≠ e.name)
    (tokens : List Token) (v : Value) :
    ((book.register d).register e).evaluate tokens = .ok v ↔
      ((book.register e).register d).evaluate tokens = .ok v := by
  have same := (book.alike_registered apart).value? tokens
  have ok (outcome : Outcome Value) : outcome = .ok v ↔ outcome.toOption = some v := by
    cases outcome <;> simp [Except.toOption]
  rw [ok, ok]
  unfold value? at same
  rw [same]

/-- `outer(inner(2))`: the call inside is answered where it stands by the one book, and with the
    arguments of the call around it by the other. -/
theorem registration_order_nested :
    let first (values : List Value) : Outcome Value := .ok (values.headD .null)
    let inner : Definition := ⟨.mk "inner", .between 1 none, first⟩
    let outer : Definition := ⟨.mk "outer", .parameters ["x"], first⟩
    let tokens := [⟨.symbol (.function (.mk "outer")), 0⟩, Token.grouping .callOpening,
      ⟨.symbol (.function (.mk "inner")), 0⟩, .grouping .callOpening, .data (.integer 2),
      .grouping .closing, .grouping .closing]
    inner.name ≠ outer.name ∧
      ((core.register inner).register outer).evaluate tokens = .ok (.integer 2) ∧
      ((core.register outer).register inner).evaluate tokens = .ok (.integer 2) := by
  intro first inner outer tokens
  have apart : inner.name ≠ outer.name := by decide
  let book := (core.register inner).register outer
  have call (name : Name) (others : name.text ≠ "if" ∧ name.text ≠ "not") (span : List Token)
      (argument : IsArgument span) (value : book.evaluate span = .ok (.integer 2)) :
      book.evaluate (⟨.symbol (.function name), 0⟩ :: .grouping .callOpening ::
        (span ++ [.grouping .closing])) = book.call name [.integer 2] := by
    have spells : SpellsCall name [span] (⟨.symbol (.function name), 0⟩ ::
        .grouping .callOpening :: (span ++ [.grouping .closing])) := .mk rfl rfl rfl (.last span)
    have evaluated := evaluate_arguments book others spells (by simpa using argument)
    exact evaluated.1 [.integer 2] (mapM_eq_ok (.cons value .nil))
  have called (d : Definition) (known : book.custom.find? (·.name == d.name) = some d)
      (body : d.call [.integer 2] = .ok (.integer 2)) :
      book.call d.name [.integer 2] = .ok (.integer 2) := by
    rw [RuleBook.call, function?_eq, List.find?_append, known]
    exact body
  have two := book.evaluate_short (show [Token.data (.integer 2)].length ≤ 1 from Nat.le_refl 1)
  have inside := (call inner.name (by decide) [.data (.integer 2)] (by decide) two).trans
    (called inner rfl rfl)
  have value : book.evaluate tokens = .ok (.integer 2) :=
    (call outer.name (by decide) _ (by decide) inside).trans (called outer rfl rfl)
  exact ⟨apart, value, (registration_order core apart tokens (.integer 2)).mp value⟩

end RuleBook

end Formulary
