import Formulary.Proofs.Errors

/-!
How many steps evaluation takes. Without a limit it takes no more steps than the tokens weigh, in
groups, arguments and branches as well. A limit that leaves room for as many makes no difference.
-/
namespace Formulary

variable {α β : Type}

def comparators (tokens : List Token) : Nat := tokens.countP (·.category = .comparator)

theorem links_le_comparators (r : Row) (t : Token) : r.links t.mark ≤ comparators [t] := by
  by_cases compares : t.category = .comparator
  · have counted : comparators [t] = 1 := by simp [comparators, compares]
    have few : r.links t.mark ≤ 1 := by
      unfold Row.links
      repeat' split
      all_goals omega
    omega
  · have none : r.links t.mark = 0 := by
      unfold Token.mark
      split
      · rfl
      · split
        · rfl
        · cases category : t.category with
          | comparator => exact absurd category compares
          | _ => rfl
    omega

theorem chained_le_comparators (r : Row) (tokens : List Token) :
    chained r tokens ≤ comparators tokens := by
  induction tokens generalizing r with
  | nil => exact Nat.le_refl 0
  | cons t rest ih =>
    have here := links_le_comparators r t
    have there := ih (r.after t.mark)
    have whole : comparators ([t] ++ rest) = comparators [t] + comparators rest :=
      List.countP_append
    rw [List.singleton_append] at whole
    simp only [chained]
    omega

theorem weight_le (tokens : List Token) :
    weight tokens ≤ tokens.length + 3 * comparators tokens := by
  have links := chained_le_comparators .start tokens
  unfold weight
  omega

theorem Evaluator.run_beginStep (e : Evaluator) (rule : Rule) (matched : List Token)
    (p : Progress) : (e.beginStep rule matched).run p =
      match e.maxSteps.filter (· < p.steps + 1) with
      | some limit => (.error (.stepLimit limit), { p with steps := p.steps + 1 })
      | none => (.ok (), ⟨p.steps + 1, ⟨p.steps + 1, rule, matched⟩ :: p.notes⟩) := by
  have read : (get : Run Progress).run p = (.ok p, p) := rfl
  unfold beginStep
  rw [Run.run_bind, read]
  dsimp only
  cases e.maxSteps.filter (· < p.steps + 1) with
  | none => rfl
  | some limit => rfl

/-! Runs with and without a limit -/

/-- Without a limit the run takes at most `n` steps, and a limit that is no lower than the count
    of steps behind them makes no difference. -/
def Takes (r : (limit : Option Nat) → Run α) (n : Nat) : Prop :=
  ∀ p, p.steps ≤ ((r none).run p).2.steps ∧ ((r none).run p).2.steps ≤ p.steps + n ∧
    ∀ limit, ((r none).run p).2.steps ≤ limit → (r (some limit)).run p = (r none).run p

namespace Takes

theorem still {r : Run α} (same : ∀ p, (r.run p).2 = p) : Takes (fun _ => r) 0 := by
  intro p
  rw [same p]
  exact ⟨Nat.le_refl _, Nat.le_refl _, fun _ _ => rfl⟩

theorem pure (a : α) : Takes (fun _ => Pure.pure a) 0 := still fun _ => rfl

theorem ofOutcome (outcome : Outcome α) : Takes (fun _ => Run.ofOutcome outcome) 0 :=
  still fun _ => rfl

theorem mono {r : Option Nat → Run α} {m n : Nat} (takes : Takes r m) (le : m ≤ n) :
    Takes r n := by
  intro p
  obtain ⟨low, high, same⟩ := takes p
  exact ⟨low, by omega, same⟩

theorem bind {r : Option Nat → Run α} {f : α → Option Nat → Run β} {m n : Nat}
    (first : Takes r m) (next : ∀ a p q, (r none).run p = (.ok a, q) → Takes (f a) n) :
    Takes (fun limit => r limit >>= fun a => f a limit) (m + n) := by
  intro p
  obtain ⟨low, high, same⟩ := first p
  simp only [Run.run_bind]
  cases ran : (r none).run p with
  | mk outcome q =>
    rw [ran] at low high same
    cases outcome with
    | error e =>
      refine ⟨low, by dsimp only at high ⊢; omega, ?_⟩
      intro limit room
      rw [same limit room]
    | ok a =>
      obtain ⟨later, more, after⟩ := next a p q ran q
      dsimp only at low high same later more after ⊢
      refine ⟨by omega, by omega, ?_⟩
      intro limit room
      rw [same limit (by omega)]
      exact after limit room

theorem mapM {run : List Token → Option Nat → Run α} {cost : List Token → Nat}
    {spans : List (List Token)} (each : ∀ span ∈ spans, Takes (run span) (cost span)) :
    Takes (fun limit => spans.mapM fun span => run span limit) (spans.map cost).sum := by
  induction spans with
  | nil => exact pure []
  | cons span spans ih =>
    have rest := ih fun other member => each other (List.mem_cons_of_mem span member)
    have first := each span List.mem_cons_self
    simp only [List.mapM_cons, List.map_cons, List.sum_cons]
    exact first.bind fun v _ _ _ => rest.bind (n := 0) fun vs _ _ _ => pure (v :: vs)

theorem answer (book : RuleBook) {request : Request} {run : List Token → Option Nat → Run Value}
    {cost : List Token → Nat} (each : ∀ span ∈ request.spans, Takes (run span) (cost span)) :
    Takes (fun limit => request.answer book fun span _ => run span limit)
      (request.spans.map cost).sum := by
  cases request with
  | choose condition consequent alternative =>
    have first := each condition (by simp [Request.spans])
    have branch (v : Value) : Takes
        (fun limit => if v.isTruthy then run consequent limit else run alternative limit)
        (cost consequent + cost alternative) := by
      cases v.isTruthy with
      | true => exact (each consequent (by simp [Request.spans])).mono (by omega)
      | false => exact (each alternative (by simp [Request.spans])).mono (by omega)
    exact (first.bind fun v _ _ _ => branch v).mono (by simp [Request.spans])
  | call name arguments =>
    have plain (limit : Option Nat) :=
      Request.attach_mapM arguments fun span => run span limit
    simp only [Request.answer, plain]
    have values : ∀ span ∈ arguments, Takes (run span) (cost span) := each
    exact (mapM values).bind (n := 0) fun _ _ _ _ => ofOutcome _
  | invert span =>
    have first := each span List.mem_cons_self
    exact first.bind (n := 0) fun v _ _ _ => pure (Value.logical !v.isTruthy)
  | evaluate span =>
    have first := each span List.mem_cons_self
    exact first.mono (by simp [Request.spans])

theorem replacement (book : RuleBook) {plan : Plan} {cost : List Token → Nat}
    (each : ∀ span ∈ plan.spans,
      Takes (fun limit => Evaluator.evaluate ⟨book, limit⟩ span) (cost span)) :
    Takes (fun limit => Evaluator.replacement ⟨book, limit⟩ plan) (plan.spans.map cost).sum := by
  cases plan with
  | value outcome => exact (ofOutcome outcome).bind (n := 0) fun _ _ _ _ => pure _
  | tokens replacement => exact pure replacement
  | request request => exact (answer book each).bind (n := 0) fun _ _ _ _ => pure _

theorem beginStep (book : RuleBook) (rule : Rule) (matched : List Token) :
    Takes (fun limit => Evaluator.beginStep ⟨book, limit⟩ rule matched) 1 := by
  intro p
  refine ⟨Nat.le_succ _, Nat.le_refl _, ?_⟩
  intro limit room
  have enough : p.steps + 1 ≤ limit := room
  have below : ¬ limit < p.steps + 1 := Nat.not_lt.mpr enough
  have within : (some limit).filter (· < p.steps + 1) = none := by
    rw [Option.filter_some, if_neg (by simpa only [decide_eq_true_eq] using below)]
  rw [Evaluator.run_beginStep, Evaluator.run_beginStep, within]
  rfl

theorem reduce (book : RuleBook) (tokens : List Token) :
    Takes (fun limit => Evaluator.reduce ⟨book, limit⟩ tokens) (weight tokens) := by
  -- By induction on the weight, which pays for each step and for the spans it looks into.
  induction size : weight tokens using Nat.strongRecOn generalizing tokens with
  | ind n ih =>
    by_cases short : tokens.length ≤ 1
    · simp only [Evaluator.reduce_short _ short]
      exact (pure _).mono (Nat.zero_le n)
    · cases found : book.find? tokens with
      | none =>
        simp only [fun limit => Evaluator.reduce_stuck ⟨book, limit⟩ short found]
        exact (ofOutcome (.error _)).mono (Nat.zero_le n)
      | some m =>
        simp only [fun limit => Evaluator.reduce_step ⟨book, limit⟩ short found]
        have spans : ∀ span ∈ (m.rule.action.plan (m.stretch.select tokens)).spans,
            Takes (fun limit => Evaluator.evaluate ⟨book, limit⟩ span) (weight span) := by
          intro span member
          have inner := ih _ (size ▸ RuleBook.span_lighter found member) span rfl
          exact inner.bind (n := 0) fun _ _ _ _ => ofOutcome _
        have replaced := replacement book spans
        have room := RuleBook.spans_weight_lt found
        have rest (after : List Token) (p q : Progress)
            (ran : (book.unlimited.replacement
              (m.rule.action.plan (m.stretch.select tokens))).run p = (.ok after, q)) :
            Takes (fun limit => Evaluator.reduce ⟨book, limit⟩ (m.stretch.splice tokens after))
              (n - 1 - ((m.rule.action.plan (m.stretch.select tokens)).spans.map weight).sum) := by
          have pays := RuleBook.step_pays found (Evaluator.yields_of_replacement ran)
          exact (ih _ (by omega) _ rfl).mono (by omega)
        have step := (beginStep book m.rule (m.stretch.select tokens)).bind fun _ _ _ _ =>
          replaced.bind rest
        exact step.mono (by omega)

end Takes

namespace RuleBook

theorem takes_evaluate (book : RuleBook) (tokens : List Token) :
    Takes (fun limit => Evaluator.evaluate ⟨book, limit⟩ tokens) (weight tokens) :=
  (Takes.reduce book tokens).bind (n := 0) fun t _ _ _ => .ofOutcome t.toValue

/-- From any point on, without a limit, no more steps are taken than there are tokens and three
    times the comparators among them. An evaluation with a limit no lower than that goes as the
    one without and stays within it, so that only a registered function can speak of a limit. -/
theorem steps_linear (book : RuleBook) (tokens : List Token) :
    (∀ p, ((book.unlimited.reduce tokens).run p).2.steps ≤
      p.steps + (tokens.length + 3 * comparators tokens)) ∧
    ∀ limit, tokens.length + 3 * comparators tokens ≤ limit →
      (Evaluator.reduce ⟨book, some limit⟩ tokens).run {} =
        (book.unlimited.reduce tokens).run {} ∧
      (Evaluator.evaluate ⟨book, some limit⟩ tokens).run {} =
        (book.unlimited.evaluate tokens).run {} ∧
      ((Evaluator.reduce ⟨book, some limit⟩ tokens).run {}).2.steps ≤ limit ∧
      ∀ bound, ¬ book.Reports (.stepLimit bound) →
        (Evaluator.reduce ⟨book, some limit⟩ tokens).outcome ≠ .error (.stepLimit bound) ∧
        (Evaluator.evaluate ⟨book, some limit⟩ tokens).outcome ≠ .error (.stepLimit bound) := by
  have few := weight_le tokens
  have start : ({} : Progress).steps = 0 := rfl
  have bounded (p : Progress) :
      ((book.unlimited.reduce tokens).run p).2.steps ≤ p.steps + weight tokens := by
    obtain ⟨_, high, _⟩ := Takes.reduce book tokens p
    exact high
  constructor
  · intro p
    have := bounded p
    omega
  · intro limit enough
    have same {α : Type} {r : Option Nat → Run α} (takes : Takes r (weight tokens)) :
        (r (some limit)).run {} = (r none).run {} := by
      obtain ⟨_, high, agree⟩ := takes {}
      exact agree limit (by omega)
    have reduced := same (Takes.reduce book tokens)
    have evaluated := same (book.takes_evaluate tokens)
    have within : ((Evaluator.reduce ⟨book, some limit⟩ tokens).run {}).2.steps ≤ limit := by
      have := bounded {}
      rw [reduced]
      exact Nat.le_trans this (by omega)
    refine ⟨reduced, evaluated, within, ?_⟩
    intro bound silent
    have impossible (possible : book.CanFail (.stepLimit bound)) : False := by
      rcases possible with own | reported
      · exact own
      · exact silent reported
    constructor
    · intro failed
      unfold Run.outcome at failed
      rw [reduced] at failed
      exact impossible (book.failsIn_reduce tokens _ failed)
    · intro failed
      unfold Run.outcome at failed
      rw [evaluated] at failed
      exact impossible (book.failsIn_evaluate tokens _ failed)

/-- One comparison chained to another, with the core rules. -/
theorem steps_linear_chain :
    let sign := Token.comparator .less
    let tokens := [.data (.integer 1), sign, .data (.integer 2), sign, .data (.integer 3)]
    tokens.length + 3 * comparators tokens ≤ 11 ∧ ¬ core.Reports (.stepLimit 11) ∧
      ((core.unlimited.reduce tokens).run {}).2.steps ≤ 0 + 11 ∧
      (Evaluator.reduce ⟨core, some 11⟩ tokens).outcome ≠ .error (.stepLimit 11) := by
  intro sign tokens
  have enough : tokens.length + 3 * comparators tokens ≤ 11 := by decide
  have silent : ¬ core.Reports (.stepLimit 11) := by
    rintro ⟨d, member, _⟩
    cases member
  obtain ⟨few, limited⟩ := steps_linear core tokens
  exact ⟨enough, silent, few {}, ((limited 11 enough).2.2.2 11 silent).1⟩

end RuleBook

end Formulary
