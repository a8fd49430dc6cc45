import Formulary.Proofs.StepBound

/-!
What a limit on steps does to a run. A run that has room for all its steps goes as it would without
a limit; any other ends with the first step beyond, and up to there it is the same run.
-/
namespace Formulary

variable {α β : Type}

/-- From any point on, the run takes `n` steps to `outcome` if there is no limit. It does the same
    under a limit that leaves room for all of them, or if it takes none. Under any other limit it
    ends with the first step that is one too many, and has noted what it would have noted first. -/
structure Metered (r : (limit : Option Nat) → Run α) (outcome : Outcome α) (n : Nat) : Prop where
  ends : ∀ p, ((r none).run p).1 = outcome
  counts : ∀ p, ((r none).run p).2.steps = p.steps + n
  notes : ∀ p, p.notes <:+ ((r none).run p).2.notes
  within : ∀ p limit, n = 0 ∨ p.steps + n ≤ limit → (r (some limit)).run p = (r none).run p
  beyond : ∀ p limit, n ≠ 0 → limit < p.steps + n →
    ((r (some limit)).run p).1 = .error (.stepLimit limit) ∧
      ((r (some limit)).run p).2.steps = max p.steps limit + 1 ∧
      ((r (some limit)).run p).2.notes <:+ ((r none).run p).2.notes

theorem Run.run_bind_ok {r : Run α} (f : α → Run β) {p : Progress} {a : α}
    (done : (r.run p).1 = .ok a) : (r >>= f).run p = (f a).run (r.run p).2 := by
  have ran : r.run p = (.ok a, (r.run p).2) := Prod.ext done rfl
  rw [run_bind, ran]

theorem Run.run_bind_error {r : Run α} (f : α → Run β) {p : Progress} {e : FormulaError}
    (failed : (r.run p).1 = .error e) : (r >>= f).run p = (.error e, (r.run p).2) := by
  have ran : r.run p = (.error e, (r.run p).2) := Prod.ext failed rfl
  rw [run_bind, ran]

namespace Metered

theorem still {r : Run α} {outcome : Outcome α} (same : ∀ p, r.run p = (outcome, p)) :
    Metered (fun _ => r) outcome 0 where
  ends p := by rw [same p]
  counts p := by rw [same p]; rfl
  notes p := (same p).symm ▸ List.suffix_refl p.notes
  within _ _ _ := rfl
  beyond _ _ some := absurd rfl some

theorem bind_error {r : Option Nat → Run α} {f : α → Option Nat → Run β} {e : FormulaError}
    {n : Nat} (first : Metered r (.error e) n) :
    Metered (fun limit => r limit >>= fun a => f a limit) (.error e) n := by
  have free (p : Progress) := Run.run_bind_error (fun a => f a none) (first.ends p)
  refine ⟨fun p => ?_, fun p => ?_, fun p => ?_, fun p limit room => ?_,
    fun p limit some full => ?_⟩
  · rw [free p]
  · rw [free p]
    exact first.counts p
  · rw [free p]
    exact first.notes p
  · have same := first.within p limit room
    rw [free p, Run.run_bind_error _ (same ▸ first.ends p), same]
  · obtain ⟨ended, counted, noted⟩ := first.beyond p limit some full
    rw [free p, Run.run_bind_error _ ended]
    exact ⟨rfl, counted, noted⟩

theorem bind_ok {r : Option Nat → Run α} {f : α → Option Nat → Run β} {a : α} {outcome : Outcome β}
    {m n : Nat} (first : Metered r (.ok a) m) (next : Metered (f a) outcome n) :
    Metered (fun limit => r limit >>= fun a => f a limit) outcome (m + n) := by
  have free (p : Progress) := Run.run_bind_ok (fun a => f a none) (first.ends p)
  have middle := first.counts
  refine ⟨fun p => ?_, fun p => ?_, fun p => ?_, fun p limit room => ?_,
    fun p limit some full => ?_⟩
  · rw [free p]
    exact next.ends _
  · rw [free p, next.counts, middle p]
    omega
  · rw [free p]
    exact (first.notes p).trans (next.notes _)
  · have same := first.within p limit (by omega)
    rw [free p, Run.run_bind_ok _ (same ▸ first.ends p), same]
    exact next.within _ limit (by rw [middle p]; omega)
  · by_cases cut : m ≠ 0 ∧ limit < p.steps + m
    · obtain ⟨ended, counted, noted⟩ := first.beyond p limit cut.1 cut.2
      rw [free p, Run.run_bind_error _ ended]
      exact ⟨rfl, counted, noted.trans (next.notes _)⟩
    · have same := first.within p limit (by omega)
      rw [free p, Run.run_bind_ok _ (same ▸ first.ends p), same]
      have later := next.beyond ((r none).run p).2 limit (by omega) (by rw [middle p]; omega)
      rw [middle p] at later
      obtain ⟨ended, counted, noted⟩ := later
      exact ⟨ended, by rw [counted]; omega, noted⟩

theorem beginStep (book : RuleBook) (rule : Rule) (matched : List Token) :
    Metered (fun limit => Evaluator.beginStep ⟨book, limit⟩ rule matched) (.ok ()) 1 := by
  refine ⟨fun _ => rfl, fun _ => rfl, fun p => List.suffix_cons _ p.notes, ?_, ?_⟩
  · intro p limit room
    have fits : (some limit).filter (· < p.steps + 1) = none := by
      rw [Option.filter_some, if_neg (by simp only [decide_eq_true_eq]; omega)]
    rw [Evaluator.run_beginStep, Evaluator.run_beginStep, fits]
    rfl
  · intro p limit _ full
    have exceeds : (some limit).filter (· < p.steps + 1) = some limit := by
      rw [Option.filter_some, if_pos (by simp only [decide_eq_true_eq]; omega)]
    rw [Evaluator.run_beginStep, Evaluator.run_beginStep, exceeds]
    exact ⟨rfl, by dsimp only; omega, List.suffix_cons _ p.notes⟩

theorem outcome_or_limit {r : Option Nat → Run α} {outcome : Outcome α} {n : Nat}
    (metered : Metered r outcome n) (limit : Option Nat) (p : Progress) :
    ((r limit).run p).1 = outcome ∨
      ∃ l, limit = some l ∧ ((r limit).run p).1 = .error (.stepLimit l) := by
  cases limit with
  | none => exact .inl (metered.ends p)
  | some l =>
    by_cases room : n = 0 ∨ p.steps + n ≤ l
    · exact .inl (metered.within p l room ▸ metered.ends p)
    · exact .inr ⟨l, rfl, (metered.beyond p l (by omega) (by omega)).1⟩

end Metered

def Meters (r : (limit : Option Nat) → Run α) : Prop := ∃ outcome n, Metered r outcome n

namespace Meters

theorem pure (a : α) : Meters fun _ => Pure.pure a := ⟨.ok a, 0, .still fun _ => rfl⟩

theorem ofOutcome (outcome : Outcome α) : Meters fun _ => Run.ofOutcome outcome :=
  ⟨outcome, 0, .still fun _ => rfl⟩

theorem bind {r : Option Nat → Run α} {f : α → Option Nat → Run β} (first : Meters r)
    (next : ∀ a p q, (r none).run p = (.ok a, q) → Meters (f a)) :
    Meters fun limit => r limit >>= fun a => f a limit := by
  obtain ⟨outcome, m, metered⟩ := first
  cases outcome with
  | error e => exact ⟨.error e, m, metered.bind_error⟩
  | ok a =>
    obtain ⟨outcome, n, later⟩ := next a {} _ (Prod.ext (metered.ends {}) rfl)
    exact ⟨outcome, m + n, metered.bind_ok later⟩

theorem mapM {run : List Token → Option Nat → Run α} {spans : List (List Token)}
    (each : ∀ span ∈ spans, Meters (run span)) :
    Meters fun limit => spans.mapM fun span => run span limit := by
  induction spans with
  | nil => exact pure []
  | cons span spans ih =>
    have rest := ih fun other member => each other (List.mem_cons_of_mem span member)
    have first := each span List.mem_cons_self
    simp only [List.mapM_cons]
    exact first.bind fun v _ _ _ => rest.bind fun vs _ _ _ => pure (v :: vs)

theorem answer (book : RuleBook) {request : Request} {run : List Token → Option Nat → Run Value}
    (each : ∀ span ∈ request.spans, Meters (run span)) :
    Meters fun limit => request.answer book fun span _ => run span limit := by
  cases request with
  | choose condition consequent alternative =>
    refine (each condition (by simp [Request.spans])).bind fun v _ _ _ => ?_
    cases v.isTruthy with
    | true => exact each consequent (by simp [Request.spans])
    | false => exact each alternative (by simp [Request.spans])
  | call name arguments =>
    have plain (limit : Option Nat) :=
      Request.attach_mapM arguments fun span => run span limit
    simp only [Request.answer, plain]
    have spans : ∀ span ∈ arguments, Meters (run span) := each
    exact (mapM spans).bind fun _ _ _ _ => ofOutcome _
  | invert span =>
    exact (each span List.mem_cons_self).bind fun v _ _ _ => pure (Value.logical !v.isTruthy)
  | evaluate span => exact each span List.mem_cons_self

theorem replacement (book : RuleBook) {plan : Plan}
    (each : ∀ span ∈ plan.spans, Meters fun limit => Evaluator.evaluate ⟨book, limit⟩ span) :
    Meters fun limit => Evaluator.replacement ⟨book, limit⟩ plan := by
  cases plan with
  | value outcome => exact (ofOutcome outcome).bind fun _ _ _ _ => pure _
  | tokens replacement => exact pure replacement
  | request request => exact (answer book each).bind fun _ _ _ _ => pure _

theorem reduce (book : RuleBook) (tokens : List Token) :
    Meters fun limit => Evaluator.reduce ⟨book, limit⟩ tokens := by
  -- By induction on the weight: the step itself is metered, and so are the spans it looks into and
  -- what follows it, which are lighter.
  induction size : weight tokens using Nat.strongRecOn generalizing tokens with
  | ind n ih =>
    by_cases short : tokens.length ≤ 1
    · simp only [Evaluator.reduce_short _ short]
      exact pure _
    · cases found : book.find? tokens with
      | none =>
        simp only [fun limit => Evaluator.reduce_stuck ⟨book, limit⟩ short found]
        exact ofOutcome (.error _)
      | some m =>
        simp only [fun limit => Evaluator.reduce_step ⟨book, limit⟩ short found]
        have spans : ∀ span ∈ (m.rule.action.plan (m.stretch.select tokens)).spans,
            Meters fun limit => Evaluator.evaluate ⟨book, limit⟩ span := by
          intro span member
          have inner := ih _ (size ▸ RuleBook.span_lighter found member) span rfl
          exact inner.bind fun _ _ _ _ => ofOutcome _
        have begun : Meters fun limit =>
            Evaluator.beginStep ⟨book, limit⟩ m.rule (m.stretch.select tokens) :=
          ⟨_, _, .beginStep book m.rule _⟩
        refine begun.bind fun _ _ _ _ => (replacement book spans).bind fun after p q ran => ?_
        have pays := RuleBook.step_pays found (Evaluator.yields_of_replacement ran)
        exact ih _ (by omega) _ rfl

end Meters

namespace RuleBook

/-- A limit either changes nothing, or is what the evaluation fails with. -/
theorem evaluate_or_limit (book : RuleBook) (tokens : List Token) (limit : Option Nat)
    (p : Progress) :
    ((Evaluator.evaluate ⟨book, limit⟩ tokens).run p).1 = book.evaluate tokens ∨
      ∃ l, limit = some l ∧
        ((Evaluator.evaluate ⟨book, limit⟩ tokens).run p).1 = .error (.stepLimit l) := by
  have meters : Meters fun limit => Evaluator.evaluate ⟨book, limit⟩ tokens :=
    (Meters.reduce book tokens).bind fun t _ _ _ => .ofOutcome t.toValue
  obtain ⟨outcome, n, metered⟩ := meters
  obtain rfl : book.evaluate tokens = outcome := metered.ends {}
  exact metered.outcome_or_limit limit p

/-- A limit on steps cuts a run, and never alters it. However the steps are spread over groups,
    arguments and branches, there is a number of them, the same from any point on: a limit with
    room for so many changes nothing, and any other limit stops the run at the first step beyond.
    A higher limit only changes what a limit has stopped. -/
theorem limit_only_cuts (book : RuleBook) (tokens : List Token) :
    (∃ n, Metered (fun limit => Evaluator.reduce ⟨book, limit⟩ tokens) (book.reduce tokens) n ∧
      Metered (fun limit => Evaluator.evaluate ⟨book, limit⟩ tokens) (book.evaluate tokens) n) ∧
    ∀ p low high, low ≤ high →
      ((Evaluator.evaluate ⟨book, some low⟩ tokens).run p).1 ≠ .error (.stepLimit low) →
      (Evaluator.evaluate ⟨book, some high⟩ tokens).run p =
        (Evaluator.evaluate ⟨book, some low⟩ tokens).run p := by
  obtain ⟨outcome, n, reduced⟩ := Meters.reduce book tokens
  obtain rfl : book.reduce tokens = outcome := reduced.ends {}
  have evaluated : Metered (fun limit => Evaluator.evaluate ⟨book, limit⟩ tokens)
      (book.evaluate tokens) n := by
    rw [book.evaluate_eq tokens]
    cases left : book.reduce tokens with
    | error e => exact (left ▸ reduced).bind_error
    | ok t =>
      have value : Metered (fun _ => Run.ofOutcome t.toValue) t.toValue 0 := .still fun _ => rfl
      exact (left ▸ reduced).bind_ok (f := fun (t : Token) _ => Run.ofOutcome t.toValue) value
  refine ⟨⟨n, reduced, evaluated⟩, ?_⟩
  intro p low high le kept
  have room : n = 0 ∨ p.steps + n ≤ low := Decidable.byContradiction fun full =>
    kept (evaluated.beyond p low (by omega) (by omega)).1
  rw [evaluated.within p low room, evaluated.within p high (by omega)]

/-- A single sum, where the count of steps already stands at five. -/
theorem limit_only_cuts_sum :
    let tokens := [Token.data (.integer 1), .operator .add, .data (.integer 2)]
    6 ≤ 7 ∧ ((Evaluator.evaluate ⟨core, some 6⟩ tokens).run ⟨5, []⟩).1 ≠ .error (.stepLimit 6) ∧
      (Evaluator.evaluate ⟨core, some 7⟩ tokens).run ⟨5, []⟩ =
        (Evaluator.evaluate ⟨core, some 6⟩ tokens).run ⟨5, []⟩ := by
  intro tokens
  have found : core.find? tokens = some ⟨13, ⟨"math_add", [.numeric, .addSubtract, .numeric],
    .apply⟩, ⟨0, 3⟩⟩ := rfl
  have planned : Action.plan .apply (Stretch.select ⟨0, 3⟩ tokens) =
    .value (.ok (.integer 3)) := rfl
  have known : Run.ofOutcome (.ok (.integer 3)) = (pure (.integer 3) : Run Value) := rfl
  have added : ((Evaluator.evaluate ⟨core, some 6⟩ tokens).run ⟨5, []⟩).1 = .ok (.integer 3) := by
    rw [Evaluator.evaluate, Evaluator.reduce_step _ (by decide) found]
    simp only [planned, Evaluator.replacement, known, pure_bind, bind_assoc]
    rw [Evaluator.reduce_short _ (by decide)]
    rfl
  have kept : ((Evaluator.evaluate ⟨core, some 6⟩ tokens).run ⟨5, []⟩).1 ≠
      .error (.stepLimit 6) := by
    rw [added]
    simp
  exact ⟨by decide, kept, (limit_only_cuts core tokens).2 ⟨5, []⟩ 6 7 (by decide) kept⟩

end RuleBook

end Formulary
