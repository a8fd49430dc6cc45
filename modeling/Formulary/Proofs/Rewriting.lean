import Formulary.Evaluation
import Formulary.Proofs.Cost

/-!
Evaluation as a sequence of rewriting steps. Without a limit on steps the outcome depends on the
tokens alone: it is what the steps make of them, one after the other.
-/
namespace Formulary

variable {α β : Type}

theorem bind_eq_ok {ε : Type} {outcome : Except ε α} {f : α → Except ε β} {b : β} :
    outcome >>= f = .ok b ↔ ∃ a, outcome = .ok a ∧ f a = .ok b := by
  cases outcome with
  | error e =>
    constructor
    · intro impossible
      cases impossible
    · rintro ⟨_, impossible, _⟩
      cases impossible
  | ok a =>
    constructor
    · exact fun done => ⟨a, rfl, done⟩
    · rintro ⟨_, same, done⟩
      cases same
      exact done

theorem bind_eq_error {ε : Type} {outcome : Except ε α} {f : α → Except ε β} {e : ε} :
    outcome >>= f = .error e ↔ outcome = .error e ∨ ∃ a, outcome = .ok a ∧ f a = .error e := by
  cases outcome with
  | error other => simp [bind, Except.bind]
  | ok a => simp [bind, Except.bind]

theorem toOption_bind (outcome : Outcome α) (f : α → Outcome β) :
    (outcome >>= f).toOption = outcome.toOption.bind fun a => (f a).toOption := by
  cases outcome <;> rfl

namespace Run

theorem run_bind (r : Run α) (f : α → Run β) (p : Progress) :
    (r >>= f).run p =
      match r.run p with
      | (.ok a, q) => (f a).run q
      | (.error e, q) => (.error e, q) := by
  unfold ExceptT.run
  simp only [bind, ExceptT.bind, ExceptT.mk, StateT.bind, ExceptT.bindCont]
  cases r p with
  | mk outcome q => cases outcome <;> rfl

theorem run_bind_eq_ok {r : Run α} {f : α → Run β} {p q : Progress} {b : β}
    (ran : (r >>= f).run p = (.ok b, q)) : ∃ a next, r.run p = (.ok a, next) ∧
      (f a).run next = (.ok b, q) := by
  rw [run_bind] at ran
  cases same : r.run p with
  | mk outcome next =>
    rw [same] at ran
    cases outcome with
    | error e => cases ran
    | ok a => exact ⟨a, next, rfl, ran⟩

def outcome (r : Run α) : Outcome α := (r.run {}).1

/-- What comes out does not depend on what was done before. -/
def Steady (r : Run α) : Prop := ∀ p, (r.run p).1 = r.outcome

theorem steady_pure (a : α) : Steady (pure a) := fun _ => rfl

theorem steady_ofOutcome (outcome : Outcome α) : Steady (ofOutcome outcome) := fun _ => rfl

theorem run_bind_of_steady {r : Run α} {f : α → Run β} (first : r.Steady)
    (next : ∀ a, r.outcome = .ok a → (f a).Steady) (p : Progress) :
    ((r >>= f).run p).1 = r.outcome >>= fun a => (f a).outcome := by
  have here := first p
  rw [run_bind]
  cases same : r.run p with
  | mk result q =>
    rw [same] at here
    cases result with
    | error e => rw [← here]; rfl
    | ok a =>
      have there := next a here.symm q
      rw [← here]
      exact there

theorem Steady.bind {r : Run α} {f : α → Run β} (first : r.Steady)
    (next : ∀ a, r.outcome = .ok a → (f a).Steady) : Steady (r >>= f) := by
  intro p
  rw [run_bind_of_steady first next p]
  exact (run_bind_of_steady first next {}).symm

theorem outcome_bind {r : Run α} {f : α → Run β} (first : r.Steady)
    (next : ∀ a, r.outcome = .ok a → (f a).Steady) :
    (r >>= f).outcome = r.outcome >>= fun a => (f a).outcome :=
  run_bind_of_steady first next {}

end Run

namespace Evaluator

def replacement (e : Evaluator) : Plan → Run (List Token)
  | .value outcome => do return [.data (← Run.ofOutcome outcome)]
  | .tokens replacement => return replacement
  | .request request => do
    return [.data (← request.answer e.book fun span _ => e.evaluate span)]

theorem reduce_short (e : Evaluator) {tokens : List Token} (short : tokens.length ≤ 1) :
    e.reduce tokens = pure (tokens.headD (.data (.number .zero))) := by
  rw [reduce, if_pos short]

theorem reduce_stuck (e : Evaluator) {tokens : List Token} (long : ¬ tokens.length ≤ 1)
    (stuck : e.book.find? tokens = none) :
    e.reduce tokens = throw (.unreducible (render tokens)) := by
  rw [reduce, if_neg long]
  split
  · rfl
  · next found => rw [stuck] at found; cases found

theorem reduce_step (e : Evaluator) {tokens : List Token} (long : ¬ tokens.length ≤ 1)
    {m : RuleMatch} (found : e.book.find? tokens = some m) :
    e.reduce tokens = (do
      e.beginStep m.rule (m.stretch.select tokens)
      let replaced ← e.replacement (m.rule.action.plan (m.stretch.select tokens))
      e.reduce (m.stretch.splice tokens replaced)) := by
  rw [reduce, if_neg long]
  split
  · next stuck => rw [stuck] at found; cases found
  · next other here =>
    obtain rfl := Option.some.inj (here.symm.trans found)
    refine bind_congr fun _ => ?_
    split
    · next planned => rw [planned]; rfl
    · next planned => rw [planned]; rfl
    · next planned => rw [planned]; rfl
    · next planned =>
      rw [planned]
      simp only [replacement, bind_assoc, pure_bind]
      rfl

theorem yields_of_replacement {e : Evaluator} {plan : Plan} {p q : Progress}
    {replaced : List Token} (ran : (e.replacement plan).run p = (.ok replaced, q)) :
    plan.Yields replaced := by
  cases plan with
  | value outcome =>
    obtain ⟨v, next, here, there⟩ := Run.run_bind_eq_ok ran
    cases here
    cases there
    exact ⟨v, rfl, rfl⟩
  | tokens replacement =>
    cases ran
    rfl
  | request request =>
    obtain ⟨v, next, _, there⟩ := Run.run_bind_eq_ok ran
    cases there
    exact ⟨v, rfl⟩

end Evaluator

/-! Answers to requests -/

namespace Request

theorem attach_mapM (spans : List (List Token)) (run : List Token → Run α) :
    (spans.attach.mapM fun span => run span.1) = spans.mapM run := by
  rw [List.mapM_subtype fun span _ => rfl, List.unattach_attach]

def result (book : RuleBook) (value : List Token → Outcome Value) : Request → Outcome Value
  | choose condition consequent alternative => do
    if (← value condition).isTruthy then value consequent else value alternative
  | call name arguments => do book.call name (← arguments.mapM value)
  | invert span => return .logical !(← value span).isTruthy
  | evaluate span => value span

end Request

namespace Run

theorem steady_mapM {spans : List (List Token)} {run : List Token → Run α}
    (steady : ∀ span ∈ spans, (run span).Steady) : Steady (spans.mapM run) ∧
      (spans.mapM run).outcome = spans.mapM fun span => (run span).outcome := by
  induction spans with
  | nil => exact ⟨steady_pure [], rfl⟩
  | cons span spans ih =>
    obtain ⟨rest, same⟩ := ih fun other member => steady other (List.mem_cons_of_mem span member)
    have first := steady span List.mem_cons_self
    have last (v : α) : Steady (spans.mapM run >>= fun vs => pure (v :: vs)) :=
      rest.bind fun _ _ => steady_pure _
    simp only [List.mapM_cons]
    refine ⟨first.bind fun v _ => last v, ?_⟩
    rw [outcome_bind first fun v _ => last v]
    refine bind_congr fun v => ?_
    rw [outcome_bind rest fun _ _ => steady_pure _, same]
    rfl

theorem steady_answer (book : RuleBook) {request : Request} {run : List Token → Run Value}
    (steady : ∀ span ∈ request.spans, (run span).Steady) :
    Steady (request.answer book fun span _ => run span) ∧
      (request.answer book fun span _ => run span).outcome =
        request.result book fun span => (run span).outcome := by
  cases request with
  | choose condition consequent alternative =>
    have branch (v : Value) :
        Steady (if v.isTruthy then run consequent else run alternative) := by
      split
      · exact steady _ (by simp [Request.spans])
      · exact steady _ (by simp [Request.spans])
    have first := steady condition (by simp [Request.spans])
    refine ⟨first.bind fun v _ => branch v, ?_⟩
    refine (outcome_bind first fun v _ => branch v).trans (bind_congr fun v => ?_)
    cases v.isTruthy <;> rfl
  | call name arguments =>
    simp only [Request.answer, Request.attach_mapM]
    have each : ∀ span ∈ arguments, (run span).Steady := steady
    obtain ⟨values, same⟩ := steady_mapM each
    refine ⟨values.bind fun _ _ => steady_ofOutcome _, ?_⟩
    rw [outcome_bind values fun _ _ => steady_ofOutcome _, same]
    rfl
  | invert span =>
    have first := steady span List.mem_cons_self
    refine ⟨first.bind fun _ _ => steady_pure _, ?_⟩
    exact outcome_bind first fun _ _ => steady_pure _
  | evaluate span => exact ⟨steady span List.mem_cons_self, rfl⟩

end Run

/-! Evaluation without a limit -/

namespace RuleBook

def unlimited (book : RuleBook) : Evaluator := { book }

def reduce (book : RuleBook) (tokens : List Token) : Outcome Token :=
  (book.unlimited.reduce tokens).outcome

def evaluate (book : RuleBook) (tokens : List Token) : Outcome Value :=
  (book.unlimited.evaluate tokens).outcome

def replacement (book : RuleBook) : Plan → Outcome (List Token)
  | .value outcome => return [.data (← outcome)]
  | .tokens replacement => return replacement
  | .request request => return [.data (← request.result book book.evaluate)]

def rewrite (book : RuleBook) (tokens : List Token) (m : RuleMatch) : Outcome (List Token) := do
  let replaced ← book.replacement (m.rule.action.plan (m.stretch.select tokens))
  return m.stretch.splice tokens replaced

theorem steady_beginStep (book : RuleBook) (rule : Rule) (matched : List Token) :
    (book.unlimited.beginStep rule matched).Steady ∧
      (book.unlimited.beginStep rule matched).outcome = .ok () := ⟨fun _ => rfl, rfl⟩

theorem steady_evaluate_of_reduce {book : RuleBook} {tokens : List Token}
    (steady : (book.unlimited.reduce tokens).Steady) :
    (book.unlimited.evaluate tokens).Steady := steady.bind fun _ _ => Run.steady_ofOutcome _

theorem steady_replacement {book : RuleBook} {plan : Plan}
    (steady : ∀ span ∈ plan.spans, (book.unlimited.evaluate span).Steady) :
    (book.unlimited.replacement plan).Steady ∧
      (book.unlimited.replacement plan).outcome = book.replacement plan := by
  cases plan with
  | value outcome =>
    have first := Run.steady_ofOutcome outcome
    refine ⟨first.bind fun _ _ => Run.steady_pure _, ?_⟩
    exact Run.outcome_bind first fun _ _ => Run.steady_pure _
  | tokens replacement => exact ⟨Run.steady_pure _, rfl⟩
  | request request =>
    obtain ⟨first, same⟩ := Run.steady_answer book steady
    refine ⟨first.bind fun _ _ => Run.steady_pure _, ?_⟩
    refine (Run.outcome_bind first fun _ _ => Run.steady_pure _).trans ?_
    rw [same]
    rfl

theorem yields_of_replacement {book : RuleBook} {plan : Plan} {replaced : List Token}
    (steady : ∀ span ∈ plan.spans, (book.unlimited.evaluate span).Steady)
    (done : book.replacement plan = .ok replaced) : plan.Yields replaced := by
  have same := (steady_replacement steady).2
  rw [done] at same
  exact Evaluator.yields_of_replacement (q := ((book.unlimited.replacement plan).run {}).2)
    (Prod.ext same rfl)

theorem steady_reduce (book : RuleBook) (tokens : List Token) :
    (book.unlimited.reduce tokens).Steady := by
  -- By induction on the weight: a step leaves lighter tokens and looks into lighter spans.
  induction size : weight tokens using Nat.strongRecOn generalizing tokens with
  | ind n ih =>
    by_cases short : tokens.length ≤ 1
    · rw [Evaluator.reduce_short _ short]
      exact Run.steady_pure _
    · cases found : book.find? tokens with
      | none =>
        rw [Evaluator.reduce_stuck _ short found]
        exact fun _ => rfl
      | some m =>
        rw [Evaluator.reduce_step _ short found]
        have spans : ∀ span ∈ (m.rule.action.plan (m.stretch.select tokens)).spans,
            (book.unlimited.evaluate span).Steady := fun span member =>
          steady_evaluate_of_reduce (ih _ (size ▸ span_lighter found member) span rfl)
        obtain ⟨first, same⟩ := steady_replacement spans
        refine (steady_beginStep book _ _).1.bind fun _ _ => first.bind fun replaced done => ?_
        have pays := step_pays found (yields_of_replacement spans (same ▸ done))
        exact ih _ (by omega) _ rfl

theorem steady_evaluate (book : RuleBook) (tokens : List Token) :
    (book.unlimited.evaluate tokens).Steady := steady_evaluate_of_reduce (book.steady_reduce tokens)

theorem yields_of_rewrite {book : RuleBook} {tokens : List Token} {m : RuleMatch}
    {after : List Token} (done : book.rewrite tokens m = .ok after) : ∃ replaced,
      (m.rule.action.plan (m.stretch.select tokens)).Yields replaced ∧
        after = m.stretch.splice tokens replaced := by
  obtain ⟨replaced, yielded, same⟩ := bind_eq_ok.mp done
  cases same
  exact ⟨replaced, yields_of_replacement (fun span _ => book.steady_evaluate span) yielded, rfl⟩

theorem rewrite_lighter {book : RuleBook} {tokens : List Token} {m : RuleMatch}
    (found : book.find? tokens = some m) {after : List Token}
    (done : book.rewrite tokens m = .ok after) : weight after < weight tokens := by
  obtain ⟨replaced, yields, rfl⟩ := yields_of_rewrite done
  have pays := step_pays found yields
  omega

theorem evaluate_eq (book : RuleBook) (tokens : List Token) :
    book.evaluate tokens = book.reduce tokens >>= Token.toValue :=
  Run.outcome_bind (book.steady_reduce tokens) fun _ _ => Run.steady_ofOutcome _

theorem reduce_short (book : RuleBook) {tokens : List Token} (short : tokens.length ≤ 1) :
    book.reduce tokens = .ok (tokens.headD (.data (.number .zero))) := by
  rw [reduce, Evaluator.reduce_short _ short]
  rfl

theorem reduce_stuck (book : RuleBook) {tokens : List Token} (long : ¬ tokens.length ≤ 1)
    (stuck : book.find? tokens = none) :
    book.reduce tokens = .error (.unreducible (render tokens)) := by
  rw [reduce, Evaluator.reduce_stuck _ long stuck]
  rfl

theorem reduce_step (book : RuleBook) {tokens : List Token} (long : ¬ tokens.length ≤ 1)
    {m : RuleMatch} (found : book.find? tokens = some m) :
    book.reduce tokens = book.rewrite tokens m >>= book.reduce := by
  obtain ⟨begun, counted⟩ := steady_beginStep book m.rule (m.stretch.select tokens)
  have spans : ∀ span ∈ (m.rule.action.plan (m.stretch.select tokens)).spans,
      (book.unlimited.evaluate span).Steady := fun span _ => book.steady_evaluate span
  obtain ⟨first, same⟩ := steady_replacement spans
  have rest (replaced : List Token) := book.steady_reduce (m.stretch.splice tokens replaced)
  rw [reduce, Evaluator.reduce_step _ long found,
    Run.outcome_bind begun fun _ _ => first.bind fun replaced _ => rest replaced, counted]
  refine (Run.outcome_bind first fun replaced _ => rest replaced).trans ?_
  rw [same, rewrite, bind_assoc]
  refine bind_congr fun replaced => ?_
  rw [pure_bind]
  rfl

/-! What the tokens evaluate to -/

theorem evaluate_short (book : RuleBook) {tokens : List Token} (short : tokens.length ≤ 1) :
    book.evaluate tokens = (tokens.headD (.data (.number .zero))).toValue := by
  rw [evaluate_eq, reduce_short book short]
  rfl

theorem evaluate_stuck (book : RuleBook) {tokens : List Token} (long : ¬ tokens.length ≤ 1)
    (stuck : book.find? tokens = none) :
    book.evaluate tokens = .error (.unreducible (render tokens)) := by
  rw [evaluate_eq, reduce_stuck book long stuck]
  rfl

theorem evaluate_step (book : RuleBook) {tokens : List Token} (long : ¬ tokens.length ≤ 1)
    {m : RuleMatch} (found : book.find? tokens = some m) :
    book.evaluate tokens = book.rewrite tokens m >>= book.evaluate := by
  rw [evaluate_eq, reduce_step book long found, bind_assoc]
  exact bind_congr fun after => (book.evaluate_eq after).symm

/-! Runs that are known up to what the tokens contain -/

/-- With other tokens before them, the tokens fail with this error, or evaluate to what some tokens
    with these contents do. -/
def Becomes (book : RuleBook) (passed tokens : List Token) : Outcome (List Content) → Prop
  | .error e => book.evaluate (passed ++ tokens) = .error e
  | .ok contents => ∃ after, after.map Token.content = contents ∧
      book.evaluate (passed ++ tokens) = book.evaluate (passed ++ after)

theorem Becomes.trans {book : RuleBook} {passed tokens : List Token} {contents : List Content}
    {outcome : Outcome (List Content)} (first : book.Becomes passed tokens (.ok contents))
    (next : ∀ after, after.map Token.content = contents → book.Becomes passed after outcome) :
    book.Becomes passed tokens outcome := by
  obtain ⟨after, spelled, same⟩ := first
  have there := next after spelled
  cases outcome with
  | error e => exact same.trans there
  | ok contents =>
    obtain ⟨last, spelled, also⟩ := there
    exact ⟨last, spelled, same.trans also⟩

theorem Becomes.behind {book : RuleBook} {passed front tokens : List Token} {α : Type}
    {outcome : Outcome α} {contents shown : α → List Content}
    (run : book.Becomes (passed ++ front) tokens (outcome.map contents))
    (same : ∀ a, shown a = front.map Token.content ++ contents a) :
    book.Becomes passed (front ++ tokens) (outcome.map shown) := by
  cases outcome with
  | error e => exact (congrArg book.evaluate (List.append_assoc passed front tokens)).symm.trans run
  | ok a =>
    obtain ⟨after, spelled, also⟩ := run
    rw [List.append_assoc, List.append_assoc] at also
    exact ⟨front ++ after, by rw [List.map_append, spelled, same], also⟩

theorem Becomes.bind {book : RuleBook} {passed tokens : List Token} {α β : Type}
    {outcome : Outcome α} {contents : α → List Content} {next : α → Outcome β}
    {shown : β → List Content} (first : book.Becomes passed tokens (outcome.map contents))
    (later : ∀ a after, outcome = .ok a → after.map Token.content = contents a →
      book.Becomes passed after ((next a).map shown)) :
    book.Becomes passed tokens ((outcome >>= next).map shown) := by
  cases outcome with
  | error e => exact first
  | ok a => exact first.trans fun after spelled => later a after rfl spelled

end RuleBook

end Formulary
