import Formulary.Descent

/-!
Evaluation by rewriting. As long as there is more than one token, the first rule that matches
anywhere is applied at its leftmost match. Groups, arguments and branches are evaluated on their
own, and share the count of steps. Every step makes the tokens lighter, so there is an end to it.
-/
namespace Formulary

structure Step where
  number : Nat
  rule : Rule
  matched : List Token

def Step.text (s : Step) : String :=
  s!"step {s.number}: {s.rule.name} ({s.rule.action.name}) on `{render s.matched}`"

structure Progress where
  steps : Nat := 0
  notes : List Step := []

/-- A computation that takes steps and may fail. Steps taken before a failure stay taken. -/
abbrev Run := ExceptT FormulaError (StateM Progress)

def Run.ofOutcome {α : Type} (outcome : Outcome α) : Run α := ExceptT.mk (pure outcome)

def Request.answer (book : RuleBook) (request : Request)
    (run : (span : List Token) → span ∈ request.spans → Run Value) : Run Value :=
  match request with
  | choose condition consequent alternative => do
    if (← run condition (by simp [spans])).isTruthy then run consequent (by simp [spans])
    else run alternative (by simp [spans])
  | call name arguments => do
    let values ← arguments.attach.mapM fun ⟨span, member⟩ => run span member
    Run.ofOutcome (book.call name values)
  | invert span => return .logical !(← run span (by simp [spans])).isTruthy
  | evaluate span => run span (by simp [spans])

structure Evaluator where
  book : RuleBook
  maxSteps : Option Nat := none

namespace Evaluator

/-- Counts a step, and notes it unless it is one too many. -/
def beginStep (e : Evaluator) (rule : Rule) (matched : List Token) : Run Unit := do
  let progress ← get
  let number := progress.steps + 1
  match e.maxSteps.filter (· < number) with
  | some limit =>
    set { progress with steps := number }
    throw (.stepLimit limit)
  | none =>
    set { progress with steps := number, notes := ⟨number, rule, matched⟩ :: progress.notes }

/-- Rewrites until one token is left. No tokens at all stand for zero. -/
def reduce (e : Evaluator) (tokens : List Token) : Run Token :=
  if tokens.length ≤ 1 then return tokens.headD (.data (.number .zero))
  else
    match _found : e.book.find? tokens with
    | none => throw (.unreducible (render tokens))
    | some m => do
      let matched := m.stretch.select tokens
      e.beginStep m.rule matched
      match _planned : m.rule.action.plan matched with
      | .value (.ok v) => reduce e (m.stretch.splice tokens [.data v])
      | .value (.error error) => throw error
      | .tokens replacement => reduce e (m.stretch.splice tokens replacement)
      | .request request =>
        let v ← request.answer e.book fun span _member => do
          Run.ofOutcome (← reduce e span).toValue
        reduce e (m.stretch.splice tokens [.data v])
termination_by weight tokens
decreasing_by
  all_goals have ways := RuleBook.matched_of_find? _found
  · exact m.stretch.weight_splice_lt (ways.outcome_lighter _planned)
  · exact m.stretch.weight_splice_lt (ways.tokens_lighter _planned)
  · exact m.stretch.weight_lt_of_inside_select (Action.span_inside ways.nonempty _planned _member)
  · exact m.stretch.weight_splice_lt (ways.answer_lighter _planned v)

def evaluate (e : Evaluator) (tokens : List Token) : Run Value := do
  Run.ofOutcome (← e.reduce tokens).toValue

end Evaluator

end Formulary
