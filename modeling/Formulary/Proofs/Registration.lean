import Formulary.Proofs.FunctionCalls

/-!
Registering a function is conservative. Its rule only matches calls by its name, and the rules of
all others stay in order, so that tokens without such a call are rewritten as they were before:
step for step, and within the same limits.
-/
namespace Formulary

/-! What a search finds, without the place among the rules -/

def RuleMatch.found (m : RuleMatch) : Rule × Stretch := (m.rule, m.stretch)

def firstRule? (rules : List Rule) (tokens : List Token) : Option (Rule × Stretch) :=
  rules.findSome? fun rule => (rule.pattern.find? tokens).map fun stretch => (rule, stretch)

theorem firstRule?_append (first second : List Rule) (tokens : List Token) :
    firstRule? (first ++ second) tokens =
      (firstRule? first tokens).or (firstRule? second tokens) := List.findSome?_append

namespace RuleBook

variable {book other : RuleBook}

theorem found_find? (book : RuleBook) (tokens : List Token) :
    (book.find? tokens).map RuleMatch.found = firstRule? book.rules tokens := by
  have places : book.rules.zipIdx.map Prod.fst = book.rules := List.zipIdx_map_fst 0 book.rules
  rw [find?_eq_search, search, List.map_findSome?, firstRule?]
  conv_rhs => rw [← places]
  rw [List.findSome?_map]
  refine congrArg (List.findSome? · book.rules.zipIdx) (funext fun entry => ?_)
  simp only [Function.comp, Option.map_map]
  rfl

theorem find?_of_found {tokens : List Token}
    (same : (book.find? tokens).map RuleMatch.found = (other.find? tokens).map RuleMatch.found)
    {m : RuleMatch} (found : book.find? tokens = some m) :
    ∃ m', other.find? tokens = some m' ∧ m'.rule = m.rule ∧ m'.stretch = m.stretch := by
  rw [found] at same
  obtain ⟨m', found', alike⟩ := Option.map_eq_some_iff.mp same.symm
  exact ⟨m', found', congrArg Prod.fst alike, congrArg Prod.snd alike⟩

end RuleBook

/-! Tokens that do not name a function -/

def Omits (name : Name) (tokens : List Token) : Prop :=
  ∀ t ∈ tokens, t.symbol? ≠ some (.function name)

namespace Omits

variable {name : Name} {tokens : List Token}

theorem part {span : List Token} (omits : Omits name tokens) (inside : span <:+: tokens) :
    Omits name span := fun t member => omits t (inside.subset member)

theorem select (omits : Omits name tokens) (s : Stretch) : Omits name (s.select tokens) :=
  omits.part ((List.take_prefix _ _).isInfix.trans (List.drop_suffix _ _).isInfix)

theorem splice (omits : Omits name tokens) {replaced : List Token} (put : Omits name replaced)
    (s : Stretch) : Omits name (s.splice tokens replaced) := by
  intro t member
  rcases List.mem_append.mp member with front | behind
  · rcases List.mem_append.mp front with before | here
    · exact omits t (List.mem_of_mem_take before)
    · exact put t here
  · exact omits t (List.mem_of_mem_drop behind)

theorem data (name : Name) (v : Value) : Omits name [.data v] := by
  intro t member
  rw [List.mem_singleton.mp member]
  simp [Token.data, Token.symbol?]

theorem yields (omits : Omits name tokens) {action : Action} {replaced : List Token}
    (yields : (action.plan tokens).Yields replaced) : Omits name replaced := by
  obtain ⟨v, rfl⟩ | ⟨a, first, b, second, c, _, rfl, rfl⟩ := Action.yields_cases yields
  · exact data name v
  · have joined : (Token.combinator .and).symbol? ≠ some (.function name) := by
      simp [Token.combinator, Token.symbol, Token.symbol?]
    intro t member
    simp only [List.mem_cons, List.not_mem_nil, or_false] at member
    rcases member with rfl | rfl | rfl | rfl | rfl | rfl | rfl
    all_goals first
      | exact joined
      | exact omits _ (by simp)

theorem call_name (omits : Omits name tokens) {action : Action} {other : Name}
    {arguments : List (List Token)}
    (planned : action.plan tokens = .request (.call other arguments)) : name ≠ other := by
  rintro rfl
  cases action <;> simp only [Action.plan, Plan.mismatch] at planned
  case round | roundInteger | call =>
    split at planned
    · next asked =>
      cases planned
      obtain ⟨head, first, isName⟩ := Option.bind_eq_some_iff.mp asked
      exact omits head (List.mem_of_mem_head? first) isName
    · cases planned
  all_goals
    repeat' split at planned
    all_goals cases planned

theorem find?_eq_none {d : Definition} (omits : Omits d.name tokens) :
    d.pattern.find? tokens = none := by
  refine Pattern.find?_eq_none_of_absent (m := .function d.name) (by simp [Definition.pattern])
    d.isSingle_name fun t member => ?_
  cases accepted : (Matcher.function d.name).accepts t with
  | false => rfl
  | true =>
    obtain ⟨symbol, asked, here⟩ :=
      Matcher.symbol_mem_of_accepts accepted (List.cons_ne_nil _ _)
    rw [List.mem_singleton.mp asked] at here
    exact absurd here (omits t member)

end Omits

/-! Runs in two books -/

theorem mapM_congr {m : Type → Type} [Monad m] [LawfulMonad m] {α β : Type} {f g : α → m β}
    {l : List α} (same : ∀ a ∈ l, f a = g a) : l.mapM f = l.mapM g := by
  induction l with
  | nil => rfl
  | cons a l ih =>
    rw [List.mapM_cons, List.mapM_cons, same a List.mem_cons_self,
      ih fun b member => same b (List.mem_cons_of_mem a member)]

namespace Run

variable {α β : Type}

theorem ext {r s : Run α} (same : ∀ p, r.run p = s.run p) : r = s := funext same

theorem bind_congr_of_run {r : Run α} {f g : α → Run β}
    (same : ∀ a p q, r.run p = (.ok a, q) → f a = g a) : r >>= f = r >>= g := by
  refine ext fun p => ?_
  rw [run_bind, run_bind]
  cases ran : r.run p with
  | mk outcome q =>
    cases outcome with
    | error e => rfl
    | ok a => exact congrArg (fun next : Run β => next.run q) (same a p q ran)

end Run

namespace RuleBook

variable {book : RuleBook} {d : Definition} {tokens : List Token}

theorem call_register {name : Name} (other : d.name ≠ name) :
    (book.register d).call name = book.call name := by
  funext values
  unfold call
  rw [function?_register, if_neg other]

theorem span_part {m : RuleMatch} (found : book.find? tokens = some m) {span : List Token}
    (member : span ∈ (m.rule.action.plan (m.stretch.select tokens)).spans) :
    span <:+: m.stretch.select tokens := by
  cases planned : m.rule.action.plan (m.stretch.select tokens) with
  | request request =>
    rw [planned] at member
    exact (Action.span_inside (matched_of_find? found).nonempty planned member).1
  | _ => simp [planned, Plan.spans] at member

theorem firstRule?_register (omits : Omits d.name tokens) :
    firstRule? (book.register d).rules tokens = firstRule? book.rules tokens := by
  have nowhere (e : Definition) (same : e.name = d.name) : e.pattern.find? tokens = none :=
    (same ▸ omits : Omits e.name tokens).find?_eq_none
  have kept : firstRule? ((book.custom.filter (·.name != d.name)).map Definition.rule) tokens =
      firstRule? (book.custom.map Definition.rule) tokens := by
    simp only [firstRule?, List.findSome?_map]
    refine findSome?_filter (fun e _ _ => rfl) fun e _ taken => ?_
    simp [Definition.rule, nowhere e (by simpa using taken)]
  have first : firstRule? [d.rule] tokens = none := by
    simp [firstRule?, Definition.rule, nowhere d rfl]
  have latest : (book.register d).rules =
      [d.rule] ++ ((book.custom.filter (·.name != d.name)).map Definition.rule ++ coreRules) := rfl
  rw [latest, firstRule?_append, first, Option.none_or, firstRule?_append, kept,
    ← firstRule?_append]
  rfl

theorem found_register (book : RuleBook) (omits : Omits d.name tokens) :
    (book.find? tokens).map RuleMatch.found =
      ((book.register d).find? tokens).map RuleMatch.found := by
  rw [found_find?, found_find?, firstRule?_register omits]

theorem answer_register {request : Request}
    (others : ∀ name arguments, request = .call name arguments → d.name ≠ name)
    {run run' : List Token → Run Value} (same : ∀ span ∈ request.spans, run' span = run span) :
    (request.answer (book.register d) fun span _ => run' span) =
      request.answer book fun span _ => run span := by
  cases request with
  | choose condition consequent alternative =>
    simp only [Request.answer, same condition (by simp [Request.spans]),
      same consequent (by simp [Request.spans]), same alternative (by simp [Request.spans])]
  | call name arguments =>
    have each : arguments.mapM run' = arguments.mapM run := mapM_congr same
    simp only [Request.answer, Request.attach_mapM, each, call_register (others _ _ rfl)]
  | invert span => simp only [Request.answer, same span (by simp [Request.spans])]
  | evaluate span => simp only [Request.answer, same span (by simp [Request.spans])]

theorem replacement_register {limit : Option Nat} {action : Action} (omits : Omits d.name tokens)
    (same : ∀ span ∈ (action.plan tokens).spans,
      Evaluator.evaluate ⟨book.register d, limit⟩ span = Evaluator.evaluate ⟨book, limit⟩ span) :
    Evaluator.replacement ⟨book.register d, limit⟩ (action.plan tokens) =
      Evaluator.replacement ⟨book, limit⟩ (action.plan tokens) := by
  cases planned : action.plan tokens with
  | value outcome => rfl
  | tokens replacement => rfl
  | request request =>
    rw [planned] at same
    have others (name : Name) (arguments : List (List Token))
        (asked : request = .call name arguments) : d.name ≠ name :=
      omits.call_name (asked ▸ planned)
    simp only [Evaluator.replacement, answer_register others same]

theorem reduce_register (book : RuleBook) (limit : Option Nat) (omits : Omits d.name tokens) :
    Evaluator.reduce ⟨book.register d, limit⟩ tokens = Evaluator.reduce ⟨book, limit⟩ tokens := by
  -- By induction on the weight: both books find the same rule, and no step makes a call of the
  -- function.
  induction size : weight tokens using Nat.strongRecOn generalizing tokens with
  | ind n ih =>
    by_cases short : tokens.length ≤ 1
    · rw [Evaluator.reduce_short _ short, Evaluator.reduce_short _ short]
    · have alike := book.found_register omits
      cases found : book.find? tokens with
      | none =>
        rw [found] at alike
        have stuck : (book.register d).find? tokens = none :=
          Option.map_eq_none_iff.mp alike.symm
        exact (Evaluator.reduce_stuck _ short stuck).trans
          (Evaluator.reduce_stuck _ short found).symm
      | some m =>
        obtain ⟨m', found', rule, stretch⟩ := find?_of_found alike found
        have matched := omits.select m.stretch
        have spans : ∀ span ∈ (m.rule.action.plan (m.stretch.select tokens)).spans,
            Evaluator.evaluate ⟨book.register d, limit⟩ span =
              Evaluator.evaluate ⟨book, limit⟩ span := by
          intro span member
          have inside := matched.part (span_part found member)
          unfold Evaluator.evaluate
          rw [ih _ (size ▸ span_lighter found member) inside rfl]
        have step := Evaluator.reduce_step ⟨book, limit⟩ short found
        have step' := Evaluator.reduce_step ⟨book.register d, limit⟩ short found'
        rw [rule, stretch, replacement_register matched spans] at step'
        rw [step, step']
        refine bind_congr fun _ => Run.bind_congr_of_run fun replaced p q ran => ?_
        have yields := Evaluator.yields_of_replacement ran
        have lighter := step_pays found yields
        exact ih _ (by omega) (omits.splice (matched.yields yields) m.stretch) rfl

/-- Registering a function does not change the evaluation of tokens that do not name it, whatever
    it is and whether or not there was one of that name before: the result, the count of steps and
    what is noted of them are the same, with or without a limit. -/
theorem register_conservative (book : RuleBook) (d : Definition) (limit : Option Nat)
    {tokens : List Token} (omits : Omits d.name tokens) (start : Progress) :
    (Evaluator.evaluate ⟨book.register d, limit⟩ tokens).run start =
      (Evaluator.evaluate ⟨book, limit⟩ tokens).run start := by
  unfold Evaluator.evaluate
  rw [reduce_register book limit omits]

/-- A rounding function is replaced by one that always fails, with a call of another function
    among the tokens. The limit allows one step less than they take. -/
theorem register_conservative_call :
    let first (values : List Value) : Outcome Value := .ok (values.headD .null)
    let book := (core.register ⟨.mk "round", .parameters ["x"], first⟩).register
      ⟨.mk "first", .between 1 none, first⟩
    let failing : Definition := ⟨.mk "round", .between 0 none, fun _ => .error .divisionByZero⟩
    let tokens := [⟨.symbol (.function (.mk "first")), 0⟩, Token.grouping .callOpening,
      .data (.integer 2), .grouping .closing, .operator .add, .data (.integer 1)]
    Omits (.mk "round") tokens ∧
      (Evaluator.evaluate ⟨book.register failing, some 1⟩ tokens).run {} =
        (Evaluator.evaluate ⟨book, some 1⟩ tokens).run {} := by
  intro first book failing tokens
  have omits : Omits (.mk "round") tokens := by
    unfold Omits
    decide
  exact ⟨omits, register_conservative book failing (some 1) omits {}⟩

end RuleBook

end Formulary
